import Wt32Router.Dhcp.RoundTrip

/-!
# What a boot does not inherit

A restored address that another record claims too "is the fossil of a duplicate-address
argument", and `load_from_nvs` drops it. It does so in two loops over the table, one that marks
and one that clears: marking is "decided from the values as they were read, so the first one
cleared does not stop the second being recognised". `restore` says what that comes to. Here are
the loops themselves, over the restored slots in any order.

> **`load_settles_disputes`**: after a load no restored entry has an observed address that
> another one claims, what nobody else claims is kept, no lease is altered, the order is of no
> consequence, and the table is dirty exactly if flash holds more than was kept.
-/

namespace Wt32Router
namespace Dhcp

/-! ## The end of the load, as it is written -/

/-- The table as the restore loop leaves it. -/
def restoreRaw (t : Slot → Lease) (recs : List StoredLease) : Slot → Lease := fun i =>
  match recs[i.val]? with
  | some s => restoredLease (t i) s false
  | none => t i

/-- The inner loop: a slot other than `i` has what `i` was using, by lease or by use. -/
def claimedElsewhere (t : Slot → Lease) (i : Slot) : List Slot → Bool
  | [] => false
  | j :: js =>
    if j = i then claimedElsewhere t i js
    else if (t j).ip = (t i).observedIp ∨ (t j).observedIp = (t i).observedIp then true
    else claimedElsewhere t i js

/-- The first loop, which fills in `drop_observed`. -/
def flagLoop (t : Slot → Lease) (scan : List Slot) : List Slot → (Slot → Bool) → Slot → Bool
  | [], drop => drop
  | i :: is, drop =>
    if (t i).observedIp = 0 then flagLoop t scan is drop
    else if claimedElsewhere t i scan then flagLoop t scan is (Function.update drop i true)
    else flagLoop t scan is drop

/-- `s_leases[i].observed_ip = 0`. -/
def Server.forgetObserved (st : Server) (i : Slot) : Server :=
  st.setLease i { st.leases i with observedIp := 0 }

/-- The second loop. -/
def clearLoop (drop : Slot → Bool) (now : Nat) : List Slot → Server → Server
  | [], st => st
  | i :: is, st =>
    if drop i then clearLoop drop now is ((st.forgetObserved i).markDirty now)
    else clearLoop drop now is st

/-- The orders in which the three loops visit the slots. The code's is that of the table. -/
structure Visits where
  flag : List Slot
  scan : List Slot
  clear : List Slot

/-- A visiting order reaches the first `n` slots and no others. -/
def Covers (n : Nat) (is : List Slot) : Prop := ∀ i : Slot, i ∈ is ↔ i.val < n

structure Visits.Covers (v : Visits) (n : Nat) : Prop where
  flag : Dhcp.Covers n v.flag
  scan : Dhcp.Covers n v.scan
  clear : Dhcp.Covers n v.clear

/-- `load_from_nvs` from the disputes on, with `n` slots restored. -/
def settleDisputes (st : Server) (v : Visits) (n forgotten now : Nat) : Server :=
  let drop := flagLoop st.leases v.scan v.flag fun _ => false
  let st := clearLoop drop now v.clear st
  let st := if 0 < forgotten then st.markDirty now else st
  { st with restoredCount := n }

/-- `load_from_nvs` once it has a blob this build understands, loop by loop. -/
def loadInOrder (v : Visits) (st : Server) (hdr : StoredHdr) (recs : List StoredLease)
    (now : Nat) : Server :=
  let kept := keptRecords (hdr.bootSeq + 1) hdr.version recs
  settleDisputes
    { st with bootSeq := hdr.bootSeq + 1, leases := restoreRaw st.leases kept }
    v kept.length (recs.length - kept.length) now

section

variable {t : Slot → Lease} {st : Server} {recs : List StoredLease} {s : StoredLease}
  {i j k : Slot} {is scan : List Slot} {drop : Slot → Bool} {now n : Nat} {v : Visits}

/-! ## The marking loop -/

theorem claimedElsewhere_iff : claimedElsewhere t i scan = true ↔
    ∃ j ∈ scan, j ≠ i ∧ ((t j).ip = (t i).observedIp ∨ (t j).observedIp = (t i).observedIp) := by
  induction scan with
  | nil => exact iff_of_false Bool.false_ne_true fun ⟨_, hj, _⟩ => List.not_mem_nil hj
  | cons x xs ih =>
    rw [List.exists_mem_cons_iff, ← ih, claimedElsewhere]
    by_cases hx : x = i
    · rw [if_pos hx]
      refine (or_iff_right ?_).symm
      rintro ⟨hne, -⟩
      exact hne hx
    · rw [if_neg hx]
      by_cases hclaim : (t x).ip = (t i).observedIp ∨ (t x).observedIp = (t i).observedIp
      · rw [if_pos hclaim]
        exact iff_of_true rfl (.inl ⟨hx, hclaim⟩)
      · rw [if_neg hclaim]
        refine (or_iff_right ?_).symm
        rintro ⟨-, h⟩
        exact hclaim h

/-- A slot that is visited is marked by what was read, whoever was marked before it. -/
theorem flagLoop_iff : flagLoop t scan is drop i = true ↔
    drop i = true ∨ (i ∈ is ∧ (t i).observedIp ≠ 0 ∧ claimedElsewhere t i scan = true) := by
  induction is generalizing drop with
  | nil =>
    unfold flagLoop
    exact ⟨.inl, fun h => h.resolve_right fun h' => List.not_mem_nil h'.1⟩
  | cons x xs ih =>
    -- what the visit of `x` adds to the marks
    have hvisit : ∀ {marks : Slot → Bool}, (marks i = true ↔ drop i = true ∨
        (i = x ∧ (t i).observedIp ≠ 0 ∧ claimedElsewhere t i scan = true)) →
        (flagLoop t scan xs marks i = true ↔ drop i = true ∨
          (i ∈ x :: xs ∧ (t i).observedIp ≠ 0 ∧ claimedElsewhere t i scan = true)) := by
      intro marks hmarks
      rw [ih, hmarks, List.mem_cons]
      tauto
    unfold flagLoop
    split
    · rename_i h0
      apply hvisit
      refine ⟨.inl, fun h => h.resolve_right ?_⟩
      rintro ⟨rfl, hne, -⟩
      exact hne h0
    · rename_i hne
      split
      · rename_i hclaim
        apply hvisit
        by_cases hix : i = x
        · subst hix
          rw [Function.update_self]
          exact iff_of_true rfl (.inr ⟨rfl, hne, hclaim⟩)
        · rw [Function.update_of_ne hix]
          exact ⟨.inl, fun h => h.resolve_right fun h' => hix h'.1⟩
      · rename_i hfree
        apply hvisit
        refine ⟨.inl, fun h => h.resolve_right ?_⟩
        rintro ⟨rfl, -, hclaim⟩
        exact hfree hclaim

/-! ## The clearing loop -/

/-- The table with these slots' observed addresses gone. -/
def clearedTable (t : Slot → Lease) (gone : Slot → Bool) : Slot → Lease := fun i =>
  if gone i then { t i with observedIp := 0 } else t i

section

variable {gone gone' : Slot → Bool}

theorem clearedTable_gone (h : gone i = true) :
    clearedTable t gone i = { t i with observedIp := 0 } := if_pos h

theorem clearedTable_kept (h : gone i = false) : clearedTable t gone i = t i :=
  if_neg (by rw [h]; exact Bool.false_ne_true)

theorem clearedTable_none (h : ∀ i, gone i = false) : clearedTable t gone = t :=
  funext fun i => clearedTable_kept (h i)

/-- A slot is cleared by what is said of it alone. -/
theorem clearedTable_congr {t' : Slot → Lease} (ht : t i = t' i) (hgone : gone i = gone' i) :
    clearedTable t gone i = clearedTable t' gone' i := by
  unfold clearedTable
  rw [ht, hgone]

end

theorem markDirty_idem : (st.markDirty now).markDirty now = st.markDirty now := by
  have hd : (st.markDirty now).dirty = true := Server.markDirty_dirty st now
  exact if_pos hd

theorem markDirty_setLeases (t : Slot → Lease) :
    { st.markDirty now with leases := t } = ({ st with leases := t } : Server).markDirty now := by
  unfold Server.markDirty
  dsimp only
  split <;> rfl

theorem markDirty_setCount (n : Nat) : { st.markDirty now with restoredCount := n } =
    ({ st with restoredCount := n } : Server).markDirty now := by
  unfold Server.markDirty
  dsimp only
  split <;> rfl

/-- One visit that clears, and what the visits after it clear. -/
theorem clearedTable_cons (hi : drop i = true) :
    clearedTable (st.forgetObserved i).leases (fun j => is.contains j && drop j) =
      clearedTable st.leases fun j => (i :: is).contains j && drop j := by
  funext j
  by_cases hji : j = i
  · subst hji
    have hin : ((j :: is).contains j && drop j) = true := by simp [hi]
    refine Eq.trans ?_ (clearedTable_gone hin).symm
    unfold clearedTable Server.forgetObserved
    rw [Server.setLease_same]
    split <;> rfl
  · apply clearedTable_congr
    · exact Server.setLease_ne _ _ _ _ hji
    · simp [hji]

/-- **What the clearing loop leaves** does not depend on the order of its list. -/
theorem clearLoop_eq : clearLoop drop now is st =
    if is.any drop then
      ({ st with leases := clearedTable st.leases fun i => is.contains i && drop i }).markDirty now
    else st := by
  induction is generalizing st with
  | nil => rfl
  | cons x xs ih =>
    unfold clearLoop
    cases hx : drop x with
    | true =>
      have hany : (x :: xs).any drop = true := List.any_eq_true.mpr ⟨x, List.mem_cons_self, hx⟩
      rw [if_pos rfl, if_pos hany, ih, Server.markDirty_leases, clearedTable_cons hx]
      split
      · rw [markDirty_setLeases, markDirty_idem]
        rfl
      · rename_i hrest
        have honly : (st.forgetObserved x).leases =
            clearedTable st.leases fun i => (x :: xs).contains i && drop i := by
          rw [← clearedTable_cons hx]
          refine (clearedTable_none fun i => ?_).symm
          refine Bool.eq_false_iff.mpr fun hi => hrest (List.any_eq_true.mpr ⟨i, ?_⟩)
          simpa using hi
        rw [← honly]
        rfl
    | false =>
      have hany : (x :: xs).any drop = xs.any drop := by rw [List.any_cons, hx, Bool.false_or]
      have hmem : (fun i => (x :: xs).contains i && drop i) = fun i => xs.contains i && drop i := by
        funext i
        by_cases hix : i = x
        · subst hix
          rw [hx, Bool.and_false, Bool.and_false]
        · simp [hix]
      rw [if_neg Bool.false_ne_true, ih, hany, hmem]

/-- Both loops, and the mark for what was forgotten. -/
theorem settleDisputes_eq (st : Server) (v : Visits) (n forgotten now : Nat) {t : Slot → Lease}
    {gone : Bool} (hgone : v.clear.any (flagLoop st.leases v.scan v.flag fun _ => false) = gone)
    (ht : clearedTable st.leases (fun i => v.clear.contains i &&
      flagLoop st.leases v.scan v.flag (fun _ => false) i) = t) :
    settleDisputes st v n forgotten now =
      if gone || decide (0 < forgotten) then
        ({ st with leases := t, restoredCount := n }).markDirty now
      else { st with leases := t, restoredCount := n } := by
  subst ht
  unfold settleDisputes
  dsimp only
  rw [clearLoop_eq, hgone]
  cases gone with
  | true =>
    rw [Bool.true_or, if_pos rfl, if_pos rfl]
    split
    · rw [markDirty_idem, markDirty_setCount]
    · rw [markDirty_setCount]
  | false =>
    have hnone : clearedTable st.leases (fun i => v.clear.contains i &&
        flagLoop st.leases v.scan v.flag (fun _ => false) i) = st.leases := by
      refine clearedTable_none fun i => Bool.eq_false_iff.mpr fun hi => ?_
      have hany : v.clear.any (flagLoop st.leases v.scan v.flag fun _ => false) = true := by
        refine List.any_eq_true.mpr ⟨i, ?_⟩
        simpa using hi
      exact absurd (hgone.symm.trans hany) Bool.false_ne_true
    rw [Bool.false_or, if_neg Bool.false_ne_true, hnone]
    by_cases hf : 0 < forgotten
    · rw [if_pos hf, if_pos (decide_eq_true hf), markDirty_setCount]
    · rw [if_neg hf, if_neg (by rw [decide_eq_true_eq]; exact hf)]

/-! ## The two loops together -/

theorem restoreRaw_some (h : recs[i.val]? = some s) :
    restoreRaw t recs i = restoredLease (t i) s false := by
  unfold restoreRaw
  rw [h]

theorem restoreRaw_none (h : recs[i.val]? = none) : restoreRaw t recs i = t i := by
  unfold restoreRaw
  rw [h]

/-- The marks are the disputes. -/
theorem flagLoop_restored (hflag : Covers recs.length is) (hscan : Covers recs.length scan)
    (hfits : recs.length ≤ maxLeases) (h : recs[i.val]? = some s) :
    flagLoop (restoreRaw t recs) scan is (fun _ => false) i = dropObserved recs i.val := by
  have hi : i.val < recs.length := (List.getElem?_eq_some_iff.mp h).1
  have hobs : (restoreRaw t recs i).observedIp = s.observedIp := by
    rw [restoreRaw_some h]
    rfl
  apply Bool.eq_iff_iff.mpr
  rw [dropObserved_iff h, flagLoop_iff, claimedElsewhere_iff, hobs]
  constructor
  · rintro (hno | ⟨-, h0, j, hj, hne, hclaim⟩)
    · exact absurd hno Bool.false_ne_true
    · have hlt : j.val < recs.length := (hscan j).mp hj
      have hget := List.getElem?_eq_getElem hlt
      rw [restoreRaw_some hget] at hclaim
      exact ⟨h0, j.val, _, fun heq => hne (Fin.ext heq), hget, hclaim⟩
  · rintro ⟨h0, k, u, hne, hk, hclaim⟩
    have hlt : k < recs.length := (List.getElem?_eq_some_iff.mp hk).1
    have hslot : k < maxLeases := Nat.lt_of_lt_of_le hlt hfits
    refine .inr ⟨(hflag i).mpr hi, h0, ⟨k, hslot⟩, (hscan _).mpr hlt, ?_, ?_⟩
    · rintro rfl
      exact hne rfl
    · rw [restoreRaw_some (i := ⟨k, hslot⟩) hk]
      exact hclaim

/-- **The order is of no consequence**: visiting the restored slots in any order is `restore`. -/
theorem loadInOrder_eq {hdr : StoredHdr} (hfits : recs.length ≤ maxLeases)
    (hv : v.Covers (keptRecords (hdr.bootSeq + 1) hdr.version recs).length) :
    loadInOrder v st hdr recs now = loadRecords st hdr recs now := by
  unfold loadInOrder loadRecords
  dsimp only
  have hlen : (keptRecords (hdr.bootSeq + 1) hdr.version recs).length ≤ recs.length :=
    List.length_filter_le _ _
  generalize keptRecords (hdr.bootSeq + 1) hdr.version recs = kept at *
  have hkept : kept.length ≤ maxLeases := le_trans hlen hfits
  generalize hmarks : flagLoop (restoreRaw st.leases kept) v.scan v.flag (fun _ => false) = drop
  have hdrop : ∀ {i : Slot} {s}, kept[i.val]? = some s → drop i = dropObserved kept i.val :=
    fun h => hmarks ▸ flagLoop_restored hv.flag hv.scan hkept h
  have htable : clearedTable (restoreRaw st.leases kept)
      (fun i => v.clear.contains i && drop i) = restore st.leases kept := by
    funext i
    cases h : kept[i.val]? with
    | none =>
      have hout : v.clear.contains i = false := by
        refine Bool.eq_false_iff.mpr fun hi => ?_
        have hlt := (hv.clear i).mp (List.contains_iff_mem.mp hi)
        exact absurd (h.symm.trans (List.getElem?_eq_getElem hlt)) (by simp)
      have hkeep : (v.clear.contains i && drop i) = false := by rw [hout, Bool.false_and]
      rw [clearedTable_kept hkeep, restoreRaw_none h, restore_none h]
    | some s =>
      have hin : v.clear.contains i = true :=
        List.contains_iff_mem.mpr ((hv.clear i).mpr (List.getElem?_eq_some_iff.mp h).1)
      have hmark : (v.clear.contains i && drop i) = dropObserved kept i.val := by
        rw [hin, Bool.true_and, hdrop h]
      rw [restore_some h]
      cases hd : dropObserved kept i.val with
      | true =>
        rw [clearedTable_gone (hmark.trans hd), restoreRaw_some h]
        rfl
      | false => rw [clearedTable_kept (hmark.trans hd), restoreRaw_some h]
  have hany : v.clear.any drop = (List.range kept.length).any (dropObserved kept) := by
    rw [Bool.eq_iff_iff, List.any_eq_true, List.any_eq_true]
    constructor
    · rintro ⟨i, hi, hd⟩
      have hlt := (hv.clear i).mp hi
      rw [hdrop (List.getElem?_eq_getElem hlt)] at hd
      exact ⟨i.val, List.mem_range.mpr hlt, hd⟩
    · rintro ⟨k, hk, hd⟩
      have hlt : k < kept.length := List.mem_range.mp hk
      have hslot : k < maxLeases := Nat.lt_of_lt_of_le hlt hkept
      exact ⟨⟨k, hslot⟩, (hv.clear _).mpr hlt,
        (hdrop (i := ⟨k, hslot⟩) (List.getElem?_eq_getElem hlt)).trans hd⟩
  have hforgot : decide (0 < recs.length - kept.length) = decide (kept.length < recs.length) :=
    decide_eq_decide.mpr Nat.sub_pos_iff_lt
  subst hmarks
  rw [settleDisputes_eq _ v _ _ _ hany htable, hforgot]

end

/-! ## The claim of a boot -/

/-- What a boot makes of the disputes in these records. -/
structure Settled (recs : List StoredLease) (hdr : StoredHdr) (boot : Server) : Prop where
  /-- nobody's observed address is another's, leased or observed -/
  undisputed : ∀ i j, boot.live i → boot.live j → i ≠ j → (boot.leases i).observedIp ≠ 0 →
    (boot.leases j).ip ≠ (boot.leases i).observedIp ∧
      (boot.leases j).observedIp ≠ (boot.leases i).observedIp
  /-- what no other restored record claimed is kept -/
  kept : ∀ (i : Slot) s, (keptRecords (hdr.bootSeq + 1) hdr.version recs)[i.val]? = some s →
    ¬ Disputes (keptRecords (hdr.bootSeq + 1) hdr.version recs) i.val s.observedIp →
    (boot.leases i).observedIp = s.observedIp
  /-- no lease is altered -/
  leased : ∀ (i : Slot) s, (keptRecords (hdr.bootSeq + 1) hdr.version recs)[i.val]? = some s →
    (boot.leases i).ip = s.ip
  /-- the table is dirty if a record was forgotten or an address dropped, and only then -/
  dirty : boot.dirty = true ↔ (∃ s ∈ recs, forgets (hdr.bootSeq + 1) hdr.version s = true) ∨
    ∃ (i : Slot) (s : StoredLease),
      (keptRecords (hdr.bootSeq + 1) hdr.version recs)[i.val]? = some s ∧
      s.observedIp ≠ 0 ∧ (boot.leases i).observedIp = 0

section

variable {hdr : StoredHdr} {recs : List StoredLease} {buf : List UInt8} {now : Nat} {cfg : Config}
  {i : Slot} {s : StoredLease}

theorem parseBlob_length (h : parseBlob buf = some (hdr, recs)) : recs.length ≤ maxLeases := by
  unfold parseBlob at h
  cases hhdr : readHdr buf with
  | none =>
    rw [hhdr] at h
    exact absurd h (by simp)
  | some hdr' =>
    rw [hhdr] at h
    dsimp only at h
    split at h
    · exact absurd h (by simp)
    · rename_i hfits
      cases h
      rw [readRecords, List.length_map, List.length_range]
      exact Nat.not_lt.mp fun hlt => hfits (.inl hlt)

/-- A record is missing from the kept ones exactly if one was forgotten. -/
theorem keptRecords_shorter (seq : BitVec 32) (ver : Nat) (recs : List StoredLease) :
    (keptRecords seq ver recs).length < recs.length ↔
      ∃ s ∈ recs, forgets seq ver s = true := by
  unfold keptRecords
  constructor
  · intro hlt
    by_contra hnone
    have hall : (recs.filter fun s => !forgets seq ver s) = recs := by
      apply List.filter_eq_self.mpr
      intro s hs
      cases hf : forgets seq ver s with
      | false => rfl
      | true => exact absurd ⟨s, hs, hf⟩ hnone
    rw [hall] at hlt
    exact Nat.lt_irrefl _ hlt
  · rintro ⟨s, hs, hf⟩
    apply List.length_filter_lt_length_iff_exists.mpr
    exact ⟨s, hs, by rw [hf]; decide⟩

theorem loadRecords_dirty (st : Server) (hclean : st.dirty = false) :
    (loadRecords st hdr recs now).dirty = true ↔
      (∃ s ∈ recs, forgets (hdr.bootSeq + 1) hdr.version s = true) ∨
        ∃ k < (keptRecords (hdr.bootSeq + 1) hdr.version recs).length,
          dropObserved (keptRecords (hdr.bootSeq + 1) hdr.version recs) k = true := by
  rw [← keptRecords_shorter]
  unfold loadRecords
  dsimp only
  generalize keptRecords (hdr.bootSeq + 1) hdr.version recs = kept
  have hany : (List.range kept.length).any (dropObserved kept) = true ↔
      ∃ k < kept.length, dropObserved kept k = true := by
    rw [List.any_eq_true]
    simp only [List.mem_range]
  split
  · rename_i h
    rw [Bool.or_eq_true, decide_eq_true_eq, hany] at h
    exact iff_of_true (Server.markDirty_dirty _ _) h.symm
  · rename_i h
    rw [Bool.or_eq_true, decide_eq_true_eq, hany] at h
    exact iff_of_false (by rw [hclean]; exact Bool.false_ne_true) fun h' => h h'.symm

theorem loadRecords_settled (cfg : Config) (now : Nat) (hfits : recs.length ≤ maxLeases) :
    Settled recs hdr (loadRecords { coldServer cfg with bootSeq := 1 } hdr recs now) := by
  have hrest := loadRecords_restores cfg now hdr hfits
  generalize hboot : loadRecords { coldServer cfg with bootSeq := 1 } hdr recs now = boot at hrest ⊢
  have hslot : ∀ {i : Slot}, boot.live i →
      ∃ s, (keptRecords (hdr.bootSeq + 1) hdr.version recs)[i.val]? = some s := by
    intro i hi
    cases h : (keptRecords (hdr.bootSeq + 1) hdr.version recs)[i.val]? with
    | none => exact absurd hi (hrest.rest i h)
    | some s => exact ⟨s, rfl⟩
  refine ⟨fun i j hi hj hne h0 => ?_, fun i s hs hno => ?_, fun i s hs => ?_, ?_⟩
  · obtain ⟨s, hs⟩ := hslot hi
    obtain ⟨u, hu⟩ := hslot hj
    obtain ⟨-, -, -, -, hdrop, hkeep⟩ := hrest.slot i s hs
    obtain ⟨-, -, hip, -, hdrop', hkeep'⟩ := hrest.slot j u hu
    -- an observed address that was kept is in no other record
    have hno : ¬ Disputes (keptRecords (hdr.bootSeq + 1) hdr.version recs) i.val s.observedIp :=
      fun hd => h0 (hdrop hd)
    rw [hkeep hno] at h0 ⊢
    have hji : j.val ≠ i.val := fun heq => hne (Fin.ext heq.symm)
    refine ⟨fun heq => hno ⟨h0, j.val, u, hji, hu, .inl (hip ▸ heq)⟩, fun heq => ?_⟩
    by_cases hd : Disputes (keptRecords (hdr.bootSeq + 1) hdr.version recs) j.val u.observedIp
    · exact h0 (heq.symm.trans (hdrop' hd))
    · rw [hkeep' hd] at heq
      exact hno ⟨h0, j.val, u, hji, hu, .inr heq⟩
  · obtain ⟨-, -, -, -, -, hkeep⟩ := hrest.slot i s hs
    exact hkeep hno
  · obtain ⟨-, -, hip, -⟩ := hrest.slot i s hs
    exact hip
  · rw [← hboot, loadRecords_dirty _ rfl, hboot]
    refine or_congr_right ⟨?_, ?_⟩
    · rintro ⟨k, hk, hd⟩
      have hslot' : k < maxLeases := Nat.lt_of_lt_of_le hk hrest.fits
      have hs := List.getElem?_eq_getElem hk
      have hdis := (dropObserved_iff hs).mp hd
      obtain ⟨-, -, -, -, hdrop, -⟩ := hrest.slot ⟨k, hslot'⟩ _ hs
      exact ⟨⟨k, hslot'⟩, _, hs, hdis.1, hdrop hdis⟩
    · rintro ⟨i, s, hs, h0, hgone⟩
      obtain ⟨-, -, -, -, -, hkeep⟩ := hrest.slot i s hs
      refine ⟨i.val, (List.getElem?_eq_some_iff.mp hs).1, (dropObserved_iff hs).mpr ?_⟩
      by_contra hno
      exact h0 ((hkeep hno).symm.trans hgone)

end

/-- **No disputed address is inherited.** Of a blob this build understands, in whatever order
    the loops visit what they restored. -/
theorem load_settles_disputes (cfg : Config) (buf : List UInt8) (hdr : StoredHdr)
    (recs : List StoredLease) (now : Nat) (h : parseBlob buf = some (hdr, recs)) :
    Settled recs hdr (loadFromNvs (coldServer cfg) (some buf) now) ∧
      ∀ v : Visits, v.Covers (keptRecords (hdr.bootSeq + 1) hdr.version recs).length →
        loadInOrder v { coldServer cfg with bootSeq := 1 } hdr recs now =
          loadFromNvs (coldServer cfg) (some buf) now := by
  have hload : loadFromNvs (coldServer cfg) (some buf) now =
      loadRecords { coldServer cfg with bootSeq := 1 } hdr recs now := by
    unfold loadFromNvs
    rw [Option.bind_some, h]
  have hfits := parseBlob_length h
  rw [hload]
  exact ⟨loadRecords_settled cfg now hfits, fun v hv => loadInOrder_eq hfits hv⟩

/-- Three clients, of which two remember using the lease of the first. -/
def chainedRecords : List StoredLease :=
  [⟨1, ip4 192 168 5 10, 0, 1⟩, ⟨2, ip4 192 168 5 11, ip4 192 168 5 10, 1⟩,
    ⟨3, 0, ip4 192 168 5 10, 1⟩]

theorem load_settles_disputes_chained :
    Settled chainedRecords ⟨storeMagic, storeVersion, 3, 1⟩
        (loadFromNvs (coldServer shipped) (some (encodeBlob 1 chainedRecords)) 0) ∧
      ∀ v : Visits, v.Covers (keptRecords (1 + 1) storeVersion chainedRecords).length →
        loadInOrder v { coldServer shipped with bootSeq := 1 } ⟨storeMagic, storeVersion, 3, 1⟩
            chainedRecords 0 =
          loadFromNvs (coldServer shipped) (some (encodeBlob 1 chainedRecords)) 0 :=
  load_settles_disputes shipped (encodeBlob 1 chainedRecords) ⟨storeMagic, storeVersion, 3, 1⟩
    chainedRecords 0 (parseBlob_encodeBlob (by decide))

end Dhcp
end Wt32Router
