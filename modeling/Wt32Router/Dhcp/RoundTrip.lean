import Wt32Router.Dhcp.Persist

/-!
# What comes back from flash

> **`bootServer_restores`**: a boot from the blob a table was saved as has that table's
> entries, in order, and one from a blob of an earlier revision has that blob's records.

The exceptions are part of the design: an entry whose client has missed too many boots is
forgotten (`survivors`), and an observed address comes back only if no other restored entry
claims it (`Disputes`). An earlier revision kept no generations, so nothing in its blob can
be too old.
-/

namespace Wt32Router
namespace Dhcp

/-! ## What is to come back -/

/-- The entries of a table that the next boot still knows: with an address worth writing, and
    heard from in one of the last generations before it. -/
def survivors (st : Server) : List Slot :=
  (List.finRange maxLeases).filter fun i =>
    decide ((st.leases i).inUse = true ∧
      ((st.leases i).ip ≠ 0 ∨ persistedObservedIp (st.leases i) ≠ 0) ∧
      st.bootSeq.toNat + 1 ≤ (st.leases i).lastSeenSeq.toNat + forgetAfterBoots)

/-- Some record other than the `k`-th claims this address, by lease or by use. -/
def Disputes (recs : List StoredLease) (k : Nat) (a : Ip) : Prop :=
  a ≠ 0 ∧ ∃ j t, j ≠ k ∧ recs[j]? = some t ∧ (t.ip = a ∨ t.observedIp = a)

/-- The server a boot starts with holds these records in its first slots, and nothing else. -/
structure Restores (recs : List StoredLease) (generation : Nat) (boot : Server) : Prop where
  generation : boot.bootSeq.toNat = generation
  fits : recs.length ≤ maxLeases
  slot : ∀ (k : Slot) (s : StoredLease), recs[k.val]? = some s →
    boot.live k ∧ (boot.leases k).mac = s.mac ∧ (boot.leases k).ip = s.ip ∧
      (boot.leases k).lastSeenSeq = s.lastSeenSeq ∧
      (Disputes recs k.val s.observedIp → (boot.leases k).observedIp = 0) ∧
      (¬ Disputes recs k.val s.observedIp → (boot.leases k).observedIp = s.observedIp)
  rest : ∀ k : Slot, recs[k.val]? = none → ¬ boot.live k

section

variable {recs : List StoredLease} {k : Nat} {s : StoredLease} {st : Server} {cfg : Config}
  {now : Nat} {hdr : StoredHdr}

/-- What the double loop of `load_from_nvs` decides. -/
theorem dropObserved_iff (h : recs[k]? = some s) :
    dropObserved recs k = true ↔ Disputes recs k s.observedIp := by
  unfold dropObserved Disputes
  rw [h]
  simp only [Bool.and_eq_true, bne_iff_ne, List.any_eq_true, List.mem_range]
  refine and_congr_right fun _ => ?_
  constructor
  · rintro ⟨j, hj, hjk, hclaim⟩
    rw [List.getElem?_eq_getElem hj] at hclaim
    refine ⟨j, recs[j], hjk, List.getElem?_eq_getElem hj, ?_⟩
    simpa using hclaim
  · rintro ⟨j, t, hjk, hj, hclaim⟩
    refine ⟨j, (List.getElem?_eq_some_iff.mp hj).1, hjk, ?_⟩
    rw [hj]
    simpa using hclaim

/-- A load that forgets nothing it should keep restores the records it keeps. -/
theorem loadRecords_restores (cfg : Config) (now : Nat) (hdr : StoredHdr)
    (hfits : recs.length ≤ maxLeases) :
    Restores (keptRecords (hdr.bootSeq + 1) hdr.version recs) (hdr.bootSeq + 1).toNat
      (loadRecords { coldServer cfg with bootSeq := 1 } hdr recs now) where
  generation := by rw [loadRecords_bootSeq]
  fits := le_trans (List.length_filter_le _ _) hfits
  slot k s hk := by
    rw [Server.live, loadRecords_leases, restore_some hk]
    refine ⟨rfl, rfl, rfl, rfl, fun hd => ?_, fun hd => ?_⟩
    · dsimp only [restoredLease]
      rw [if_pos ((dropObserved_iff hk).mpr hd)]
    · dsimp only [restoredLease]
      rw [if_neg (fun h => hd ((dropObserved_iff hk).mp h))]
  rest k hk := by
    rw [Server.live, loadRecords_leases, restore_none hk]
    exact Bool.false_ne_true

/-! ## This version's blob -/

theorem savedRecords_eq (st : Server) :
    savedRecords st =
      ((List.finRange maxLeases).filter fun i => storable (st.leases i)).map
        fun i => storedOf (st.leases i) := by
  unfold savedRecords
  rw [← List.filterMap_eq_map', ← List.filterMap_eq_filter, List.filterMap_filterMap]
  refine List.filterMap_congr fun i _ => ?_
  by_cases hi : storable (st.leases i) = true
  · simp [hi, Option.guard]
  · simp [hi, Option.guard]

/-- Forgetting, with generations as numbers. -/
theorem forgets_iff {seq : BitVec 32} (hseq : seq.toNat + 1 < 2 ^ 32) :
    forgets (seq + 1) storeVersion s = false ↔
      seq.toNat + 1 ≤ s.lastSeenSeq.toNat + forgetAfterBoots := by
  have hnext : (seq + 1).toNat = seq.toNat + 1 := Lib.toNat_succ hseq
  unfold forgets recordAge
  rw [show decide (3 ≤ storeVersion) = true from rfl, Bool.true_and, decide_eq_false_iff_not,
    Nat.not_lt]
  split
  · rename_i hlt
    rw [BitVec.toNat_sub_of_le (BitVec.le_of_lt hlt), hnext]
    omega
  · rename_i hge
    have hle : seq.toNat + 1 ≤ s.lastSeenSeq.toNat := by
      rw [BitVec.lt_def, hnext] at hge
      exact Nat.not_lt.mp hge
    exact iff_of_true (Nat.zero_le _) (Nat.le_add_right_of_le hle)

theorem keptRecords_savedRecords (hseq : st.bootSeq.toNat + 1 < 2 ^ 32) :
    keptRecords (st.bootSeq + 1) storeVersion (savedRecords st) =
      (survivors st).map fun i => storedOf (st.leases i) := by
  unfold keptRecords survivors
  rw [savedRecords_eq, List.filter_map, List.filter_filter]
  congr 1
  refine List.filter_congr fun i _ => ?_
  rw [Bool.eq_iff_iff, decide_eq_true_eq, Bool.and_eq_true, storable_iff, Function.comp_apply,
    Bool.not_eq_true', forgets_iff hseq]
  exact ⟨fun ⟨hage, huse, hip⟩ => ⟨huse, hip, hage⟩, fun ⟨huse, hip, hage⟩ => ⟨hage, huse, hip⟩⟩

theorem bootServer_saveBlob_restores (hseq : st.bootSeq.toNat + 1 < 2 ^ 32) :
    Restores ((survivors st).map fun i => storedOf (st.leases i)) (st.bootSeq.toNat + 1)
      (bootServer cfg (some (saveBlob st)) now) := by
  have hfits : (savedRecords st).length ≤ maxLeases := savedRecords_length
  have hrestores := loadRecords_restores cfg now
    ⟨storeMagic, storeVersion, (savedRecords st).length, st.bootSeq⟩ hfits
  have hnext : (st.bootSeq + 1).toNat = st.bootSeq.toNat + 1 := Lib.toNat_succ hseq
  rw [keptRecords_savedRecords hseq, hnext] at hrestores
  rw [bootServer_saveBlob]
  exact hrestores

/-! ## The blobs of earlier revisions -/

/-- `stored_lease_v1_t` and `stored_lease_v2_t`. -/
def oldRecord (ver : Nat) (s : StoredLease) : List UInt8 :=
  Lib.beBytes 6 s.mac.toNat ++ Lib.beBytes 4 s.ip.toNat ++
    if ver = 1 then [] else Lib.beBytes 4 s.observedIp.toNat

/-- The blob of an earlier revision: its header has no generation. -/
def oldBlob (ver : Nat) (recs : List StoredLease) : List UInt8 :=
  Lib.leBytes 4 storeMagic ++ Lib.leBytes 2 ver ++ Lib.leBytes 2 recs.length ++
    recs.flatMap (oldRecord ver)

/-- A record as that revision had it: what it lacks is 0. -/
def StoredLease.asOf (ver : Nat) (s : StoredLease) : StoredLease :=
  { s with observedIp := if ver = 1 then 0 else s.observedIp, lastSeenSeq := 0 }

section

variable {ver : Nat} {recs : List StoredLease} {rest : List UInt8} {cfg : Config} {now : Nat}

theorem oldRecord_length (hver : ver = 1 ∨ ver = 2) (s : StoredLease) :
    (oldRecord ver s).length = storedRecLen ver := by
  rcases hver with rfl | rfl <;> simp [oldRecord, storedRecLen]

/-- Reading past the end of a record reads zeros. -/
theorem ofBytes_oldRecord (hver : ver = 1 ∨ ver = 2) (s : StoredLease) :
    StoredLease.ofBytes (oldRecord ver s) = s.asOf ver := by
  have hmac : Lib.beNat 6 (oldRecord ver s) = s.mac.toNat % 256 ^ 6 := by
    rw [oldRecord, List.append_assoc]
    exact Lib.beNat_beBytes 6 _ _
  have h6 : (oldRecord ver s).drop 6 = Lib.beBytes 4 s.ip.toNat ++
      if ver = 1 then [] else Lib.beBytes 4 s.observedIp.toNat := by
    rw [oldRecord, List.append_assoc]
    exact Lib.drop_beBytes 6 _ _
  have h10 : (oldRecord ver s).drop 10 =
      if ver = 1 then [] else Lib.beBytes 4 s.observedIp.toNat := by
    rw [show (10 : Nat) = 6 + 4 from rfl, ← List.drop_drop, h6]
    exact Lib.drop_beBytes 4 _ _
  have hobs : BitVec.ofNat 32 (Lib.beNat 4 ((oldRecord ver s).drop 10)) =
      if ver = 1 then 0 else s.observedIp := by
    rw [h10]
    split
    · rfl
    · have h := Lib.beNat_beBytes 4 s.observedIp.toNat []
      rw [List.append_nil] at h
      rw [h, Lib.ofNat_toNat_mod _ _ (by norm_num)]
  have h14 : (oldRecord ver s).drop 14 = [] :=
    List.drop_eq_nil_of_le (by rcases hver with rfl | rfl <;> simp [oldRecord])
  unfold StoredLease.ofBytes StoredLease.asOf
  rw [hmac, h6, hobs, h14, Lib.beNat_beBytes, Lib.ofNat_toNat_mod _ _ (by norm_num),
    Lib.ofNat_toNat_mod _ _ (by norm_num)]
  rfl

theorem oldBlob_length (hver : ver = 1 ∨ ver = 2) :
    (oldBlob ver recs).length = 8 + recs.length * storedRecLen ver := by
  unfold oldBlob
  rw [List.length_append, Lib.flatMap_length (oldRecord_length hver)]
  simp

theorem storedHdrLen_old (hver : ver = 1 ∨ ver = 2) : storedHdrLen ver = 8 := by
  rcases hver with rfl | rfl <;> rfl

/-- The header of an earlier revision, read at either length. -/
theorem ofBytes_oldBlob (hver : ver = 1 ∨ ver = 2) (hlen : recs.length ≤ maxLeases) :
    StoredHdr.ofBytes ((oldBlob ver recs ++ rest).take 8) = ⟨storeMagic, ver, recs.length, 0⟩ := by
  have hle : recs.length ≤ 32 := hlen
  have hcut : (oldBlob ver recs ++ rest).take 8 =
      (StoredHdr.toBytes ⟨storeMagic, ver, recs.length, 0⟩).take 8 := by
    have h8 : (Lib.leBytes 4 storeMagic ++ Lib.leBytes 2 ver ++
        Lib.leBytes 2 recs.length).length = 8 := by simp
    rw [oldBlob, StoredHdr.toBytes, List.append_assoc _ _ rest, List.take_left' h8,
      List.take_left' h8]
  have hshort : StoredHdr.ofBytes
      ((StoredHdr.toBytes ⟨storeMagic, ver, recs.length, 0⟩ ++ []).take 8) =
        ⟨storeMagic, ver, recs.length, 0⟩ :=
    StoredHdr.ofBytes_short ⟨storeMagic, ver, recs.length, 0⟩ (by norm_num [storeMagic])
      (by rcases hver with rfl | rfl <;> norm_num) (by norm_num; omega)
  rw [List.append_nil] at hshort
  rw [hcut, hshort]

theorem readHdr_oldBlob (hver : ver = 1 ∨ ver = 2) (hlen : recs.length ≤ maxLeases)
    (hmax : (oldBlob ver recs ++ rest).length ≤ blobMax) :
    readHdr (oldBlob ver recs ++ rest) = some ⟨storeMagic, ver, recs.length, 0⟩ := by
  have h8 : 8 ≤ (oldBlob ver recs ++ rest).length := by
    rw [List.length_append, oldBlob_length hver]
    omega
  have hhdr : storedHdrLen 1 = 8 := rfl
  unfold readHdr
  dsimp only
  rw [if_neg (by omega), hhdr, ofBytes_oldBlob hver hlen]
  dsimp only
  rw [if_neg (by rcases hver with rfl | rfl <;> simp [storeVersion]), storedHdrLen_old hver,
    if_neg (Nat.not_lt.mpr h8), ofBytes_oldBlob hver hlen]

theorem readRecords_oldBlob (hver : ver = 1 ∨ ver = 2) :
    readRecords (oldBlob ver recs ++ rest) ⟨storeMagic, ver, recs.length, 0⟩ =
      recs.map (StoredLease.asOf ver) := by
  have hdrop : ∀ n, (oldBlob ver recs ++ rest).drop (8 + n) =
      (recs.flatMap (oldRecord ver) ++ rest).drop n := by
    intro n
    rw [← List.drop_drop, oldBlob, List.append_assoc, List.drop_left' (by simp)]
  unfold readRecords
  dsimp only
  rw [storedHdrLen_old hver]
  apply List.ext_getElem
  · simp
  · intro i hi hi'
    have hir : i < recs.length := by simpa using hi
    simp only [List.getElem_map, List.getElem_range, hdrop]
    rw [← ofBytes_oldRecord hver, List.drop_append_of_le_length,
      Lib.drop_flatMap (oldRecord_length hver), List.drop_eq_getElem_cons hir, List.flatMap_cons,
      List.append_assoc, List.take_left' (oldRecord_length hver _)]
    rw [Lib.flatMap_length (oldRecord_length hver)]
    exact Nat.mul_le_mul_right _ (Nat.le_of_lt hir)

theorem parseBlob_oldBlob (hver : ver = 1 ∨ ver = 2) (hlen : recs.length ≤ maxLeases)
    (hmax : (oldBlob ver recs ++ rest).length ≤ blobMax) :
    parseBlob (oldBlob ver recs ++ rest) =
      some (⟨storeMagic, ver, recs.length, 0⟩, recs.map (StoredLease.asOf ver)) := by
  unfold parseBlob
  rw [readHdr_oldBlob hver hlen hmax]
  dsimp only
  rw [storedHdrLen_old hver, readRecords_oldBlob hver, if_neg]
  rw [List.length_append, oldBlob_length hver]
  have hle : ¬ maxLeases < recs.length := Nat.not_lt.mpr hlen
  omega

/-- Nothing is forgotten where no generation is known. -/
theorem keptRecords_old (hver : ver = 1 ∨ ver = 2) (seq : BitVec 32) (recs : List StoredLease) :
    keptRecords seq ver recs = recs := by
  unfold keptRecords forgets
  rcases hver with rfl | rfl <;> simp

theorem bootServer_oldBlob (hver : ver = 1 ∨ ver = 2) (hlen : recs.length ≤ maxLeases)
    (hmax : (oldBlob ver recs ++ rest).length ≤ blobMax) :
    Restores (recs.map (StoredLease.asOf ver)) 1
      (bootServer cfg (some (oldBlob ver recs ++ rest)) now) := by
  have hparse : (some (oldBlob ver recs ++ rest)).bind parseBlob =
      some (⟨storeMagic, ver, recs.length, 0⟩, recs.map (StoredLease.asOf ver)) :=
    parseBlob_oldBlob hver hlen hmax
  have hfits : (recs.map (StoredLease.asOf ver)).length ≤ maxLeases := by
    rw [List.length_map]
    exact hlen
  have hrestores := loadRecords_restores cfg now ⟨storeMagic, ver, recs.length, 0⟩ hfits
  rw [keptRecords_old hver] at hrestores
  rw [bootServer_some hparse]
  exact hrestores

end

/-- **A table comes back as it was saved, and an older blob as it was written.** -/
theorem bootServer_restores (cfg : Config) (now : Nat) :
    (∀ st : Server, st.bootSeq.toNat + 1 < 2 ^ 32 →
      Restores ((survivors st).map fun i => storedOf (st.leases i)) (st.bootSeq.toNat + 1)
        (bootServer cfg (some (saveBlob st)) now)) ∧
    ∀ (ver : Nat) (recs : List StoredLease) (rest : List UInt8), ver = 1 ∨ ver = 2 →
      recs.length ≤ maxLeases → (oldBlob ver recs ++ rest).length ≤ blobMax →
      Restores (recs.map (StoredLease.asOf ver)) 1
        (bootServer cfg (some (oldBlob ver recs ++ rest)) now) :=
  ⟨fun _ hseq => bootServer_saveBlob_restores hseq,
    fun _ _ _ hver hlen hmax => bootServer_oldBlob hver hlen hmax⟩

end

end Dhcp
end Wt32Router
