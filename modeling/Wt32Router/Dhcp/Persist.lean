import Wt32Router.Dhcp.Store

/-!
# Saving the table, and loading it on the next boot

`save_to_nvs_locked` and `load_from_nvs`, over the codec of `Dhcp/Store.lean`. The two
are each other's inverse only in part, and on purpose: what is written is the *leased*
address of every entry and the observed one of every entry not cut off, and what is
restored is expired, not seen, and without any observed address two records dispute.
-/

namespace Wt32Router
namespace Dhcp

/-! ## Saving -/

/-- An entry is written if it is in use and has an address worth writing. -/
def storable (e : Lease) : Bool := e.inUse && !(e.ip == 0 && persistedObservedIp e == 0)

def storedOf (e : Lease) : StoredLease :=
  ⟨e.mac, e.ip, persistedObservedIp e, e.lastSeenSeq⟩

def savedRecords (st : Server) : List StoredLease :=
  (List.finRange maxLeases).filterMap fun i =>
    if storable (st.leases i) then some (storedOf (st.leases i)) else none

/-- The blob the first half of `save_to_nvs_locked` builds. -/
def saveBlob (st : Server) : List UInt8 := encodeBlob st.bootSeq (savedRecords st)

/-- How the three NVS calls of a save turn out. A blob that was set before a commit that
    fails may or may not be what a later read returns, so the failure says which. -/
inductive NvsResult where
  | ok
  | openFailed
  | setFailed
  | commitFailed (kept : Bool)
deriving DecidableEq

/-- Whether the blob handed to NVS is what it holds afterwards. -/
def NvsResult.stored : NvsResult → Bool
  | .ok => true
  | .openFailed => false
  | .setFailed => false
  | .commitFailed kept => kept

/-- The second half of `save_to_nvs_locked`: only now do the saved fields describe flash. -/
def markSaved (st : Server) : Server :=
  { st with
    leases := fun i =>
      let e := st.leases i
      if e.inUse then { e with savedIp := e.ip, savedObservedIp := persistedObservedIp e } else e
    dirty := false }

/-- `save_to_nvs_locked`, with what NVS holds before and after. -/
def saveToNvsLocked (st : Server) (flash : Option (List UInt8)) (nvs : NvsResult) :
    Server × Option (List UInt8) :=
  (if nvs = .ok then markSaved st else st, if nvs.stored then some (saveBlob st) else flash)

/-! ## Loading -/

/-- A record's age in generations; a stamp from the future has age 0. -/
def recordAge (bootSeq : BitVec 32) (s : StoredLease) : Nat :=
  if s.lastSeenSeq < bootSeq then (bootSeq - s.lastSeenSeq).toNat else 0

/-- A record is forgotten when its client has missed more than `FORGET_AFTER_BOOTS`
    generations. Versions 1 and 2 have no generation, and forget nothing. -/
def forgets (bootSeq : BitVec 32) (version : Nat) (s : StoredLease) : Bool :=
  decide (3 ≤ version) && decide (forgetAfterBoots < recordAge bootSeq s)

/-- The records that are restored, in the order they take up slots. -/
def keptRecords (bootSeq : BitVec 32) (version : Nat) (recs : List StoredLease) :
    List StoredLease :=
  recs.filter fun s => !forgets bootSeq version s

/-- `drop_observed[i]`: another restored record claims the address this one was using,
    decided from the values as they were read. -/
def dropObserved (recs : List StoredLease) (i : Nat) : Bool :=
  match recs[i]? with
  | none => false
  | some s => s.observedIp != 0 && (List.range recs.length).any fun j => j != i &&
      match recs[j]? with
      | none => false
      | some t => t.ip == s.observedIp || t.observedIp == s.observedIp

def restoredLease (e : Lease) (s : StoredLease) (drop : Bool) : Lease :=
  { e with
    inUse := true, mac := s.mac, ip := s.ip, observedIp := if drop then 0 else s.observedIp,
    savedIp := s.ip, savedObservedIp := s.observedIp, expiresUs := 0,
    lastSeenSeq := s.lastSeenSeq, lastSeenUs := 0 }

/-- The first slots restored from the records, the others as they were. -/
def restore (t : Slot → Lease) (recs : List StoredLease) : Slot → Lease := fun i =>
  match recs[i.val]? with
  | some s => restoredLease (t i) s (dropObserved recs i.val)
  | none => t i

/-- `load_from_nvs` once it has a blob this build understands: the generation one past what
    was written, the table restored, and marked dirty if flash holds more than was kept. -/
def loadRecords (st : Server) (hdr : StoredHdr) (recs : List StoredLease) (now : Nat) : Server :=
  let kept := keptRecords (hdr.bootSeq + 1) hdr.version recs
  let st := { st with
    bootSeq := hdr.bootSeq + 1, leases := restore st.leases kept, restoredCount := kept.length }
  if (List.range kept.length).any (dropObserved kept) || decide (kept.length < recs.length) then
    st.markDirty now
  else st

/-- `load_from_nvs`. `flash` is `none` where NVS has nothing to give. -/
def loadFromNvs (st : Server) (flash : Option (List UInt8)) (now : Nat) : Server :=
  let st := { st with bootSeq := 1 }
  match flash.bind parseBlob with
  | none => st
  | some (hdr, recs) => loadRecords st hdr recs now

/-- The records flash holds, as far as a load can read them. -/
def flashRecords (flash : Option (List UInt8)) : List StoredLease :=
  match flash.bind parseBlob with
  | some (_, recs) => recs
  | none => []

/-- The statics as the program starts, before `load_from_nvs`. -/
def coldServer (cfg : Config) : Server where
  cfg := cfg
  leases := fun _ => {}
  declined := []
  bootSeq := 0
  dirty := false
  dirtySinceUs := 0
  restoredCount := 0

def bootServer (cfg : Config) (flash : Option (List UInt8)) (now : Nat) : Server :=
  loadFromNvs (coldServer cfg) flash now

/-! ## What a save leaves alone -/

section

variable {st : Server} {flash : Option (List UInt8)} {nvs : NvsResult} {i : Slot}
  {s : StoredLease} {recs : List StoredLease}

@[simp] theorem markSaved_cfg : (markSaved st).cfg = st.cfg := rfl

@[simp] theorem markSaved_declined : (markSaved st).declined = st.declined := rfl

@[simp] theorem markSaved_bootSeq : (markSaved st).bootSeq = st.bootSeq := rfl

theorem markSaved_live (hi : st.live i) : (markSaved st).leases i =
    { st.leases i with
      savedIp := (st.leases i).ip, savedObservedIp := persistedObservedIp (st.leases i) } := by
  unfold markSaved
  exact if_pos hi

theorem markSaved_fields (st : Server) (i : Slot) :
    ((markSaved st).leases i).inUse = (st.leases i).inUse ∧
      ((markSaved st).leases i).mac = (st.leases i).mac ∧
      ((markSaved st).leases i).ip = (st.leases i).ip ∧
      ((markSaved st).leases i).observedIp = (st.leases i).observedIp ∧
      ((markSaved st).leases i).expiresUs = (st.leases i).expiresUs ∧
      ((markSaved st).leases i).lastSeenSeq = (st.leases i).lastSeenSeq ∧
      ((markSaved st).leases i).quarantined = (st.leases i).quarantined := by
  unfold markSaved
  dsimp only
  split <;> exact ⟨rfl, rfl, rfl, rfl, rfl, rfl, rfl⟩

/-! ## The records of a table -/

theorem mem_savedRecords : s ∈ savedRecords st ↔
    ∃ i, storable (st.leases i) = true ∧ storedOf (st.leases i) = s := by
  unfold savedRecords
  rw [List.mem_filterMap]
  constructor
  · rintro ⟨i, -, hi⟩
    split at hi
    · rename_i hs
      exact ⟨i, hs, by simpa using hi⟩
    · exact absurd hi (by simp)
  · rintro ⟨i, hs, rfl⟩
    exact ⟨i, List.mem_finRange i, by rw [if_pos hs]⟩

theorem storable_iff {e : Lease} : storable e = true ↔
    e.inUse = true ∧ (e.ip ≠ 0 ∨ persistedObservedIp e ≠ 0) := by
  simp [storable]

theorem savedRecords_length : (savedRecords st).length ≤ maxLeases := by
  refine le_trans (List.length_filterMap_le _ _) ?_
  rw [List.length_finRange]

/-! ## Records an earlier run can have written -/

/-- Two records of one blob: different clients, and not the same leased address. -/
def Distinct (a b : StoredLease) : Prop := a.mac ≠ b.mac ∧ (a.ip ≠ 0 → a.ip ≠ b.ip)

/-- What is true of the records of any blob this program has written. -/
structure RecordsOk (recs : List StoredLease) : Prop where
  length_le : recs.length ≤ maxLeases
  distinct : recs.Pairwise Distinct
  worth : ∀ s ∈ recs, s.ip ≠ 0 ∨ s.observedIp ≠ 0

/-- What is true of flash in any run that starts with none: it holds nothing, or a blob
    `save_to_nvs_locked` wrote. -/
def FlashOk (flash : Option (List UInt8)) : Prop :=
  ∀ buf, flash = some buf → ∃ seq recs, buf = encodeBlob seq recs ∧ RecordsOk recs

theorem savedRecords_ok (hm : MacUnique st.leases) (hip : IpUnique st.leases) :
    RecordsOk (savedRecords st) where
  length_le := savedRecords_length
  distinct := by
    unfold savedRecords
    refine List.pairwise_filterMap.mpr ((List.nodup_finRange maxLeases).imp ?_)
    intro i j hij a ha b hb
    split at ha
    · rename_i hsi
      split at hb
      · rename_i hsj
        simp only [Option.some.injEq] at ha hb
        subst ha hb
        have hli := (storable_iff.mp hsi).1
        have hlj := (storable_iff.mp hsj).1
        refine ⟨fun h => hij (hm i j hli hlj h), fun h0 h => ?_⟩
        have h : (st.leases i).ip = (st.leases j).ip := h
        exact hij (hip i j ⟨hli, h0⟩ ⟨hlj, h ▸ h0⟩ h)
      · exact absurd hb (by simp)
    · exact absurd ha (by simp)
  worth := by
    intro s hs
    obtain ⟨i, hi, rfl⟩ := mem_savedRecords.mp hs
    exact (storable_iff.mp hi).2

theorem RecordsOk.kept {seq : BitVec 32} {v : Nat} (h : RecordsOk recs) :
    RecordsOk (keptRecords seq v recs) where
  length_le := le_trans (List.length_filter_le _ _) h.length_le
  distinct := h.distinct.filter _
  worth s hs := h.worth s (List.mem_filter.mp hs).1

/-- Two positions of one blob hold distinct records, in either order. -/
theorem RecordsOk.distinct_at (h : RecordsOk recs) {i j : Nat} {a b : StoredLease}
    (hi : recs[i]? = some a) (hj : recs[j]? = some b) (hij : i ≠ j) :
    a.mac ≠ b.mac ∧ (a.ip ≠ 0 → a.ip ≠ b.ip) := by
  obtain ⟨hil, rfl⟩ := List.getElem?_eq_some_iff.mp hi
  obtain ⟨hjl, rfl⟩ := List.getElem?_eq_some_iff.mp hj
  rcases Nat.lt_or_gt_of_ne hij with hlt | hgt
  · exact List.pairwise_iff_getElem.mp h.distinct i j hil hjl hlt
  · have hd := List.pairwise_iff_getElem.mp h.distinct j i hjl hil hgt
    exact ⟨hd.1.symm, fun h0 heq => hd.2 (heq ▸ h0) heq.symm⟩

/-! ## The table a boot starts with -/

variable {cfg : Config} {now : Nat}

theorem restore_some {t : Slot → Lease} (h : recs[i.val]? = some s) :
    restore t recs i = restoredLease (t i) s (dropObserved recs i.val) := by
  unfold restore
  rw [h]

theorem restore_none {t : Slot → Lease} (h : recs[i.val]? = none) : restore t recs i = t i := by
  unfold restore
  rw [h]

section

variable {hdr : StoredHdr}

@[simp] theorem loadRecords_cfg : (loadRecords st hdr recs now).cfg = st.cfg := by
  unfold loadRecords; dsimp only; split <;> simp

@[simp] theorem loadRecords_declined : (loadRecords st hdr recs now).declined = st.declined := by
  unfold loadRecords; dsimp only; split <;> simp

@[simp] theorem loadRecords_bootSeq :
    (loadRecords st hdr recs now).bootSeq = hdr.bootSeq + 1 := by
  unfold loadRecords; dsimp only; split <;> simp

@[simp] theorem loadRecords_leases : (loadRecords st hdr recs now).leases =
    restore st.leases (keptRecords (hdr.bootSeq + 1) hdr.version recs) := by
  unfold loadRecords; dsimp only; split <;> simp

/-- A load leaves the table clean only if it kept every record and every address. -/
theorem loadRecords_clean (h : (loadRecords st hdr recs now).dirty = false) :
    keptRecords (hdr.bootSeq + 1) hdr.version recs = recs ∧
      ∀ j, j < recs.length → dropObserved recs j = false := by
  unfold loadRecords at h
  dsimp only at h
  split at h
  · simp at h
  · rename_i hc
    simp only [Bool.or_eq_true, decide_eq_true_eq, not_or, Nat.not_lt, Bool.not_eq_true] at hc
    obtain ⟨hany, hlen⟩ := hc
    have hall : keptRecords (hdr.bootSeq + 1) hdr.version recs = recs :=
      (List.filter_sublist).eq_of_length_le hlen
    rw [hall] at hany
    refine ⟨hall, fun j hj => ?_⟩
    simpa using List.any_eq_false.mp hany j (List.mem_range.mpr hj)

end

theorem bootServer_none (hp : flash.bind parseBlob = none) :
    bootServer cfg flash now = { coldServer cfg with bootSeq := 1 } := by
  unfold bootServer loadFromNvs
  rw [hp]

theorem bootServer_some {hdr : StoredHdr} (hp : flash.bind parseBlob = some (hdr, recs)) :
    bootServer cfg flash now = loadRecords { coldServer cfg with bootSeq := 1 } hdr recs now := by
  unfold bootServer loadFromNvs
  rw [hp]

/-- A slot of the restored table: the record of the same index, or an unused slot. -/
theorem bootServer_slot (cfg : Config) (flash : Option (List UInt8)) (now : Nat) (i : Slot) :
    ((bootServer cfg flash now).leases i = {}) ∨
      ∃ hdr recs s, flash.bind parseBlob = some (hdr, recs) ∧
        (keptRecords (hdr.bootSeq + 1) hdr.version recs)[i.val]? = some s ∧
        (bootServer cfg flash now).leases i = restoredLease {} s
          (dropObserved (keptRecords (hdr.bootSeq + 1) hdr.version recs) i.val) := by
  cases hp : flash.bind parseBlob with
  | none => rw [bootServer_none hp]; exact .inl rfl
  | some p =>
    obtain ⟨hdr, recs⟩ := p
    rw [bootServer_some hp, loadRecords_leases]
    cases hk : (keptRecords (hdr.bootSeq + 1) hdr.version recs)[i.val]? with
    | none => exact .inl (restore_none hk)
    | some s => exact .inr ⟨hdr, recs, s, rfl, hk, restore_some hk⟩

theorem bootServer_live (hi : (bootServer cfg flash now).live i) :
    ∃ hdr recs s, flash.bind parseBlob = some (hdr, recs) ∧
      (keptRecords (hdr.bootSeq + 1) hdr.version recs)[i.val]? = some s ∧ s ∈ recs ∧
      (bootServer cfg flash now).leases i = restoredLease {} s
        (dropObserved (keptRecords (hdr.bootSeq + 1) hdr.version recs) i.val) := by
  rcases bootServer_slot cfg flash now i with h0 | ⟨hdr, recs, s, hp, hs, hl⟩
  · rw [Server.live, h0] at hi
    exact absurd hi (by simp)
  · exact ⟨hdr, recs, s, hp, hs, (List.mem_filter.mp (List.mem_of_getElem? hs)).1, hl⟩

@[simp] theorem bootServer_cfg (flash : Option (List UInt8)) :
    (bootServer cfg flash now).cfg = cfg := by
  cases hp : flash.bind parseBlob with
  | none => rw [bootServer_none hp]; rfl
  | some p => rw [bootServer_some hp, loadRecords_cfg]; rfl

@[simp] theorem bootServer_declined (flash : Option (List UInt8)) :
    (bootServer cfg flash now).declined = [] := by
  cases hp : flash.bind parseBlob with
  | none => rw [bootServer_none hp]; rfl
  | some p => rw [bootServer_some hp, loadRecords_declined]; rfl

theorem FlashOk.parse (h : FlashOk flash) {hdr : StoredHdr}
    (hp : flash.bind parseBlob = some (hdr, recs)) :
    flash = some (encodeBlob hdr.bootSeq recs) ∧ hdr.version = 3 ∧ RecordsOk recs := by
  obtain ⟨buf, hbuf, hparse⟩ := Option.bind_eq_some_iff.mp hp
  obtain ⟨seq, recs', hcode, hok⟩ := h buf hbuf
  rw [hcode, parseBlob_encodeBlob hok.length_le] at hparse
  simp only [Option.some.injEq, Prod.mk.injEq] at hparse
  obtain ⟨rfl, rfl⟩ := hparse
  exact ⟨by rw [hbuf, hcode], rfl, hok⟩

theorem flashRecords_some {hdr : StoredHdr} (hp : flash.bind parseBlob = some (hdr, recs)) :
    flashRecords flash = recs := by
  unfold flashRecords
  rw [hp]

theorem parseBlob_saveBlob (st : Server) : parseBlob (saveBlob st) =
    some (⟨storeMagic, storeVersion, (savedRecords st).length, st.bootSeq⟩, savedRecords st) :=
  parseBlob_encodeBlob savedRecords_length

/-- What a save wrote is read back as records of the live slots, under its generation. -/
theorem parseBlob_saveBlob_mem {hdr : StoredHdr} (hp : parseBlob (saveBlob st) = some (hdr, recs))
    (hs : s ∈ recs) : hdr.bootSeq = st.bootSeq ∧ ∃ i, st.live i ∧ storedOf (st.leases i) = s := by
  rw [parseBlob_saveBlob, Option.some.injEq, Prod.mk.injEq] at hp
  obtain ⟨rfl, rfl⟩ := hp
  obtain ⟨i, hi, rfl⟩ := mem_savedRecords.mp hs
  exact ⟨rfl, i, (storable_iff.mp hi).1, rfl⟩

theorem bootServer_saveBlob (cfg : Config) (st : Server) (now : Nat) :
    bootServer cfg (some (saveBlob st)) now = loadRecords { coldServer cfg with bootSeq := 1 }
      ⟨storeMagic, storeVersion, (savedRecords st).length, st.bootSeq⟩ (savedRecords st) now :=
  bootServer_some (parseBlob_saveBlob st)

@[simp] theorem flashRecords_saveBlob : flashRecords (some (saveBlob st)) = savedRecords st :=
  flashRecords_some (parseBlob_saveBlob st)

theorem FlashOk.records (h : FlashOk flash) : RecordsOk (flashRecords flash) := by
  cases hp : flash.bind parseBlob with
  | none =>
    unfold flashRecords
    rw [hp]
    exact ⟨Nat.zero_le _, .nil, fun _ hs => absurd hs (by simp)⟩
  | some p =>
    obtain ⟨hdr, recs⟩ := p
    rw [flashRecords_some hp]
    exact (h.parse hp).2.2

theorem bootServer_unique (h : FlashOk flash) :
    MacUnique (bootServer cfg flash now).leases ∧ IpUnique (bootServer cfg flash now).leases := by
  have key : ∀ i j, (bootServer cfg flash now).live i → (bootServer cfg flash now).live j →
      i ≠ j →
        ((bootServer cfg flash now).leases i).mac ≠ ((bootServer cfg flash now).leases j).mac ∧
        (((bootServer cfg flash now).leases i).ip ≠ 0 →
          ((bootServer cfg flash now).leases i).ip ≠ ((bootServer cfg flash now).leases j).ip) := by
    intro i j hi hj hij
    obtain ⟨hdr, recs, a, hp, ha, -, hi'⟩ := bootServer_live hi
    obtain ⟨hdr', recs', b, hp', hb, -, hj'⟩ := bootServer_live hj
    rw [hp] at hp'
    simp only [Option.some.injEq, Prod.mk.injEq] at hp'
    obtain ⟨rfl, rfl⟩ := hp'
    rw [hi', hj']
    exact (h.parse hp).2.2.kept.distinct_at ha hb (fun hv => hij (Fin.ext hv))
  refine ⟨fun i j hi hj hk => ?_, fun i j hi hj hk => ?_⟩
  · by_contra hij
    exact (key i j hi hj hij).1 hk
  · by_contra hij
    exact (key i j hi.1 hj.1 hij).2 hi.2 hk

theorem bootServer_expired (flash : Option (List UInt8)) (i : Slot) :
    ((bootServer cfg flash now).leases i).expiresUs = 0 ∧
      ((bootServer cfg flash now).leases i).quarantined = false := by
  rcases bootServer_slot cfg flash now i with h0 | ⟨_, _, _, _, _, hi⟩
  · rw [h0]; exact ⟨rfl, rfl⟩
  · rw [hi]; exact ⟨rfl, rfl⟩

end

end Dhcp
end Wt32Router
