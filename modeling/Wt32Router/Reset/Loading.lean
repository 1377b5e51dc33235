import Mathlib.Data.List.OfFn
import Wt32Router.Lib.Checked
import Wt32Router.Reset.Record
import Wt32Router.Dhcp.Loading

/-!
# Loading the reset history, access by access

The other `load_from_nvs`. A version-1 record is eight bytes shorter than the layout this build
has, and "reading a version-1 blob through the version-2 struct would walk off the end of the
last record": so each turn copies the part both versions have, and the longer record only where
one was written.

> **`loads_whole_or_not_at_all`**: neither loader leaves its buffer or its table, and neither
> restores part of what does not fit.
-/

namespace Wt32Router
namespace Reset

open Lib

/-- `s_ring`, `s_count` and `s_next_seq`. -/
structure RingState where
  ring : Fin maxRecords → Entry
  count : Nat
  nextSeq : BitVec 32

/-- What a turn takes from the part of a record that both versions have. -/
def Entry.readV1 (e : Entry) (bs : List UInt8) : Entry :=
  { e with
    bootSeq := BitVec.ofNat 32 (leNat 4 bs)
    prevUptimeS := BitVec.ofNat 32 (leNat 4 (bs.drop 4))
    reason := (bs.drop 8).headD 0
    intent := (bs.drop 9).headD 0
    flags := (bs.drop 10).headD 0
    version := Text.ofBytes (bs.drop 12)
    part := Text.ofBytes (bs.drop 36)
    bootEpoch := 0 }

/-- One turn of the loop. -/
def readTurn (buf : List UInt8) (ver : Nat) (ring : Fin maxRecords → Entry) (i : Nat) :
    Option (Fin maxRecords → Entry) :=
  let pos := storedHdrLen + i * storedRecLen ver
  (copyIn buf pos (storedRecLen 1)).bind fun s =>
    (writeAt ring i fun e => e.readV1 s).bind fun ring =>
      if 2 ≤ ver then
        (copyIn buf pos (storedRecLen storeVersion)).bind fun s2 =>
          writeAt ring i fun e => { e with bootEpoch := BitVec.ofNat 64 (leNat 8 (s2.drop 44)) }
      else writeAt ring i fun e => { e with flags := e.flags &&& ~~~fBootTime }

/-- `load_from_nvs`, given the bytes `nvs_get_blob` returned. -/
def loadChecked (st : RingState) (buf : List UInt8) : Option RingState :=
  if buf.length < storedHdrLen then some st
  else (copyIn buf 0 storedHdrLen).bind fun hdr =>
    let magic := leNat 4 hdr
    let ver := leNat 2 (hdr.drop 4)
    let count := leNat 2 (hdr.drop 6)
    let nextSeq := BitVec.ofNat 32 (leNat 4 (hdr.drop 8))
    if magic ≠ storeMagic ∨ ver < 1 ∨ storeVersion < ver then some st
    else if maxRecords < count ∨ buf.length < storedHdrLen + count * storedRecLen ver then some st
    else (forUpTo count (readTurn buf ver) st.ring).map fun ring =>
      ⟨ring, count, if nextSeq ≠ 0 then nextSeq else 1⟩

/-- The magic, the version, the count and the length of a blob fit. -/
structure Fits (buf : List UInt8) : Prop where
  magic : leNat 4 buf = storeMagic
  version : 1 ≤ leNat 2 (buf.drop 4) ∧ leNat 2 (buf.drop 4) ≤ storeVersion
  count : leNat 2 (buf.drop 6) ≤ maxRecords
  length : storedHdrLen + leNat 2 (buf.drop 6) * storedRecLen (leNat 2 (buf.drop 4)) ≤ buf.length

/-- The state is that of `loadFromNvs`, and the rest of the ring is as it was. -/
structure Loaded (st : RingState) (buf : List UInt8) (st' : RingState) : Prop where
  ring : (List.ofFn st'.ring).take st'.count = (loadFromNvs (some buf)).1
  nextSeq : st'.nextSeq = (loadFromNvs (some buf)).2
  rest : ∀ j : Fin maxRecords, st'.count ≤ j.val → st'.ring j = st.ring j

section

variable {st : RingState} {buf bs : List UInt8} {ver n i : Nat} {ring : Fin maxRecords → Entry}
  {e : Entry}

/-! ## A turn -/

theorem readEntry_short (hver : ver < 2) :
    { e.readV1 (bs.take (storedRecLen 1)) with
      flags := (e.readV1 (bs.take (storedRecLen 1))).flags &&& ~~~fBootTime } =
      readEntry ver bs := by
  have hlen : storedRecLen 1 = 44 := rfl
  have hold : ¬ 2 ≤ ver := Nat.not_le.mpr hver
  unfold readEntry Entry.readV1 Text.ofBytes
  rw [if_neg hold, if_neg hold, hlen, leNat_take 4 bs (by decide),
    leNat_drop_take 4 bs (by decide), headD_drop_take bs (by decide),
    headD_drop_take bs (by decide), headD_drop_take bs (by decide)]
  simp only [takeD_drop_take bs (show 12 + 23 ≤ 44 by decide),
    takeD_drop_take bs (show 36 + 7 ≤ 44 by decide)]

theorem readEntry_long (hver : 2 ≤ ver) :
    { e.readV1 (bs.take (storedRecLen 1)) with
      bootEpoch := BitVec.ofNat 64 (leNat 8 ((bs.take (storedRecLen storeVersion)).drop 44)) } =
      readEntry ver bs := by
  have hlen : storedRecLen 1 = 44 := rfl
  have hlen2 : storedRecLen storeVersion = 52 := rfl
  unfold readEntry Entry.readV1 Text.ofBytes
  rw [if_pos hver, if_pos hver, hlen, hlen2, leNat_take 4 bs (by decide),
    leNat_drop_take 4 bs (by decide), leNat_drop_take 8 bs (by decide),
    headD_drop_take bs (by decide), headD_drop_take bs (by decide),
    headD_drop_take bs (by decide)]
  simp only [takeD_drop_take bs (show 12 + 23 ≤ 44 by decide),
    takeD_drop_take bs (show 36 + 7 ≤ 44 by decide)]

/-- A turn reads its record where there is one, and writes one place of the ring. -/
theorem readTurn_spec (hi : i < maxRecords)
    (hin : storedHdrLen + i * storedRecLen ver + storedRecLen ver ≤ buf.length) :
    readTurn buf ver ring i = some (Function.update ring ⟨i, hi⟩
      (readEntry ver (buf.drop (storedHdrLen + i * storedRecLen ver)))) := by
  have hlen : storedRecLen 1 = 44 := rfl
  have hlen2 : storedRecLen storeVersion = 52 := rfl
  unfold readTurn
  dsimp only
  by_cases h2 : 2 ≤ ver
  · have hrec : storedRecLen ver = storedRecLen storeVersion := if_pos h2
    rw [hrec] at hin ⊢
    rw [copyIn_of_le (by omega), Option.bind_some, writeAt_of_lt hi, Option.bind_some, if_pos h2,
      copyIn_of_le hin, Option.bind_some, writeAt_of_lt hi, Function.update_self,
      Function.update_idem, readEntry_long h2]
  · have hrec : storedRecLen ver = storedRecLen 1 := if_neg h2
    rw [hrec] at hin ⊢
    rw [copyIn_of_le hin, Option.bind_some, writeAt_of_lt hi, Option.bind_some, if_neg h2,
      writeAt_of_lt hi, Function.update_self, Function.update_idem,
      readEntry_short (Nat.not_le.mp h2)]

/-- **The whole loop** reads the first places of the ring, and leaves the others. -/
theorem readLoop_spec (ring : Fin maxRecords → Entry) (hn : n ≤ maxRecords)
    (hlen : storedHdrLen + n * storedRecLen ver ≤ buf.length) :
    ∃ ring', forUpTo n (readTurn buf ver) ring = some ring' ∧ ∀ j : Fin maxRecords,
      ring' j = if j.val < n then
        readEntry ver (buf.drop (storedHdrLen + j.val * storedRecLen ver)) else ring j := by
  refine forUpTo_inv (P := fun i (ring' : Fin maxRecords → Entry) => ∀ j, ring' j = if j.val < i then
    readEntry ver (buf.drop (storedHdrLen + j.val * storedRecLen ver)) else ring j) ?_ ?_
  · intro i ring' hi hring
    have hnext : (i + 1) * storedRecLen ver ≤ n * storedRecLen ver := Nat.mul_le_mul_right _ hi
    rw [Nat.succ_mul] at hnext
    have hslot : i < maxRecords := Nat.lt_of_lt_of_le hi hn
    refine ⟨_, readTurn_spec hslot (by omega), fun j => ?_⟩
    by_cases hj : j = ⟨i, hslot⟩
    · subst hj
      rw [Function.update_self, if_pos (Nat.lt_succ_self i)]
    · have hne : j.val ≠ i := fun heq => hj (Fin.ext heq)
      rw [Function.update_of_ne hj, hring j]
      have hiff : j.val < i ↔ j.val < i + 1 := by omega
      simp only [hiff]
  · intro j
    rw [if_neg (Nat.not_lt_zero _)]

/-! ## The loader -/

/-- The header is read the same from its copy. -/
theorem header_take (buf : List UInt8) :
    leNat 4 (buf.take storedHdrLen) = leNat 4 buf ∧
      leNat 2 ((buf.take storedHdrLen).drop 4) = leNat 2 (buf.drop 4) ∧
      leNat 2 ((buf.take storedHdrLen).drop 6) = leNat 2 (buf.drop 6) ∧
      leNat 4 ((buf.take storedHdrLen).drop 8) = leNat 4 (buf.drop 8) :=
  ⟨leNat_take 4 buf (by decide), leNat_drop_take 2 buf (by decide),
    leNat_drop_take 2 buf (by decide), leNat_drop_take 4 buf (by decide)⟩

theorem loadChecked_refuses (h : ¬ Fits buf) : loadChecked st buf = some st := by
  unfold loadChecked
  by_cases hshort : buf.length < storedHdrLen
  · rw [if_pos hshort]
  obtain ⟨hmagic, hver, hcount, -⟩ := header_take buf
  rw [if_neg hshort, copyIn_prefix (Nat.not_lt.mp hshort), Option.bind_some]
  dsimp only
  rw [hmagic, hver, hcount]
  split
  · rfl
  · rename_i hbad
    split
    · rfl
    · rename_i hbad'
      obtain ⟨hm, hv⟩ := not_or.mp hbad
      obtain ⟨hv, hv'⟩ := not_or.mp hv
      obtain ⟨hc, hroom⟩ := not_or.mp hbad'
      exact absurd ⟨not_not.mp hm, ⟨Nat.not_lt.mp hv, Nat.not_lt.mp hv'⟩, Nat.not_lt.mp hc,
        Nat.not_lt.mp hroom⟩ h

theorem Fits.header (h : Fits buf) : ¬ (leNat 4 buf ≠ storeMagic ∨ leNat 2 (buf.drop 4) < 1 ∨
    storeVersion < leNat 2 (buf.drop 4)) := by
  rintro (hmagic | hlow | hhigh)
  · exact hmagic h.magic
  · exact Nat.not_lt.mpr h.version.1 hlow
  · exact Nat.not_lt.mpr h.version.2 hhigh

theorem Fits.sized (h : Fits buf) : ¬ (maxRecords < leNat 2 (buf.drop 6) ∨
    buf.length < storedHdrLen +
      leNat 2 (buf.drop 6) * storedRecLen (leNat 2 (buf.drop 4))) := by
  rintro (hmany | hcut)
  · exact Nat.not_lt.mpr h.count hmany
  · exact Nat.not_lt.mpr h.length hcut

theorem loadFromNvs_fits (hlen : buf.length ≤ storedBlobMax) (h : Fits buf) :
    loadFromNvs (some buf) = ((List.range (leNat 2 (buf.drop 6))).map fun i =>
        readEntry (leNat 2 (buf.drop 4))
          (buf.drop (storedHdrLen + i * storedRecLen (leNat 2 (buf.drop 4)))),
      if BitVec.ofNat 32 (leNat 4 (buf.drop 8)) ≠ 0 then BitVec.ofNat 32 (leNat 4 (buf.drop 8))
      else 1) := by
  have hshort : storedHdrLen ≤ buf.length := le_trans (Nat.le_add_right _ _) h.length
  unfold loadFromNvs
  dsimp only
  rw [if_neg (not_or.mpr ⟨Nat.not_lt.mpr hlen, Nat.not_lt.mpr hshort⟩), if_neg h.header,
    if_neg h.sized]

theorem loadChecked_loads (hlen : buf.length ≤ storedBlobMax) (h : Fits buf) :
    ∃ st', loadChecked st buf = some st' ∧ Loaded st buf st' ∧ st'.count ≤ maxRecords := by
  obtain ⟨hmagic, hver, hcount, hnext⟩ := header_take buf
  obtain ⟨ring', hrun, hring⟩ := readLoop_spec st.ring h.count h.length
  have hshort : storedHdrLen ≤ buf.length := le_trans (Nat.le_add_right _ _) h.length
  refine ⟨⟨ring', leNat 2 (buf.drop 6), if BitVec.ofNat 32 (leNat 4 (buf.drop 8)) ≠ 0 then
    BitVec.ofNat 32 (leNat 4 (buf.drop 8)) else 1⟩, ?_, ⟨?_, ?_, ?_⟩, h.count⟩
  · unfold loadChecked
    rw [if_neg (Nat.not_lt.mpr hshort), copyIn_prefix hshort, Option.bind_some]
    dsimp only
    rw [hmagic, hver, hcount, hnext, if_neg h.header, if_neg h.sized, hrun, Option.map_some]
  · rw [loadFromNvs_fits hlen h]
    have hle := h.count
    apply List.ext_getElem
    · rw [List.length_take, List.length_ofFn, List.length_map, List.length_range]
      exact Nat.min_eq_left hle
    · intro i hi hi'
      have hlt : i < leNat 2 (buf.drop 6) := by
        rw [List.length_map, List.length_range] at hi'
        exact hi'
      rw [List.getElem_take, List.getElem_ofFn, List.getElem_map, List.getElem_range]
      exact (hring _).trans (if_pos hlt)
  · rw [loadFromNvs_fits hlen h]
  · intro j hj
    exact (hring j).trans (if_neg (Nat.not_lt.mpr hj))

theorem loadChecked_whole :
    LoadsWhole loadChecked storedBlobMax Fits id Loaded RingState.count maxRecords :=
  LoadsWhole.of_returns (fun _ _ _ hno => loadChecked_refuses hno) fun _ _ hlen hfits =>
    loadChecked_loads hlen hfits

end

end Reset

/-- **Both tables load whole or not at all**, whatever the bytes in flash. -/
theorem loads_whole_or_not_at_all (now : Nat) :
    Lib.LoadsWhole (Dhcp.loadChecked now) Dhcp.blobMax Dhcp.Fits
        (fun st => { st with bootSeq := 1 })
        (fun st buf st' => st' = Dhcp.loadFromNvs st (some buf) now)
        (fun st' => st'.restoredCount) 32 ∧
      Lib.LoadsWhole Reset.loadChecked Reset.storedBlobMax Reset.Fits id Reset.Loaded
        Reset.RingState.count 16 :=
  ⟨Dhcp.loadChecked_whole now, Reset.loadChecked_whole⟩

end Wt32Router
