import Wt32Router.Lib.Checked
import Wt32Router.Dhcp.Inherited

/-!
# Loading the lease table, access by access

`load_from_nvs` on whatever flash may hold. `loadFromNvs` is what it computes; here is the order
in which it copies, checks and writes, with every access held against the length NVS returned
and against the table: the first eight bytes, the header in the length its version has, and then
a record at a time into the next slot.

> **`loadChecked_whole`**: it never leaves the buffer or the table, restores at most 32 entries,
> and restores none of a blob whose header or length does not fit.
-/

namespace Wt32Router
namespace Dhcp

open Lib

/-- What the restore loop writes: `s_leases`, `n` and `forgotten`. -/
structure Restoring where
  leases : Slot → Lease
  n : Nat
  forgotten : Nat

/-- One turn of the restore loop. -/
def restoreTurn (buf : List UInt8) (hdr : StoredHdr) (bootSeq : BitVec 32) (r : Restoring)
    (i : Nat) : Option Restoring :=
  (copyIn buf (storedHdrLen hdr.version + i * storedRecLen hdr.version)
      (storedRecLen hdr.version)).bind fun bs =>
    let s := StoredLease.ofBytes bs
    if forgets bootSeq hdr.version s then some { r with forgotten := r.forgotten + 1 }
    else (writeAt r.leases r.n fun e => restoredLease e s false).map fun leases =>
      { r with leases := leases, n := r.n + 1 }

/-- The order of the loops over the restored slots: that of the table. -/
def tableOrder (n : Nat) : Visits :=
  let is := (List.finRange maxLeases).filter fun i => decide (i.val < n)
  ⟨is, is, is⟩

/-- `load_from_nvs` past its checks. -/
def loadCheckedRecords (st : Server) (buf : List UInt8) (hdr : StoredHdr) (now : Nat) :
    Option Server :=
  let st := { st with bootSeq := hdr.bootSeq + 1 }
  (forUpTo hdr.count (restoreTurn buf hdr st.bootSeq) ⟨st.leases, 0, 0⟩).map fun r =>
    settleDisputes { st with leases := r.leases } (tableOrder r.n) r.n r.forgotten now

/-- `load_from_nvs`, given the bytes `nvs_get_blob` returned. -/
def loadChecked (now : Nat) (st : Server) (buf : List UInt8) : Option Server :=
  let st := { st with bootSeq := 1 }
  if buf.length < storedHdrLen 1 then some st
  else (copyIn buf 0 (storedHdrLen 1)).bind fun bs =>
    let hdr := StoredHdr.ofBytes bs
    if hdr.magic ≠ storeMagic ∨ hdr.version < 1 ∨ storeVersion < hdr.version then some st
    else if buf.length < storedHdrLen hdr.version then some st
    else (copyIn buf 0 (storedHdrLen hdr.version)).bind fun bs =>
      let hdr := StoredHdr.ofBytes bs
      if maxLeases < hdr.count ∨
          buf.length < storedHdrLen hdr.version + hdr.count * storedRecLen hdr.version then some st
      else loadCheckedRecords st buf hdr now

/-- The magic, the version, the count and the length of a blob fit. -/
structure Fits (buf : List UInt8) : Prop where
  magic : (StoredHdr.ofBytes buf).magic = storeMagic
  version : 1 ≤ (StoredHdr.ofBytes buf).version ∧ (StoredHdr.ofBytes buf).version ≤ storeVersion
  count : (StoredHdr.ofBytes buf).count ≤ maxLeases
  length : storedHdrLen (StoredHdr.ofBytes buf).version + (StoredHdr.ofBytes buf).count *
    storedRecLen (StoredHdr.ofBytes buf).version ≤ buf.length

section

variable {st : Server} {buf : List UInt8} {hdr : StoredHdr} {now n i : Nat} {t : Slot → Lease}
  {recs : List StoredLease} {s : StoredLease} {bootSeq : BitVec 32}

/-! ## The restore loop -/

theorem restoreRaw_concat (h : recs.length < maxLeases) :
    restoreRaw t (recs ++ [s]) = Function.update (restoreRaw t recs) ⟨recs.length, h⟩
      (restoredLease (restoreRaw t recs ⟨recs.length, h⟩) s false) := by
  funext i
  by_cases hi : i = ⟨recs.length, h⟩
  · subst hi
    have hnew : (recs ++ [s])[recs.length]? = some s := by simp
    have hold : recs[recs.length]? = none := by simp
    rw [Function.update_self, restoreRaw_some hnew, restoreRaw_none hold]
  · have hne : i.val ≠ recs.length := fun heq => hi (Fin.ext heq)
    rw [Function.update_of_ne hi]
    unfold restoreRaw
    by_cases hlt : i.val < recs.length
    · rw [List.getElem?_append_left hlt]
    · have hgt : recs.length < i.val := by omega
      rw [List.getElem?_eq_none (by simp; omega), List.getElem?_eq_none (by omega)]

/-- Where the loop stands after reading these records. -/
structure RestoredSoFar (t : Slot → Lease) (bootSeq : BitVec 32) (ver : Nat)
    (recs : List StoredLease) (r : Restoring) : Prop where
  leases : r.leases = restoreRaw t (keptRecords bootSeq ver recs)
  n : r.n = (keptRecords bootSeq ver recs).length
  forgotten : r.forgotten = recs.length - (keptRecords bootSeq ver recs).length

theorem keptRecords_concat (bootSeq : BitVec 32) (ver : Nat) (recs : List StoredLease)
    (s : StoredLease) : keptRecords bootSeq ver (recs ++ [s]) =
      if forgets bootSeq ver s then keptRecords bootSeq ver recs
      else keptRecords bootSeq ver recs ++ [s] := by
  unfold keptRecords
  rw [List.filter_append]
  cases h : forgets bootSeq ver s <;> simp [h]

/-- One turn reads one record, and stays within the table while fewer than 32 were read. -/
theorem restoreTurn_spec {r : Restoring}
    (hin : storedHdrLen hdr.version + i * storedRecLen hdr.version + storedRecLen hdr.version ≤
      buf.length) (hroom : recs.length < maxLeases)
    (hr : RestoredSoFar t bootSeq hdr.version recs r) :
    ∃ r', restoreTurn buf hdr bootSeq r i = some r' ∧
      RestoredSoFar t bootSeq hdr.version (recs ++ [StoredLease.ofBytes
        ((buf.drop (storedHdrLen hdr.version + i * storedRecLen hdr.version)).take
          (storedRecLen hdr.version))]) r' := by
  unfold restoreTurn
  rw [copyIn_of_le hin, Option.bind_some]
  dsimp only
  generalize StoredLease.ofBytes ((buf.drop (storedHdrLen hdr.version +
    i * storedRecLen hdr.version)).take (storedRecLen hdr.version)) = s
  have hle : (keptRecords bootSeq hdr.version recs).length ≤ recs.length :=
    List.length_filter_le _ _
  have hkept := keptRecords_concat bootSeq hdr.version recs s
  have hlen : (recs ++ [s]).length = recs.length + 1 := List.length_append
  split
  · rename_i hforget
    rw [if_pos hforget] at hkept
    refine ⟨_, rfl, hkept ▸ hr.leases, hkept ▸ hr.n, ?_⟩
    rw [hkept, hlen, Nat.succ_sub hle, ← hr.forgotten]
  · rename_i hkeep
    rw [if_neg hkeep] at hkept
    have hslot : r.n < maxLeases := hr.n ▸ Nat.lt_of_le_of_lt hle hroom
    have hslot' : (keptRecords bootSeq hdr.version recs).length < maxLeases := hr.n ▸ hslot
    refine ⟨_, by rw [writeAt_of_lt hslot, Option.map_some], ?_, ?_, ?_⟩
    · obtain ⟨leases, n, forgotten⟩ := r
      obtain ⟨hleases, hn, -⟩ := hr
      dsimp only at hleases hn ⊢
      subst hleases hn
      rw [hkept, restoreRaw_concat hslot']
    · rw [hkept, List.length_append, ← hr.n]
      rfl
    · rw [hkept, hlen, List.length_append, List.length_singleton, Nat.add_sub_add_right]
      exact hr.forgotten

theorem readRecords_length : (readRecords buf hdr).length = hdr.count := by
  rw [readRecords, List.length_map, List.length_range]

/-- **The whole loop** reads the records, and writes those that are kept to the first slots. -/
theorem restoreLoop_spec (t : Slot → Lease) (bootSeq : BitVec 32) (hcount : hdr.count ≤ maxLeases)
    (hlen : storedHdrLen hdr.version + hdr.count * storedRecLen hdr.version ≤ buf.length) :
    ∃ r, forUpTo hdr.count (restoreTurn buf hdr bootSeq) ⟨t, 0, 0⟩ = some r ∧
      RestoredSoFar t bootSeq hdr.version (readRecords buf hdr) r := by
  let read (i : Nat) : StoredLease := StoredLease.ofBytes
    ((buf.drop (storedHdrLen hdr.version + i * storedRecLen hdr.version)).take
      (storedRecLen hdr.version))
  refine forUpTo_inv
    (P := fun i r => RestoredSoFar t bootSeq hdr.version ((List.range i).map read) r) ?_ ?_
  · intro i r hi hr
    have hnext : (i + 1) * storedRecLen hdr.version ≤ hdr.count * storedRecLen hdr.version :=
      Nat.mul_le_mul_right _ hi
    rw [Nat.succ_mul] at hnext
    have hin : storedHdrLen hdr.version + i * storedRecLen hdr.version +
        storedRecLen hdr.version ≤ buf.length := by omega
    have hroom : ((List.range i).map read).length < maxLeases := by
      rw [List.length_map, List.length_range]
      exact Nat.lt_of_lt_of_le hi hcount
    obtain ⟨r', hturn, hr'⟩ := restoreTurn_spec hin hroom hr
    refine ⟨r', hturn, ?_⟩
    rw [List.range_succ, List.map_append]
    exact hr'
  · exact ⟨rfl, rfl, rfl⟩

theorem tableOrder_covers (n : Nat) : (tableOrder n).Covers n := by
  have hall : Covers n ((List.finRange maxLeases).filter fun i => decide (i.val < n)) := by
    intro i
    rw [List.mem_filter, decide_eq_true_eq]
    exact and_iff_right (List.mem_finRange i)
  exact ⟨hall, hall, hall⟩

/-- Past the checks the loader returns, with what `loadRecords` makes of the records. -/
theorem loadCheckedRecords_eq (hcount : hdr.count ≤ maxLeases)
    (hlen : storedHdrLen hdr.version + hdr.count * storedRecLen hdr.version ≤ buf.length) :
    loadCheckedRecords st buf hdr now = some (loadRecords st hdr (readRecords buf hdr) now) := by
  obtain ⟨r, hrun, hleases, hn, hforgot⟩ :=
    restoreLoop_spec st.leases (hdr.bootSeq + 1) hcount hlen
  have hfits : (readRecords buf hdr).length ≤ maxLeases := readRecords_length ▸ hcount
  unfold loadCheckedRecords
  dsimp only
  rw [hrun, Option.map_some, ← loadInOrder_eq hfits (tableOrder_covers _)]
  unfold loadInOrder
  dsimp only
  rw [hleases, hn, hforgot]

/-! ## The checks -/

theorem StoredHdr.ofBytes_take (buf : List UInt8) (h : 8 ≤ n) :
    (StoredHdr.ofBytes (buf.take n)).magic = (StoredHdr.ofBytes buf).magic ∧
      (StoredHdr.ofBytes (buf.take n)).version = (StoredHdr.ofBytes buf).version ∧
      (StoredHdr.ofBytes (buf.take n)).count = (StoredHdr.ofBytes buf).count :=
  ⟨leNat_take 4 buf (le_trans (by decide) h), leNat_drop_take 2 buf (le_trans (by decide) h),
    leNat_drop_take 2 buf (le_trans (by decide) h)⟩

theorem storedHdrLen_ge (ver : Nat) : 8 ≤ storedHdrLen ver := by
  unfold storedHdrLen
  split
  · decide
  · exact Nat.le_refl 8

/-- **The loader never leaves the buffer, and computes `loadFromNvs`.** -/
theorem loadChecked_eq (hlen : buf.length ≤ blobMax) :
    loadChecked now st buf = some (loadFromNvs st (some buf) now) := by
  unfold loadChecked loadFromNvs parseBlob readHdr
  rw [Option.bind_some]
  dsimp only
  by_cases hshort : buf.length < storedHdrLen 1
  · rw [if_pos hshort, if_pos (.inr hshort)]
  rw [if_neg hshort, if_neg (not_or.mpr ⟨Nat.not_lt.mpr hlen, hshort⟩),
    copyIn_prefix (Nat.not_lt.mp hshort), Option.bind_some]
  generalize StoredHdr.ofBytes (buf.take (storedHdrLen 1)) = short
  by_cases hmagic : short.magic ≠ storeMagic ∨ short.version < 1 ∨ storeVersion < short.version
  · rw [if_pos hmagic, if_pos hmagic]
  rw [if_neg hmagic, if_neg hmagic]
  by_cases hcut : buf.length < storedHdrLen short.version
  · rw [if_pos hcut, if_pos hcut]
  rw [if_neg hcut, if_neg hcut, copyIn_prefix (Nat.not_lt.mp hcut), Option.bind_some]
  generalize StoredHdr.ofBytes (buf.take (storedHdrLen short.version)) = hdr
  by_cases hbad : maxLeases < hdr.count ∨
      buf.length < storedHdrLen hdr.version + hdr.count * storedRecLen hdr.version
  · rw [if_pos hbad]
    dsimp only
    rw [if_pos hbad]
  rw [if_neg hbad]
  dsimp only
  rw [if_neg hbad]
  obtain ⟨hcount, hroom⟩ := not_or.mp hbad
  exact loadCheckedRecords_eq (Nat.not_lt.mp hcount) (Nat.not_lt.mp hroom)

theorem markDirty_restoredCount : (st.markDirty now).restoredCount = st.restoredCount := by
  unfold Server.markDirty
  split <;> rfl

/-- The checks let through what fits, and only that. -/
theorem parseBlob_isSome_iff (hlen : buf.length ≤ blobMax) :
    (parseBlob buf).isSome = true ↔ Fits buf := by
  obtain ⟨hm1, hv1, -⟩ := StoredHdr.ofBytes_take buf (Nat.le_refl 8)
  have hlen1 : storedHdrLen 1 = 8 := rfl
  constructor
  · intro h
    unfold parseBlob readHdr at h
    dsimp only at h
    rw [hlen1, hm1, hv1] at h
    obtain ⟨hm2, hv2, hc2⟩ := StoredHdr.ofBytes_take buf
      (storedHdrLen_ge (StoredHdr.ofBytes buf).version)
    split at h
    · exact absurd h Bool.false_ne_true
    · rename_i hdr hread
      split at hread
      · exact absurd hread (by simp)
      split at hread
      · exact absurd hread (by simp)
      rename_i hmagic
      split at hread
      · exact absurd hread (by simp)
      cases hread
      rw [hv2, hc2] at h
      split at h
      · exact absurd h Bool.false_ne_true
      rename_i hbad
      obtain ⟨hmagic, hver⟩ := not_or.mp hmagic
      obtain ⟨hver, hver'⟩ := not_or.mp hver
      obtain ⟨hcount, hroom⟩ := not_or.mp hbad
      exact ⟨not_not.mp hmagic, ⟨Nat.not_lt.mp hver, Nat.not_lt.mp hver'⟩, Nat.not_lt.mp hcount,
        Nat.not_lt.mp hroom⟩
  · intro h
    obtain ⟨hm2, hv2, hc2⟩ := StoredHdr.ofBytes_take buf
      (storedHdrLen_ge (StoredHdr.ofBytes buf).version)
    have hroom : storedHdrLen (StoredHdr.ofBytes buf).version ≤ buf.length :=
      le_trans (Nat.le_add_right _ _) h.length
    have hshort : 8 ≤ buf.length := le_trans (storedHdrLen_ge _) hroom
    unfold parseBlob readHdr
    dsimp only
    rw [hlen1, hm1, hv1, if_neg (by omega), if_neg, if_neg (by omega)]
    · dsimp only
      rw [hv2, hc2, if_neg]
      · rfl
      · exact not_or.mpr ⟨Nat.not_lt.mpr h.count, Nat.not_lt.mpr h.length⟩
    · exact not_or.mpr ⟨not_not.mpr h.magic,
        not_or.mpr ⟨Nat.not_lt.mpr h.version.1, Nat.not_lt.mpr h.version.2⟩⟩

end

/-- **The loader takes a blob whole or not at all.** -/
theorem loadChecked_whole (now : Nat) :
    LoadsWhole (loadChecked now) blobMax Fits (fun st => { st with bootSeq := 1 })
      (fun st buf st' => st' = loadFromNvs st (some buf) now) (fun st' => st'.restoredCount)
      maxLeases := by
  refine LoadsWhole.of_returns (fun st buf hlen hno => ?_) fun st buf hlen hfits =>
    ⟨_, loadChecked_eq hlen, rfl, ?_⟩
  · rw [loadChecked_eq hlen]
    unfold loadFromNvs
    rw [Option.bind_some]
    cases hparse : parseBlob buf with
    | none => rfl
    | some parsed =>
      exact absurd ((parseBlob_isSome_iff hlen).mp (by rw [hparse]; rfl)) hno
  · obtain ⟨⟨hdr, recs⟩, hparse⟩ :=
      Option.isSome_iff_exists.mp ((parseBlob_isSome_iff hlen).mpr hfits)
    have hrecs := parseBlob_length hparse
    have hkept : (keptRecords (hdr.bootSeq + 1) hdr.version recs).length ≤ recs.length :=
      List.length_filter_le _ _
    unfold loadFromNvs
    rw [Option.bind_some, hparse]
    dsimp only
    unfold loadRecords
    dsimp only
    split
    · rw [markDirty_restoredCount]
      exact le_trans hkept hrecs
    · exact le_trans hkept hrecs

end Dhcp
end Wt32Router
