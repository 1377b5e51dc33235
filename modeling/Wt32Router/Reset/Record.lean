import Mathlib.Tactic.NormNum
import Mathlib.Data.List.TakeDrop
import Wt32Router.Lib.Bytes

/-!
# The reset history in flash

`main/reset_log.c` keeps the last sixteen boots, oldest first, and writes them as one NVS blob:
a header, and packed records whose size depends on the version that wrote them. Version 2 put
the wall-clock instant of the boot behind version 1's record.

> **`loadFromNvs_blob`**: a blob of either version is read back as the records it was built
> from, less what its version cannot carry.

That is one statement for both versions. The only other place where a byte is looked at is
`Reset/Loading.lean`, which asks whether it is there.
-/

namespace Wt32Router
namespace Reset

open Lib

/-- `RESET_LOG_MAX_RECORDS`. -/
def maxRecords : Nat := 16

def storeMagic : Nat := 0x474C5352

def storeVersion : Nat := 2

/-! ## Flags -/

def fPrevState : UInt8 := 0x01
def fReachedReady : UInt8 := 0x02
def fOtaPending : UInt8 := 0x04
def fRollback : UInt8 := 0x08
def fPrevUptimeMin : UInt8 := 0x10
def fRailKnown : UInt8 := 0x20
def fRailHeld : UInt8 := 0x40
def fBootTime : UInt8 := 0x80

/-- A test of `flags & mask`. -/
def hasFlag (flags mask : UInt8) : Bool := flags &&& mask != 0

/-! ## Records -/

/-- A character array of a record. Its last character is a NUL, and is not stored. -/
structure Text (size : Nat) where
  chars : List UInt8
  length_eq : chars.length + 1 = size
deriving DecidableEq, Repr

/-- An array copied off flash, with its last character made a NUL. -/
def Text.ofBytes {n : Nat} (bs : List UInt8) : Text (n + 1) :=
  ⟨bs.takeD n 0, congrArg (· + 1) (List.takeD_length n bs 0)⟩

/-- `strlcpy` into an array of zeros. -/
def Text.strlcpy {n : Nat} (src : List UInt8) : Text (n + 1) :=
  Text.ofBytes (src.takeWhile (· != 0))

def Text.toBytes {n : Nat} (t : Text n) : List UInt8 := t.chars ++ [0]

/-- `strcmp` finds no difference. -/
def sameString (a b : List UInt8) : Bool := a.takeWhile (· != 0) == b.takeWhile (· != 0)

/-- `reset_log_entry_t`. -/
structure Entry where
  bootSeq : BitVec 32 := 0
  prevUptimeS : BitVec 32 := 0
  bootEpoch : BitVec 64 := 0
  reason : UInt8 := 0
  intent : UInt8 := 0
  flags : UInt8 := 0
  version : Text 24 := Text.ofBytes []
  part : Text 8 := Text.ofBytes []
deriving DecidableEq, Repr

/-! ## The codec -/

def storedRecLen (ver : Nat) : Nat := if 2 ≤ ver then 52 else 44

def storedHdrLen : Nat := 12

def storedBlobMax : Nat := storedHdrLen + maxRecords * storedRecLen storeVersion

/-- `stored_hdr_t` as it lies in the blob. -/
def hdrBytes (ver count : Nat) (nextSeq : BitVec 32) : List UInt8 :=
  leBytes 4 storeMagic ++ leBytes 2 ver ++ leBytes 2 count ++ leBytes 4 nextSeq.toNat

/-- `stored_rec_v1_t` as it lies in the blob; `rsvd` is its spare byte. -/
def recV1Bytes (e : Entry) (rsvd : UInt8) : List UInt8 :=
  leBytes 4 e.bootSeq.toNat ++ leBytes 4 e.prevUptimeS.toNat ++
    [e.reason, e.intent, e.flags, rsvd] ++ e.version.toBytes ++ e.part.toBytes

/-- A record of either version: `stored_rec_t` is version 1's with the time behind it. -/
def recBytes (ver : Nat) (e : Entry) (rsvd : UInt8) : List UInt8 :=
  recV1Bytes e rsvd ++ if 2 ≤ ver then leBytes 8 e.bootEpoch.toNat else []

def blob (ver : Nat) (recs : List (Entry × UInt8)) (nextSeq : BitVec 32) : List UInt8 :=
  hdrBytes ver recs.length nextSeq ++ recs.flatMap fun r => recBytes ver r.1 r.2

/-- What `save_to_nvs` writes. -/
def saveBlob (ring : List Entry) (nextSeq : BitVec 32) : List UInt8 :=
  blob storeVersion (ring.map fun e => (e, 0)) nextSeq

/-- One turn of the loop of `load_from_nvs`: the record that lies at `bs`. -/
def readEntry (ver : Nat) (bs : List UInt8) : Entry where
  bootSeq := BitVec.ofNat 32 (leNat 4 bs)
  prevUptimeS := BitVec.ofNat 32 (leNat 4 (bs.drop 4))
  reason := (bs.drop 8).headD 0
  intent := (bs.drop 9).headD 0
  flags := if 2 ≤ ver then (bs.drop 10).headD 0 else (bs.drop 10).headD 0 &&& ~~~fBootTime
  version := Text.ofBytes (bs.drop 12)
  part := Text.ofBytes (bs.drop 36)
  bootEpoch := if 2 ≤ ver then BitVec.ofNat 64 (leNat 8 (bs.drop 44)) else 0

/-- `load_from_nvs`: the ring and `s_next_seq`, from what NVS returns for the key. -/
def loadFromNvs (stored : Option (List UInt8)) : List Entry × BitVec 32 :=
  match stored with
  | none => ([], 1)
  | some buf =>
    let magic := leNat 4 buf
    let ver := leNat 2 (buf.drop 4)
    let count := leNat 2 (buf.drop 6)
    let nextSeq := BitVec.ofNat 32 (leNat 4 (buf.drop 8))
    if storedBlobMax < buf.length ∨ buf.length < storedHdrLen then ([], 1)
    else if magic ≠ storeMagic ∨ ver < 1 ∨ storeVersion < ver then ([], 1)
    else if maxRecords < count ∨ buf.length < storedHdrLen + count * storedRecLen ver then ([], 1)
    else
      ((List.range count).map fun i =>
          readEntry ver (buf.drop (storedHdrLen + i * storedRecLen ver)),
        if nextSeq ≠ 0 then nextSeq else 1)

/-- What a version can carry of a record. -/
def Entry.carried (ver : Nat) (e : Entry) : Entry :=
  if 2 ≤ ver then e else { e with bootEpoch := 0, flags := e.flags &&& ~~~fBootTime }

section

variable {e : Entry} {rsvd : UInt8} {ver : Nat} {rest : List UInt8} {nextSeq : BitVec 32}
  {recs : List (Entry × UInt8)} {ring : List Entry}

/-! ## A record -/

@[simp] theorem Text.toBytes_length {n : Nat} (t : Text n) : t.toBytes.length = n := by
  simp [Text.toBytes, t.length_eq]

theorem Text.ofBytes_toBytes {n : Nat} (t : Text (n + 1)) (rest : List UInt8) :
    Text.ofBytes (t.toBytes ++ rest) = t := by
  have hlen : t.chars.length = n := Nat.succ.inj t.length_eq
  have hchars : (t.toBytes ++ rest).takeD n 0 = t.chars := by
    rw [Text.toBytes, List.append_assoc, List.takeD_left' hlen]
  cases t
  simpa [Text.ofBytes] using hchars

theorem recV1Bytes_length : (recV1Bytes e rsvd).length = 44 := by
  simp [recV1Bytes]

theorem recBytes_length (hver : ver = 1 ∨ ver = 2) :
    (recBytes ver e rsvd).length = storedRecLen ver := by
  rcases hver with rfl | rfl <;> simp [recBytes, recV1Bytes_length, storedRecLen]

theorem recV1Bytes_drop (e : Entry) (rsvd : UInt8) (tail : List UInt8) :
    leNat 4 (recV1Bytes e rsvd ++ tail) = e.bootSeq.toNat % 256 ^ 4 ∧
      leNat 4 ((recV1Bytes e rsvd ++ tail).drop 4) = e.prevUptimeS.toNat % 256 ^ 4 ∧
      (recV1Bytes e rsvd ++ tail).drop 8 =
        e.reason :: e.intent :: e.flags :: rsvd ::
          (e.version.toBytes ++ (e.part.toBytes ++ tail)) := by
  have hcat : recV1Bytes e rsvd ++ tail = leBytes 4 e.bootSeq.toNat ++ (leBytes 4
      e.prevUptimeS.toNat ++ (e.reason :: e.intent :: e.flags :: rsvd ::
        (e.version.toBytes ++ (e.part.toBytes ++ tail)))) := by
    simp [recV1Bytes]
  have h4 := drop_leBytes 4 e.bootSeq.toNat (leBytes 4
      e.prevUptimeS.toNat ++ (e.reason :: e.intent :: e.flags :: rsvd ::
        (e.version.toBytes ++ (e.part.toBytes ++ tail))))
  rw [hcat]
  refine ⟨leNat_leBytes 4 _ _, ?_, ?_⟩
  · rw [h4, leNat_leBytes]
  · exact (drop_add_of h4 4).trans (drop_leBytes 4 _ _)

/-- **A record written is read back, as far as its version carries it.** -/
theorem readEntry_recBytes (hver : ver = 1 ∨ ver = 2) (e : Entry) (rsvd : UInt8)
    (rest : List UInt8) : readEntry ver (recBytes ver e rsvd ++ rest) = e.carried ver := by
  let tail := (if 2 ≤ ver then leBytes 8 e.bootEpoch.toNat else []) ++ rest
  have hcat : recBytes ver e rsvd ++ rest = recV1Bytes e rsvd ++ tail := by
    rw [recBytes, List.append_assoc]
  obtain ⟨hseq, hup, h8⟩ := recV1Bytes_drop e rsvd tail
  rw [← hcat] at hseq hup h8
  have h9 : (recBytes ver e rsvd ++ rest).drop 9 =
      e.intent :: e.flags :: rsvd :: (e.version.toBytes ++ (e.part.toBytes ++ tail)) :=
    drop_add_of h8 1
  have h10 : (recBytes ver e rsvd ++ rest).drop 10 =
      e.flags :: rsvd :: (e.version.toBytes ++ (e.part.toBytes ++ tail)) :=
    drop_add_of h8 2
  have h12 : (recBytes ver e rsvd ++ rest).drop 12 =
      e.version.toBytes ++ (e.part.toBytes ++ tail) :=
    drop_add_of h8 4
  have h36 : (recBytes ver e rsvd ++ rest).drop 36 = e.part.toBytes ++ tail :=
    (drop_add_of h12 24).trans (List.drop_left' e.version.toBytes_length)
  have h44 : (recBytes ver e rsvd ++ rest).drop 44 = tail :=
    (drop_add_of h36 8).trans (List.drop_left' e.part.toBytes_length)
  unfold readEntry
  rw [hseq, hup, h8, h9, h10, h12, h36, h44, ofNat_toNat_mod _ _ (by norm_num),
    ofNat_toNat_mod _ _ (by norm_num), Text.ofBytes_toBytes, Text.ofBytes_toBytes]
  rcases hver with rfl | rfl
  · rfl
  · have htail : tail = leBytes 8 e.bootEpoch.toNat ++ rest := rfl
    rw [htail, leNat_leBytes, ofNat_toNat_mod _ _ (by norm_num)]
    rfl

/-! ## A blob -/

theorem hdrBytes_length {count : Nat} : (hdrBytes ver count nextSeq).length = 12 := by
  simp [hdrBytes]

theorem hdrBytes_drop {count : Nat} (hver : ver < 256 ^ 2) (hcount : count < 256 ^ 2)
    (nextSeq : BitVec 32) (rest : List UInt8) :
    leNat 4 (hdrBytes ver count nextSeq ++ rest) = storeMagic ∧
      leNat 2 ((hdrBytes ver count nextSeq ++ rest).drop 4) = ver ∧
      leNat 2 ((hdrBytes ver count nextSeq ++ rest).drop 6) = count ∧
      BitVec.ofNat 32 (leNat 4 ((hdrBytes ver count nextSeq ++ rest).drop 8)) = nextSeq := by
  have hcat : hdrBytes ver count nextSeq ++ rest = leBytes 4 storeMagic ++ (leBytes 2 ver ++
      (leBytes 2 count ++ (leBytes 4 nextSeq.toNat ++ rest))) := by
    simp [hdrBytes]
  have h4 : (hdrBytes ver count nextSeq ++ rest).drop 4 = leBytes 2 ver ++
      (leBytes 2 count ++ (leBytes 4 nextSeq.toNat ++ rest)) := by
    rw [hcat, drop_leBytes]
  have h6 : (hdrBytes ver count nextSeq ++ rest).drop 6 =
      leBytes 2 count ++ (leBytes 4 nextSeq.toNat ++ rest) :=
    (drop_add_of h4 2).trans (drop_leBytes 2 _ _)
  have h8 : (hdrBytes ver count nextSeq ++ rest).drop 8 = leBytes 4 nextSeq.toNat ++ rest :=
    (drop_add_of h6 2).trans (drop_leBytes 2 _ _)
  refine ⟨?_, ?_, ?_, ?_⟩
  · rw [hcat, leNat_leBytes]
    rfl
  · rw [h4, leNat_leBytes, Nat.mod_eq_of_lt hver]
  · rw [h6, leNat_leBytes, Nat.mod_eq_of_lt hcount]
  · rw [h8, leNat_leBytes, ofNat_toNat_mod _ _ (by norm_num)]

theorem blob_length (recs : List (Entry × UInt8)) (nextSeq : BitVec 32) (hver : ver = 1 ∨ ver = 2) :
    (blob ver recs nextSeq).length = 12 + recs.length * storedRecLen ver := by
  rw [blob, List.length_append, hdrBytes_length,
    flatMap_length (f := fun r : Entry × UInt8 => recBytes ver r.1 r.2)
      (fun _ => recBytes_length hver)]

/-- **A blob is read back as its records**, in order, with the number of the next boot. -/
theorem loadFromNvs_blob (hver : ver = 1 ∨ ver = 2) (hlen : recs.length ≤ maxRecords) :
    loadFromNvs (some (blob ver recs nextSeq)) =
      (recs.map fun r => r.1.carried ver, if nextSeq ≠ 0 then nextSeq else 1) := by
  have hle : recs.length ≤ 16 := hlen
  have hv : ver < 256 ^ 2 := by rcases hver with rfl | rfl <;> norm_num
  obtain ⟨hmagic, hverw, hcount, hnext⟩ := hdrBytes_drop hv (by omega : recs.length < 256 ^ 2)
    nextSeq (recs.flatMap fun r => recBytes ver r.1 r.2)
  have hsize := blob_length recs nextSeq hver
  have hrec : storedRecLen ver = 44 ∨ storedRecLen ver = 52 := by
    rcases hver with rfl | rfl
    · exact .inl rfl
    · exact .inr rfl
  have hmax : storedBlobMax = 844 := rfl
  have hhdr : storedHdrLen = 12 := rfl
  have hrecs : (List.range recs.length).map (fun i => readEntry ver
      ((blob ver recs nextSeq).drop (storedHdrLen + i * storedRecLen ver))) =
      recs.map fun r => r.1.carried ver := by
    apply List.ext_getElem
    · simp
    · intro i hi hi'
      have hir : i < recs.length := by simpa using hi'
      rw [List.getElem_map, List.getElem_map, List.getElem_range, ← List.drop_drop, blob, hhdr,
        List.drop_left' hdrBytes_length,
        drop_flatMap (f := fun r : Entry × UInt8 => recBytes ver r.1 r.2)
          (fun _ => recBytes_length hver), List.drop_eq_getElem_cons hir, List.flatMap_cons]
      exact readEntry_recBytes hver _ _ _
  have h1 : ¬ (storedBlobMax < (blob ver recs nextSeq).length ∨
      (blob ver recs nextSeq).length < storedHdrLen) := by
    rw [hsize, hmax, hhdr]
    rcases hrec with h | h <;> rw [h] <;> omega
  have h2 : ¬ (storeMagic ≠ storeMagic ∨ ver < 1 ∨ storeVersion < ver) := by
    rcases hver with rfl | rfl <;> simp [storeVersion]
  have h3 : ¬ (maxRecords < recs.length ∨
      (blob ver recs nextSeq).length < storedHdrLen + recs.length * storedRecLen ver) := by
    rw [hsize, hhdr]
    omega
  unfold loadFromNvs
  dsimp only
  rw [if_neg h1, show leNat 4 (blob ver recs nextSeq) = storeMagic from hmagic,
    show leNat 2 ((blob ver recs nextSeq).drop 4) = ver from hverw,
    show leNat 2 ((blob ver recs nextSeq).drop 6) = recs.length from hcount,
    show BitVec.ofNat 32 (leNat 4 ((blob ver recs nextSeq).drop 8)) = nextSeq from hnext,
    if_neg h2, if_neg h3, hrecs]

theorem loadFromNvs_saveBlob (hlen : ring.length ≤ maxRecords) :
    loadFromNvs (some (saveBlob ring nextSeq)) =
      (ring, if nextSeq ≠ 0 then nextSeq else 1) := by
  show loadFromNvs (some (blob 2 (ring.map fun e => (e, 0)) nextSeq)) = _
  rw [loadFromNvs_blob (.inr rfl) (by simpa using hlen), List.map_map]
  simp [Function.comp_def, Entry.carried]

end

end Reset
end Wt32Router
