import Mathlib.Tactic.NormNum
import Wt32Router.Lib.Bytes
import Wt32Router.Dhcp.Commit

/-!
# The lease table in flash

One NVS blob: a header and up to 32 packed records. `save_to_nvs_locked` writes it whole,
`load_from_nvs` reads it back on the next boot, in this layout or either of the two older
ones.

This file is the **codec**, which is bytes: `encodeBlob`, `parseBlob`, and
`parseBlob_encodeBlob`, which says that a blob written here is read back as it was
written. After it a blob is its list of records; which records a table gives and what table
they give is `Dhcp/Persist.lean`. Bytes are looked at once more in `Dhcp/Loading.lean`, for
whether they are there.
-/

namespace Wt32Router
namespace Dhcp

/-! ## The codec -/

def storeMagic : Nat := 0x4C504344

def storeVersion : Nat := 3

/-- `stored_lease_t`. -/
structure StoredLease where
  mac : Mac
  ip : Ip
  observedIp : Ip
  lastSeenSeq : BitVec 32
deriving DecidableEq, Repr

/-- `stored_hdr_t`. -/
structure StoredHdr where
  magic : Nat
  version : Nat
  count : Nat
  bootSeq : BitVec 32
deriving DecidableEq, Repr

/-- `STORED_HDR_LEN`: the header grew in version 3. -/
def storedHdrLen (ver : Nat) : Nat := if 3 ≤ ver then 12 else 8

/-- The record size of a version. -/
def storedRecLen (ver : Nat) : Nat := if ver = 1 then 10 else if ver = 2 then 14 else 18

/-- A record copied out of the blob into a zeroed structure; a version that lacks the
    last fields leaves them 0. -/
def StoredLease.ofBytes (bs : List UInt8) : StoredLease where
  mac := BitVec.ofNat 48 (Lib.beNat 6 bs)
  ip := BitVec.ofNat 32 (Lib.beNat 4 (bs.drop 6))
  observedIp := BitVec.ofNat 32 (Lib.beNat 4 (bs.drop 10))
  lastSeenSeq := BitVec.ofNat 32 (Lib.leNat 4 (bs.drop 14))

def StoredLease.toBytes (s : StoredLease) : List UInt8 :=
  Lib.beBytes 6 s.mac.toNat ++ Lib.beBytes 4 s.ip.toNat ++ Lib.beBytes 4 s.observedIp.toNat ++
    Lib.leBytes 4 s.lastSeenSeq.toNat

/-- The header, copied into a zeroed structure. -/
def StoredHdr.ofBytes (bs : List UInt8) : StoredHdr where
  magic := Lib.leNat 4 bs
  version := Lib.leNat 2 (bs.drop 4)
  count := Lib.leNat 2 (bs.drop 6)
  bootSeq := BitVec.ofNat 32 (Lib.leNat 4 (bs.drop 8))

def StoredHdr.toBytes (h : StoredHdr) : List UInt8 :=
  Lib.leBytes 4 h.magic ++ Lib.leBytes 2 h.version ++ Lib.leBytes 2 h.count ++
    Lib.leBytes 4 h.bootSeq.toNat

/-- The size of the buffer both directions use. NVS refuses to read a longer blob into
    it. -/
def blobMax : Nat := 12 + maxLeases * 18

/-- The header, if this build understands it: read once for its version, and again in the
    length that version has. -/
def readHdr (buf : List UInt8) : Option StoredHdr :=
  if blobMax < buf.length ∨ buf.length < storedHdrLen 1 then none
  else
    let hdr := StoredHdr.ofBytes (buf.take (storedHdrLen 1))
    if hdr.magic ≠ storeMagic ∨ hdr.version < 1 ∨ storeVersion < hdr.version then none
    else if buf.length < storedHdrLen hdr.version then none
    else some (StoredHdr.ofBytes (buf.take (storedHdrLen hdr.version)))

def readRecords (buf : List UInt8) (hdr : StoredHdr) : List StoredLease :=
  (List.range hdr.count).map fun i => StoredLease.ofBytes
    ((buf.drop (storedHdrLen hdr.version + i * storedRecLen hdr.version)).take
      (storedRecLen hdr.version))

/-- The checks of `load_from_nvs`, and the records they let through. -/
def parseBlob (buf : List UInt8) : Option (StoredHdr × List StoredLease) :=
  match readHdr buf with
  | none => none
  | some hdr =>
    if maxLeases < hdr.count ∨
        buf.length < storedHdrLen hdr.version + hdr.count * storedRecLen hdr.version then none
    else some (hdr, readRecords buf hdr)

/-- The blob of `save_to_nvs_locked`: this version's header and records. -/
def encodeBlob (bootSeq : BitVec 32) (recs : List StoredLease) : List UInt8 :=
  StoredHdr.toBytes ⟨storeMagic, storeVersion, recs.length, bootSeq⟩ ++
    recs.flatMap StoredLease.toBytes

section

variable {s : StoredLease} {hdr : StoredHdr} {recs : List StoredLease} {rest : List UInt8}

@[simp] theorem StoredLease.toBytes_length : s.toBytes.length = 18 := by
  simp [StoredLease.toBytes]

@[simp] theorem StoredHdr.toBytes_length : hdr.toBytes.length = 12 := by
  simp [StoredHdr.toBytes]

theorem StoredLease.ofBytes_toBytes (s : StoredLease) (rest : List UInt8) :
    StoredLease.ofBytes (s.toBytes ++ rest) = s := by
  have h6 : (s.toBytes ++ rest).drop 6 = Lib.beBytes 4 s.ip.toNat ++
      (Lib.beBytes 4 s.observedIp.toNat ++ (Lib.leBytes 4 s.lastSeenSeq.toNat ++ rest)) := by
    rw [StoredLease.toBytes]
    simp only [List.append_assoc]
    exact Lib.drop_beBytes 6 _ _
  have h10 : (s.toBytes ++ rest).drop 10 = Lib.beBytes 4 s.observedIp.toNat ++
      (Lib.leBytes 4 s.lastSeenSeq.toNat ++ rest) := by
    rw [show (10 : Nat) = 6 + 4 from rfl, ← List.drop_drop, h6]
    exact Lib.drop_beBytes 4 _ _
  have h14 : (s.toBytes ++ rest).drop 14 = Lib.leBytes 4 s.lastSeenSeq.toNat ++ rest := by
    rw [show (14 : Nat) = 10 + 4 from rfl, ← List.drop_drop, h10]
    exact Lib.drop_beBytes 4 _ _
  have h0 : Lib.beNat 6 (s.toBytes ++ rest) = s.mac.toNat % 256 ^ 6 := by
    rw [StoredLease.toBytes]
    simp only [List.append_assoc]
    exact Lib.beNat_beBytes 6 _ _
  unfold StoredLease.ofBytes
  rw [h0, h6, h10, h14, Lib.beNat_beBytes, Lib.beNat_beBytes, Lib.leNat_leBytes]
  rw [Lib.ofNat_toNat_mod _ _ (by norm_num), Lib.ofNat_toNat_mod _ _ (by norm_num),
    Lib.ofNat_toNat_mod _ _ (by norm_num), Lib.ofNat_toNat_mod _ _ (by norm_num)]

/-- A header of this version written is read back, from its first bytes or from all of
    them. -/
theorem StoredHdr.ofBytes_toBytes (hm : hdr.magic < 256 ^ 4) (hv : hdr.version < 256 ^ 2)
    (hc : hdr.count < 256 ^ 2) : StoredHdr.ofBytes (hdr.toBytes ++ rest) = hdr := by
  have h4 : (hdr.toBytes ++ rest).drop 4 = Lib.leBytes 2 hdr.version ++
      (Lib.leBytes 2 hdr.count ++ (Lib.leBytes 4 hdr.bootSeq.toNat ++ rest)) := by
    rw [StoredHdr.toBytes]
    simp only [List.append_assoc]
    exact Lib.drop_leBytes 4 _ _
  have h6 : (hdr.toBytes ++ rest).drop 6 =
      Lib.leBytes 2 hdr.count ++ (Lib.leBytes 4 hdr.bootSeq.toNat ++ rest) := by
    rw [show (6 : Nat) = 4 + 2 from rfl, ← List.drop_drop, h4]
    exact Lib.drop_leBytes 2 _ _
  have h8 : (hdr.toBytes ++ rest).drop 8 = Lib.leBytes 4 hdr.bootSeq.toNat ++ rest := by
    rw [show (8 : Nat) = 6 + 2 from rfl, ← List.drop_drop, h6]
    exact Lib.drop_leBytes 2 _ _
  have h0 : Lib.leNat 4 (hdr.toBytes ++ rest) = hdr.magic % 256 ^ 4 := by
    rw [StoredHdr.toBytes]
    simp only [List.append_assoc]
    exact Lib.leNat_leBytes 4 _ _
  unfold StoredHdr.ofBytes
  rw [h0, h4, h6, h8, Lib.leNat_leBytes, Lib.leNat_leBytes, Lib.leNat_leBytes,
    Nat.mod_eq_of_lt hm, Nat.mod_eq_of_lt hv, Nat.mod_eq_of_lt hc,
    Lib.ofNat_toNat_mod _ _ (by norm_num)]

/-- The first eight bytes of a header are enough for everything but its generation. -/
theorem StoredHdr.ofBytes_short (hdr : StoredHdr) (hm : hdr.magic < 256 ^ 4)
    (hv : hdr.version < 256 ^ 2) (hc : hdr.count < 256 ^ 2) :
    StoredHdr.ofBytes ((hdr.toBytes ++ rest).take 8) = { hdr with bootSeq := 0 } := by
  have hcut : (hdr.toBytes ++ rest).take 8 =
      Lib.leBytes 4 hdr.magic ++
        (Lib.leBytes 2 hdr.version ++ (Lib.leBytes 2 hdr.count ++ [])) := by
    rw [StoredHdr.toBytes, List.append_assoc, List.take_append_of_le_length (by simp),
      List.take_of_length_le (by simp)]
    simp
  unfold StoredHdr.ofBytes
  rw [hcut, Lib.leNat_leBytes, Lib.drop_leBytes, Lib.leNat_leBytes,
    show (6 : Nat) = 4 + 2 from rfl, ← List.drop_drop, Lib.drop_leBytes, Lib.drop_leBytes,
    Lib.leNat_leBytes, show (8 : Nat) = 4 + (2 + 2) from rfl, ← List.drop_drop,
    Lib.drop_leBytes, ← List.drop_drop, Lib.drop_leBytes, Lib.drop_leBytes,
    Nat.mod_eq_of_lt hm, Nat.mod_eq_of_lt hv, Nat.mod_eq_of_lt hc]
  rfl

theorem flatMap_toBytes_length : (recs.flatMap StoredLease.toBytes).length = recs.length * 18 :=
  Lib.flatMap_length (fun _ => StoredLease.toBytes_length) recs

theorem ofBytes_flatMap {i : Nat} (hi : i < recs.length) :
    StoredLease.ofBytes (((recs.flatMap StoredLease.toBytes).drop (i * 18)).take 18) =
      recs[i] := by
  rw [Lib.drop_flatMap fun _ => StoredLease.toBytes_length, List.drop_eq_getElem_cons hi,
    List.flatMap_cons, List.take_append_of_le_length (by simp),
    List.take_of_length_le (by simp)]
  simpa using StoredLease.ofBytes_toBytes recs[i] []

theorem encodeBlob_length (bootSeq : BitVec 32) (recs : List StoredLease) :
    (encodeBlob bootSeq recs).length = 12 + recs.length * 18 := by
  simp only [encodeBlob, List.length_append, StoredHdr.toBytes_length, flatMap_toBytes_length]

theorem readHdr_encodeBlob {bootSeq : BitVec 32} (hlen : recs.length ≤ maxLeases) :
    readHdr (encodeBlob bootSeq recs) =
      some ⟨storeMagic, storeVersion, recs.length, bootSeq⟩ := by
  have hle : recs.length ≤ 32 := hlen
  have hsize := encodeBlob_length bootSeq recs
  have hm : storeMagic < 256 ^ 4 := by norm_num [storeMagic]
  have hv : storeVersion < 256 ^ 2 := by norm_num [storeVersion]
  have hc : recs.length < 256 ^ 2 := by omega
  have hshort : StoredHdr.ofBytes ((encodeBlob bootSeq recs).take (storedHdrLen 1)) =
      ⟨storeMagic, storeVersion, recs.length, 0⟩ :=
    StoredHdr.ofBytes_short ⟨storeMagic, storeVersion, recs.length, bootSeq⟩ hm hv hc
  have htake : (encodeBlob bootSeq recs).take (storedHdrLen storeVersion) =
      StoredHdr.toBytes ⟨storeMagic, storeVersion, recs.length, bootSeq⟩ ++ [] := by
    rw [encodeBlob, List.take_append_of_le_length (by simp [storedHdrLen, storeVersion]),
      List.take_of_length_le (by simp [storedHdrLen, storeVersion]), List.append_nil]
  have hmax : blobMax = 588 := rfl
  have hlen1 : storedHdrLen 1 = 8 := rfl
  have hlen3 : storedHdrLen storeVersion = 12 := rfl
  unfold readHdr
  dsimp only
  rw [if_neg (by omega), hshort]
  dsimp only
  rw [if_neg (by simp [storeVersion]), if_neg (by omega), htake,
    StoredHdr.ofBytes_toBytes hm hv hc]

/-- **A blob written here is read back as it was written**: this version's header, and
    the records in order. -/
theorem parseBlob_encodeBlob {bootSeq : BitVec 32} (hlen : recs.length ≤ maxLeases) :
    parseBlob (encodeBlob bootSeq recs) =
      some (⟨storeMagic, storeVersion, recs.length, bootSeq⟩, recs) := by
  have hsize := encodeBlob_length bootSeq recs
  have hlen3 : storedHdrLen storeVersion = 12 := rfl
  have hrec3 : storedRecLen storeVersion = 18 := rfl
  have hdrop : ∀ n, (encodeBlob bootSeq recs).drop (12 + n) =
      (recs.flatMap StoredLease.toBytes).drop n := by
    intro n
    rw [← List.drop_drop, encodeBlob, List.drop_left' StoredHdr.toBytes_length]
  have hrecs : readRecords (encodeBlob bootSeq recs)
      ⟨storeMagic, storeVersion, recs.length, bootSeq⟩ = recs := by
    unfold readRecords
    dsimp only
    rw [hlen3, hrec3]
    apply List.ext_getElem
    · simp
    · intro i hi hi'
      simp only [List.getElem_map, List.getElem_range, hdrop]
      exact ofBytes_flatMap hi'
  unfold parseBlob
  rw [readHdr_encodeBlob hlen]
  dsimp only
  rw [hlen3, hrec3, if_neg (by omega), hrecs]

end

end Dhcp
end Wt32Router
