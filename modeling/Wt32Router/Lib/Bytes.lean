import Mathlib.Data.List.Basic
import Mathlib.Tactic.Ring

/-!
# Packed records of fixed-width words

The layout of a packed C structure on a little-endian machine: each field is a word
of `w` bytes, least significant first (`leBytes`), or most significant first when the
field is kept in network order (`beBytes`), and a record is the concatenation of its
fields.

Reading is by offset, as `memcpy` into a zeroed structure does it: bytes past the end
of the list read as 0. So a record cut short reads as the whole record with its
missing fields 0, and no second decoder is needed for an older, shorter layout.
-/

namespace Wt32Router
namespace Lib

def leBytes : Nat → Nat → List UInt8
  | 0, _ => []
  | w + 1, n => UInt8.ofNat (n % 256) :: leBytes w (n / 256)

/-- The number `w` bytes at the head of a list stand for, least significant first;
    bytes that are not there read as 0. -/
def leNat : Nat → List UInt8 → Nat
  | 0, _ => 0
  | w + 1, bs => (bs.headD 0).toNat + 256 * leNat w bs.tail

def beBytes (w n : Nat) : List UInt8 := (leBytes w n).reverse

/-- The number the first `w` bytes stand for, most significant first. -/
def beNat : Nat → List UInt8 → Nat
  | 0, _ => 0
  | w + 1, bs => (bs.headD 0).toNat * 256 ^ w + beNat w bs.tail

@[simp] theorem leBytes_length (w n : Nat) : (leBytes w n).length = w := by
  induction w generalizing n with
  | zero => rfl
  | succ w ih => simp [leBytes, ih]

@[simp] theorem beBytes_length (w n : Nat) : (beBytes w n).length = w := by
  simp [beBytes]

theorem byte_toNat (n : Nat) : (UInt8.ofNat (n % 256)).toNat = n % 256 := by
  simp

theorem leNat_leBytes (w n : Nat) (bs : List UInt8) :
    leNat w (leBytes w n ++ bs) = n % 256 ^ w := by
  induction w generalizing n with
  | zero => simp [leNat, Nat.mod_one]
  | succ w ih =>
    simp only [leBytes, leNat, List.cons_append, List.headD_cons, List.tail_cons, ih,
      byte_toNat]
    rw [pow_succ', Nat.mod_mul]

theorem beNat_append (w : Nat) : ∀ (xs bs : List UInt8), xs.length = w →
    beNat w (xs ++ bs) = beNat w xs := by
  induction w with
  | zero => intro xs bs _; rfl
  | succ w ih =>
    intro xs bs hx
    cases xs with
    | nil => simp at hx
    | cons x xs =>
      simp only [beNat, List.cons_append, List.headD_cons, List.tail_cons]
      rw [ih xs bs (by simpa using hx)]

theorem beNat_snoc (w : Nat) : ∀ (xs : List UInt8) (b : UInt8), xs.length = w →
    beNat (w + 1) (xs ++ [b]) = beNat w xs * 256 + b.toNat := by
  induction w with
  | zero =>
    intro xs b hx
    have hnil : xs = [] := List.length_eq_zero_iff.mp hx
    simp [hnil, beNat]
  | succ w ih =>
    intro xs b hx
    cases xs with
    | nil => simp at hx
    | cons x xs =>
      have hstep := ih xs b (by simpa using hx)
      rw [show x :: xs ++ [b] = x :: (xs ++ [b]) from rfl, beNat]
      simp only [List.headD_cons, List.tail_cons]
      rw [hstep, beNat]
      simp only [List.headD_cons, List.tail_cons]
      ring

theorem beNat_beBytes (w n : Nat) (bs : List UInt8) :
    beNat w (beBytes w n ++ bs) = n % 256 ^ w := by
  rw [beNat_append w _ _ (beBytes_length w n)]
  induction w generalizing n with
  | zero => simp [beNat, Nat.mod_one]
  | succ w ih =>
    have hcut : beBytes (w + 1) n = beBytes w (n / 256) ++ [UInt8.ofNat (n % 256)] := by
      simp [beBytes, leBytes]
    rw [hcut, beNat_snoc w _ _ (beBytes_length w _), ih, byte_toNat, pow_succ', Nat.mod_mul]
    ring

theorem drop_leBytes (w n : Nat) (bs : List UInt8) : (leBytes w n ++ bs).drop w = bs :=
  List.drop_left' (leBytes_length w n)

theorem drop_beBytes (w n : Nat) (bs : List UInt8) : (beBytes w n ++ bs).drop w = bs :=
  List.drop_left' (beBytes_length w n)

theorem beNat_lt (w : Nat) (bs : List UInt8) : beNat w bs < 256 ^ w := by
  induction w generalizing bs with
  | zero => exact Nat.one_pos
  | succ w ih =>
    have hhead : (bs.headD 0).toNat ≤ 255 := Nat.le_of_lt_succ (UInt8.toNat_lt _)
    calc (bs.headD 0).toNat * 256 ^ w + beNat w bs.tail
        < (bs.headD 0).toNat * 256 ^ w + 256 ^ w := Nat.add_lt_add_left (ih _) _
      _ = ((bs.headD 0).toNat + 1) * 256 ^ w := by ring
      _ ≤ 256 * 256 ^ w := Nat.mul_le_mul_right _ (by omega)
      _ = 256 ^ (w + 1) := (pow_succ' 256 w).symm

/-- A word is read the same from a prefix that holds it. -/
theorem beNat_take (w : Nat) : ∀ (bs : List UInt8) (n : Nat), w ≤ n →
    beNat w (bs.take n) = beNat w bs := by
  induction w with
  | zero => intro bs n _; rfl
  | succ w ih =>
    intro bs n hn
    cases n with
    | zero => exact absurd hn (by omega)
    | succ n =>
      cases bs with
      | nil => rfl
      | cons b bs =>
        simp only [beNat, List.take_succ_cons, List.headD_cons, List.tail_cons]
        rw [ih bs n (by omega)]

theorem beNat_drop_take (bs : List UInt8) {n off : Nat} (w : Nat) (h : off + w ≤ n) :
    beNat w ((bs.take n).drop off) = beNat w (bs.drop off) := by
  rw [List.drop_take]
  exact beNat_take w _ _ (by omega)

theorem getD_take (bs : List UInt8) {n i : Nat} (h : i < n) :
    (bs.take n).getD i 0 = bs.getD i 0 := by
  rw [List.getD_eq_getElem?_getD, List.getD_eq_getElem?_getD, List.getElem?_take_of_lt h]

theorem drop_add_of {bs rest : List UInt8} {m : Nat} (h : bs.drop m = rest) (n : Nat) :
    bs.drop (m + n) = rest.drop n := by
  rw [← List.drop_drop, h]

/-- A word of `w` bytes holds a bit vector of `8 * w` bits exactly. -/
theorem ofNat_toNat_mod {w : Nat} (x : BitVec w) (n : Nat) (h : 2 ^ w ≤ n) :
    BitVec.ofNat w (x.toNat % n) = x := by
  rw [Nat.mod_eq_of_lt (Nat.lt_of_lt_of_le x.isLt h), BitVec.ofNat_toNat, BitVec.setWidth_eq]

theorem toNat_succ {w : Nat} {x : BitVec w} (h : x.toNat + 1 < 2 ^ w) :
    (x + 1).toNat = x.toNat + 1 := by
  have hone : (1 : BitVec w).toNat = 1 := Nat.mod_eq_of_lt (show 1 < 2 ^ w by omega)
  rw [BitVec.toNat_add_of_lt (by rw [hone]; exact h), hone]

/-- A counter that goes up by one, or wraps. -/
theorem toNat_succ_le {w : Nat} {x : BitVec w} : (x + 1).toNat ≤ x.toNat + 1 := by
  rw [BitVec.toNat_add]
  exact (Nat.mod_le _ _).trans (Nat.add_le_add_left (Nat.mod_le _ _) _)

/-! ## Records of one size, one after the other -/

section

variable {α : Type*} {f : α → List UInt8} {k : Nat}

theorem flatMap_length (hf : ∀ x, (f x).length = k) (xs : List α) :
    (xs.flatMap f).length = xs.length * k := by
  induction xs with
  | nil => simp
  | cons x xs ih => simp [ih, hf, Nat.add_mul, Nat.add_comm]

theorem drop_flatMap (hf : ∀ x, (f x).length = k) (xs : List α) (i : Nat) :
    (xs.flatMap f).drop (i * k) = (xs.drop i).flatMap f := by
  induction xs generalizing i with
  | nil => simp
  | cons x xs ih =>
    cases i with
    | zero => simp
    | succ i =>
      rw [List.flatMap_cons, Nat.add_mul, Nat.one_mul, Nat.add_comm, ← List.drop_drop,
        List.drop_left' (hf x), ih, List.drop_succ_cons]

end

end Lib
end Wt32Router
