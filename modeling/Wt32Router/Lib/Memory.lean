import Mathlib.Algebra.Group.Nat.Defs
import Mathlib.Data.List.Basic
import Mathlib.Logic.Function.Basic

/-!
# A buffer in memory

Memory is counted from the first byte of a buffer. The buffer's end is not part of it: what lies
behind is memory too, and that a write stops short of it is a theorem.

`vsnprintf` is what C documents: as much of the text as fits with a NUL behind it, and the length
of all of it, or a negative number where the text cannot be made, which leaves some text of no
use.
-/

namespace Wt32Router
namespace Lib

abbrev Memory := Nat → UInt8

def store : Memory → Nat → List UInt8 → Memory
  | m, _, [] => m
  | m, i, b :: bs => store (Function.update m i b) (i + 1) bs

/-- The first `n` bytes. -/
def load (m : Memory) (n : Nat) : List UInt8 := (List.range n).map m

/-- What becomes of a format and its arguments. -/
inductive Formatted where
  | text (s : List UInt8) (h : s.length < 2 ^ 31)
  | error (part : List UInt8)

namespace Formatted

def written : Formatted → List UInt8
  | text s _ => s
  | error part => part

/-- A text longer than an `int` counts is an error. -/
def ofText (s : List UInt8) : Formatted := if h : s.length < 2 ^ 31 then text s h else error s

theorem ofText_of_lt {s : List UInt8} (h : s.length < 2 ^ 31) : ofText s = text s h := dif_pos h

/-- What `vsnprintf` returns. -/
def result : Formatted → BitVec 32
  | text s _ => BitVec.ofNat 32 s.length
  | error _ => -1

end Formatted

def vsnprintf (m : Memory) (i size : Nat) (f : Formatted) : Memory :=
  if size = 0 then m else store m i (f.written.take (size - 1) ++ [0])

section

variable {m m' : Memory} {i j n size : Nat} {bs s : List UInt8} {f : Formatted}

/-- A write changes the bytes it writes and no others. -/
theorem store_frame (h : j < i ∨ i + bs.length ≤ j) : store m i bs j = m j := by
  induction bs generalizing m i with
  | nil => rfl
  | cons b bs ih =>
    rw [List.length_cons] at h
    rw [store, ih (by omega), Function.update_of_ne (by omega)]

theorem load_congr (h : ∀ j < n, m' j = m j) : load m' n = load m n :=
  List.map_congr_left fun j hj => h j (List.mem_range.mp hj)

theorem load_succ (m : Memory) (n : Nat) : load m (n + 1) = load m n ++ [m n] := by
  unfold load
  rw [List.range_succ, List.map_append]
  rfl

theorem load_add (m : Memory) (n k : Nat) : load m (n + k) = load m n ++ load (m <| n + ·) k := by
  unfold load
  rw [List.range_add, List.map_append, List.map_map]
  rfl

/-- What is written behind the first bytes follows them. -/
theorem load_store (m : Memory) (i : Nat) (bs : List UInt8) :
    load (store m i bs) (i + bs.length) = load m i ++ bs := by
  induction bs generalizing m i with
  | nil => exact (List.append_nil _).symm
  | cons b bs ih =>
    have hfront : load (Function.update m i b) i = load m i :=
      load_congr fun j hj => Function.update_of_ne (Nat.ne_of_lt hj) _ _
    rw [store, List.length_cons, Nat.add_comm bs.length, ← Nat.add_assoc, ih, load_succ, hfront,
      Function.update_self, List.append_assoc]
    rfl

theorem store_append (m : Memory) (i : Nat) (bs cs : List UInt8) :
    store m i (bs ++ cs) = store (store m i bs) (i + bs.length) cs := by
  induction bs generalizing m i with
  | nil => rfl
  | cons b bs ih =>
    rw [List.cons_append, store, ih, store, List.length_cons, Nat.add_right_comm, Nat.add_assoc]

/-- A write behind the first bytes leaves them. -/
theorem load_store_of_le (h : n ≤ i) : load (store m i bs) n = load m n :=
  load_congr fun _ hj => store_frame (.inl (Nat.lt_of_lt_of_le hj h))

theorem vsnprintf_frame (h : j < i ∨ i + size ≤ j) : vsnprintf m i size f j = m j := by
  unfold vsnprintf
  split
  · rfl
  · refine store_frame ?_
    rw [List.length_append, List.length_take, List.length_singleton]
    omega

/-- A text that fits with its NUL is written whole. -/
theorem load_vsnprintf (h : s.length < 2 ^ 31) (hfits : s.length < size) :
    load (vsnprintf m i size (.text s h)) (i + s.length) = load m i ++ s := by
  unfold vsnprintf
  rw [if_neg (by omega), Formatted.written, List.take_of_length_le (by omega), store_append,
    load_store_of_le (Nat.le_refl _), load_store]

/-- A text that does not fit ends with its NUL at the end of the room. -/
theorem vsnprintf_cut (hpos : 0 < size) (hcut : size ≤ f.written.length) :
    vsnprintf m i size f (i + (size - 1)) = 0 := by
  have hlen : (f.written.take (size - 1)).length = size - 1 := by
    rw [List.length_take]
    omega
  unfold vsnprintf
  rw [if_neg (by omega), store_append, hlen]
  exact Function.update_self _ _ _

end

end Lib
end Wt32Router
