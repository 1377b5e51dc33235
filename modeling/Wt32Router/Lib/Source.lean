import Wt32Router.Lib.Memory

/-!
# Reading from a source of bytes

A socket, a pipe or a file gives what it has when it is asked: some of the bytes, or none and a
number that says why. What is still to come is part of the source's state, and a source that
`Delivers` hands it on in order and each byte once, never more of them than was asked for.

So what a reader has in its buffer and what is still to come are together what was to come at
first, however the reads fall (`Delivers.load_store`).
-/

namespace Wt32Router
namespace Lib

universe u

/-- What a read comes to: the number it returns, what it leaves at the place it was given, and the
    source behind it. -/
structure ReadResult (σ : Type u) where
  ret : Int
  data : List UInt8
  next : σ

/-- A positive number says how many bytes there are, which are the next ones. Any other says that
    there are none: the place may have been written to, as far as the read was asked for. `idle`
    is the number that says to try again. -/
structure Delivers {σ : Type u} (read : σ → Nat → ReadResult σ) (rest : σ → List UInt8)
    (idle : Int) : Prop where
  inside : ∀ s n, (read s n).data.length ≤ n
  count : ∀ s n, 0 < (read s n).ret → (read s n).ret = (read s n).data.length
  order : ∀ s n, 0 < (read s n).ret → rest s = (read s n).data ++ rest (read s n).next
  keeps : ∀ s n, (read s n).ret = idle → rest (read s n).next = rest s

section

variable {σ : Type u} {read : σ → Nat → ReadResult σ} {rest : σ → List UInt8} {idle : Int}
  {s : σ} {m : Memory} {i j n : Nat}

theorem Delivers.data_pos (h : Delivers read rest idle) (hret : 0 < (read s n).ret) :
    0 < (read s n).data.length := by
  have hcount := h.count s n hret
  omega

/-- A read writes no further than it was asked to. -/
theorem Delivers.frame (h : Delivers read rest idle) (hj : i + n ≤ j) :
    store m i (read s n).data j = m j :=
  store_frame (.inr (Nat.le_trans (Nat.add_le_add_left (h.inside s n) i) hj))

/-- **What has been read and what is still to come** are together the same after a read. -/
theorem Delivers.load_store (h : Delivers read rest idle) (hret : 0 < (read s n).ret) :
    load (store m i (read s n).data) (i + (read s n).data.length) ++ rest (read s n).next =
      load m i ++ rest s := by
  rw [Lib.load_store, List.append_assoc, ← h.order s n hret]

/-- A read that is to be tried again leaves both. -/
theorem Delivers.load_store_idle (h : Delivers read rest idle) (hret : (read s n).ret = idle) :
    load (store m i (read s n).data) i ++ rest (read s n).next = load m i ++ rest s := by
  rw [load_store_of_le (Nat.le_refl i), h.keeps s n hret]

end

end Lib
end Wt32Router
