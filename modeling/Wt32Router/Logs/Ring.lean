import Mathlib.Data.Fin.Basic
import Mathlib.Logic.Function.Basic

/-!
# The ring of log lines

`main/log_buf.c` stores the last 128 lines. A line's sequence number is the count of lines at
the time it was stored, so it is not stored with it: the slot of number `seq` is
`(seq - 1) % 128`, and whether the slot still holds that line follows from the count.

Here a line is committed whole. How it is put together from the fragments of several tasks is
not in this file.
-/

namespace Wt32Router
namespace Logs

def logBufLines : Nat := 128

/-- `log_line_t`. -/
structure LogLine where
  tsMs : BitVec 32 := 0
  level : Char := '?'
  tag : List UInt8 := []
  msg : List UInt8 := []
deriving DecidableEq, Repr

/-- `s_lines`, `s_total` and `s_missed`. -/
structure Ring where
  lines : Fin logBufLines → LogLine
  total : BitVec 32
  missed : BitVec 32

def Ring.start : Ring := ⟨fun _ => {}, 0, 0⟩

def slotOf (seq : BitVec 32) : Fin logBufLines :=
  ⟨(seq - 1).toNat % logBufLines, Nat.mod_lt _ (by decide)⟩

def Ring.commit (r : Ring) (line : LogLine) : Ring :=
  { r with
    lines := Function.update r.lines (slotOf (r.total + 1)) line
    total := r.total + 1 }

/-- `log_buf_get_range`: oldest, newest and missed. -/
def Ring.getRange (r : Ring) : BitVec 32 × BitVec 32 × BitVec 32 :=
  (if BitVec.ofNat 32 logBufLines < r.total then r.total - BitVec.ofNat 32 logBufLines + 1 else 1,
    r.total, r.missed)

/-- `log_buf_get_line`. -/
def Ring.getLine (r : Ring) (seq : BitVec 32) : Option LogLine :=
  if seq ≠ 0 ∧ seq ≤ r.total ∧ r.total - seq < BitVec.ofNat 32 logBufLines then
    some (r.lines (slotOf seq))
  else none

section

variable {r : Ring} {seq : BitVec 32}

theorem getRange_oldest :
    r.getRange.1.toNat = if logBufLines < r.total.toNat then r.total.toNat - 127 else 1 := by
  have hlt := r.total.isLt
  unfold Ring.getRange logBufLines
  dsimp only
  by_cases h : 128 < r.total.toNat
  · have hv : BitVec.ofNat 32 128 < r.total := by
      rw [BitVec.lt_def]
      exact h
    rw [if_pos hv, if_pos h]
    bv_omega
  · have hv : ¬ BitVec.ofNat 32 128 < r.total := by
      rw [BitVec.lt_def]
      exact h
    rw [if_neg hv, if_neg h]
    rfl

/-- A line of a number already given out that is not held is more than 128 lines old. -/
theorem getLine_none (h : r.getLine seq = none) (hpos : 0 < seq.toNat)
    (hle : seq.toNat ≤ r.total.toNat) : seq.toNat + logBufLines ≤ r.total.toNat := by
  unfold Ring.getLine at h
  split at h
  · exact absurd h (by simp)
  · rename_i hno
    by_contra hlt
    refine hno ⟨?_, ?_, ?_⟩
    · rintro rfl
      exact absurd hpos (by simp)
    · rw [BitVec.le_def]
      exact hle
    · rw [BitVec.lt_def]
      unfold logBufLines at *
      bv_omega

end

end Logs
end Wt32Router
