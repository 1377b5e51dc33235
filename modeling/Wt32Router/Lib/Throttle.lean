import Mathlib.Algebra.GroupWithZero.Nat
import Mathlib.Data.BitVec
import Mathlib.Data.List.Basic

/-!
# A reporter that holds back

Something that may happen at any rate is reported at most once in an interval, and what was held
back in between is counted, and told with the next report. Time is a counter of ticks that runs
over; the interval is judged by the difference of two of its values.

> **`Throttle.reports_spaced`**: two reports are an interval apart, however often the counter has
> run over between them.

> **`Throttle.reports_count`**: every offer is in the count of one report, or is still held.

The difference is that of the counter, so an offer that comes a round of the counter after the last
report, and less than an interval more, is held back as one that comes right behind it
(`Throttle.offer_none_iff`). It is counted all the same.
-/

namespace Wt32Router
namespace Lib

/-- `pdMS_TO_TICKS`, at so many ticks a second. -/
def pdMsToTicks (hz ms : Nat) : BitVec 32 := BitVec.ofNat 32 (ms * hz / 1000)

theorem pdMsToTicks_seconds (n hz : Nat) (h : n * hz < 4294967296) :
    (pdMsToTicks hz (1000 * n)).toNat = n * hz := by
  unfold pdMsToTicks
  rw [Nat.mul_assoc, Nat.mul_div_cancel_left _ (by decide), BitVec.toNat_ofNat,
    Nat.mod_eq_of_lt h]

/-- A report has gone out; the tick of the last one; and how many offers it has held back since. -/
structure Throttle where
  begun : Bool
  last : BitVec 32
  held : BitVec 32
deriving DecidableEq, Repr

namespace Throttle

def start : Throttle := ⟨false, 0, 0⟩

/-- Whether an offer at this tick comes too early. -/
def early (interval now : BitVec 32) (s : Throttle) : Bool :=
  s.begun && decide (now - s.last < interval)

/-- An offer: held back, or reported with the number of those that were. -/
def offer (interval now : BitVec 32) (s : Throttle) : Throttle × Option (BitVec 32) :=
  if s.early interval now then ({ s with held := s.held + 1 }, none)
  else (⟨true, now, 0⟩, some s.held)

/-- The counter of ticks at a time. -/
def tickAt (t : Nat) : BitVec 32 := BitVec.ofNat 32 t

/-- The reports that offers at these times make: when each goes out, and what it counts. -/
def reports (interval : BitVec 32) : Throttle → List Nat → List (Nat × BitVec 32)
  | _, [] => []
  | s, t :: ts =>
    match s.offer interval (tickAt t) with
    | (s, none) => reports interval s ts
    | (s, some n) => (t, n) :: reports interval s ts

/-- Where they end. -/
def after (interval : BitVec 32) (s : Throttle) (ts : List Nat) : Throttle :=
  ts.foldl (fun s t => (s.offer interval (tickAt t)).1) s

/-- The last report was at this time. -/
def LastAt (s : Throttle) (t : Nat) : Prop := s.begun = true → s.last = tickAt t

section

variable {interval now : BitVec 32} {s : Throttle} {t t₀ : Nat} {ts : List Nat}

/-- The counter's difference is what remains of that of the times. -/
theorem toNat_tickAt_sub (h : t₀ ≤ t) : (tickAt t - tickAt t₀).toNat = (t - t₀) % 2 ^ 32 := by
  unfold tickAt
  rw [BitVec.toNat_sub, BitVec.toNat_ofNat, BitVec.toNat_ofNat]
  omega

theorem tickAt_sub (h : t₀ ≤ t) (hlt : t - t₀ < 4294967296) :
    (tickAt t - tickAt t₀).toNat = t - t₀ :=
  (toNat_tickAt_sub h).trans (Nat.mod_eq_of_lt hlt)

theorem tickAt_inj (h : t₀ ≤ t) (hlt : t - t₀ < 4294967296) : tickAt t = tickAt t₀ ↔ t = t₀ := by
  refine ⟨fun heq => ?_, fun heq => by rw [heq]⟩
  have hsub := tickAt_sub h hlt
  rw [heq, BitVec.sub_self, BitVec.toNat_zero] at hsub
  omega

/-- **An offer is held back** exactly if the last report was less than an interval ago, full
    rounds of the counter apart. -/
theorem offer_none_iff (hlast : s.LastAt t₀) (h : t₀ ≤ t) :
    (s.offer interval (tickAt t)).2 = none ↔
      s.begun = true ∧ (t - t₀) % 2 ^ 32 < interval.toNat := by
  have hearly : s.early interval (tickAt t) = true ↔
      s.begun = true ∧ (t - t₀) % 2 ^ 32 < interval.toNat := by
    unfold early
    rw [Bool.and_eq_true, decide_eq_true_iff]
    refine and_congr_right fun hbegun => ?_
    rw [hlast hbegun, BitVec.lt_def, toNat_tickAt_sub h]
  rw [← hearly]
  unfold offer
  split
  · rename_i hyes
    exact iff_of_true rfl hyes
  · rename_i hno
    exact iff_of_false (by simp) hno

theorem offer_held (h : (s.offer interval now).2 = none) :
    (s.offer interval now).1 = { s with held := s.held + 1 } := by
  unfold offer at h ⊢
  split at h
  · rename_i hyes
    rw [if_pos hyes]
  · exact absurd h (by simp)

theorem offer_reported {n : BitVec 32} (h : (s.offer interval now).2 = some n) :
    (s.offer interval now).1 = ⟨true, now, 0⟩ ∧ n = s.held := by
  unfold offer at h ⊢
  split at h
  · exact absurd h (by simp)
  · rename_i hno
    rw [if_neg hno]
    exact ⟨rfl, (Option.some.inj h).symm⟩

theorem reports_cons (interval : BitVec 32) (s : Throttle) (t : Nat) (ts : List Nat) :
    reports interval s (t :: ts) =
      ((s.offer interval (tickAt t)).2.map fun n => (t, n)).toList ++
        reports interval (s.offer interval (tickAt t)).1 ts := by
  rw [reports]
  cases h : s.offer interval (tickAt t) with
  | mk s' out => cases out <;> rfl

/-- One offer moves the last report to its own time, or leaves it where it was. -/
theorem offer_lastAt (interval : BitVec 32) (t : Nat) (hlast : s.LastAt t₀) :
    (s.offer interval (tickAt t)).1.LastAt
      (if (s.offer interval (tickAt t)).2 = none then t₀ else t) := by
  cases h : (s.offer interval (tickAt t)).2 with
  | none =>
    rw [offer_held h, if_pos rfl]
    exact hlast
  | some n =>
    rw [(offer_reported h).1, if_neg (by simp)]
    exact fun _ => rfl

/-- A report comes an interval behind the one before. -/
theorem reports_behind (hlast : s.LastAt t₀) (hfrom : ∀ t ∈ ts, t₀ ≤ t)
    (hts : ts.Pairwise (· ≤ ·)) (hbegun : s.begun = true) :
    ∀ r ∈ reports interval s ts, t₀ + interval.toNat ≤ r.1 := by
  induction ts generalizing s t₀ with
  | nil => exact fun r hr => absurd hr List.not_mem_nil
  | cons t ts ih =>
    obtain ⟨hle, hfrom⟩ := List.forall_mem_cons.mp hfrom
    obtain ⟨hafter, hts⟩ := List.pairwise_cons.mp hts
    rw [reports_cons]
    cases h : (s.offer interval (tickAt t)).2 with
    | none =>
      have hstate := offer_held h
      rw [hstate]
      exact ih (s := { s with held := s.held + 1 }) hlast hfrom hts hbegun
    | some n =>
      have hgap : t₀ + interval.toNat ≤ t := by
        have hnot : ¬(s.begun = true ∧ (t - t₀) % 2 ^ 32 < interval.toNat) := fun hheld =>
          absurd ((offer_none_iff hlast hle).mpr hheld) (by simp [h])
        have hmod := Nat.mod_le (t - t₀) (2 ^ 32)
        have hfar : interval.toNat ≤ (t - t₀) % 2 ^ 32 :=
          Nat.not_lt.mp fun hlt => hnot ⟨hbegun, hlt⟩
        omega
      have hstate := (offer_reported h).1
      intro r hr
      rcases List.mem_append.mp hr with hr | hr
      · obtain rfl := by simpa using hr
        exact hgap
      · rw [hstate] at hr
        have hnow : Throttle.LastAt ⟨true, tickAt t, 0⟩ t := fun _ => rfl
        have hnext := ih hnow hafter hts rfl r hr
        omega

/-- **Reports are an interval apart**, whatever the counter has done between them. -/
theorem reports_spaced (interval : BitVec 32) (hlast : s.LastAt t₀) (hfrom : ∀ t ∈ ts, t₀ ≤ t)
    (hts : ts.Pairwise (· ≤ ·)) :
    (reports interval s ts).Pairwise fun a b => a.1 + interval.toNat ≤ b.1 := by
  induction ts generalizing s t₀ with
  | nil => exact .nil
  | cons t ts ih =>
    obtain ⟨hle, hfrom⟩ := List.forall_mem_cons.mp hfrom
    obtain ⟨hafter, hts⟩ := List.pairwise_cons.mp hts
    have hnext := offer_lastAt interval t hlast
    rw [reports_cons]
    cases h : (s.offer interval (tickAt t)).2 with
    | none =>
      rw [h, if_pos rfl] at hnext
      exact ih hnext hfrom hts
    | some n =>
      rw [h, if_neg (by simp)] at hnext
      have hbegun : (s.offer interval (tickAt t)).1.begun = true := by
        rw [(offer_reported h).1]
      exact List.pairwise_cons.mpr
        ⟨reports_behind hnext hafter hts hbegun, ih hnext hafter hts⟩

/-- **Every offer is counted once**: in a report, which counts itself and those held back before
    it, or among those that are held back still. -/
theorem reports_count (interval : BitVec 32) (s : Throttle) (ts : List Nat) :
    ((reports interval s ts).map fun r => r.2 + 1).sum + (s.after interval ts).held =
      s.held + BitVec.ofNat 32 ts.length := by
  induction ts generalizing s with
  | nil => simp [reports, after]
  | cons t ts ih =>
    have hafter : s.after interval (t :: ts) =
        (s.offer interval (tickAt t)).1.after interval ts := rfl
    have hlength : BitVec.ofNat 32 (t :: ts).length = 1#32 + BitVec.ofNat 32 ts.length := by
      rw [List.length_cons, Nat.add_comm, BitVec.ofNat_add]
    rw [reports_cons, hafter, hlength]
    cases h : (s.offer interval (tickAt t)).2 with
    | none =>
      have hrest := ih (s.offer interval (tickAt t)).1
      rw [offer_held h] at hrest ⊢
      rw [Option.map_none, Option.toList_none, List.nil_append, hrest]
      exact BitVec.add_assoc _ _ _
    | some n =>
      obtain ⟨hstate, rfl⟩ := offer_reported h
      have hrest := ih (s.offer interval (tickAt t)).1
      rw [hstate] at hrest ⊢
      rw [Option.map_some, Option.toList_some, List.singleton_append, List.map_cons,
        List.sum_cons, BitVec.add_assoc, hrest]
      change s.held + 1#32 + (0#32 + BitVec.ofNat 32 ts.length) = _
      rw [BitVec.zero_add, BitVec.add_assoc]

end

end Throttle

end Lib
end Wt32Router
