import Mathlib.Data.List.Nodup
import Mathlib.Data.List.Perm.Subperm
import Wt32Router.Lib.Runs
import Wt32Router.Logs.Drain

/-!
# What the shipper counts

A line is sent, filtered, given up on, or gone from the ring before its turn came, and
`drain_pass` has a counter for each. `s_cursor` is what keeps a line from being counted twice:
whatever is counted is at or below it. Except at one place. The lines found missing when a pass
opens are counted there, and the cursor moves past them only with the first line of the loop. If
that one stalls, the next pass opens with the same cursor and counts them again.

> **`Shipper.accounting_exact`**: if no pass that opened on a gap stalls on its first line, and
> the numbering does not come round, then every number is counted once, every counter is the
> number of lines it stands for, and the cursor never goes back.

The ledger is ghost state: which numbers have been counted, and as what.
-/

namespace Wt32Router
namespace Logs

open Lib

/-! ## The ledger -/

inductive Fate where
  | agedOut
  | filtered
  | sent
  | gaveUp
deriving DecidableEq, Repr

structure Ledger where
  counted : List (Nat × Fate)
  /-- the failures that were not given up on -/
  stalls : Nat
deriving DecidableEq, Repr

def Ledger.count (l : Ledger) (f : Fate) : Nat := l.counted.countP (·.2 == f)

/-- How many of the numbers up to `total` are no longer held and were never sent. -/
def Ledger.leftUnsent (l : Ledger) (total : Nat) : Nat :=
  (List.range (total - logBufLines)).countP fun i => !l.counted.elem (i + 1, .sent)

/-- What becomes of the line whose turn it is, if it is counted. -/
def Shipper.fate (s : Shipper) (p : Pass) (o : Outcome) : Option Fate :=
  match s.ring.getLine p.seq with
  | none => some .agedOut
  | some line =>
    if s.minSeverity.toNat < severityFromLetter line.level then some .filtered
    else match o with
    | .unframed => none
    | .sent => some .sent
    | .noBuffers => if s.stalls < syslogStallMax then none else some .gaveUp
    | .failed => some .gaveUp

/-- The line whose turn it is reaches `sendto`, which has no buffers, and is to be retried. -/
def Shipper.stallsOn (s : Shipper) (p : Pass) (o : Outcome) : Bool :=
  p.more && o == .noBuffers && s.stalls < syslogStallMax &&
    (s.ring.getLine p.seq).any fun line => severityFromLetter line.level ≤ s.minSeverity.toNat

def gap (first n : Nat) : List (Nat × Fate) :=
  (List.range n).map fun i => (first + i, .agedOut)

/-- The numbers between the cursor and the oldest line held. -/
def Shipper.gone (s : Shipper) : List (Nat × Fate) :=
  gap (s.cursor.toNat + 1) (s.oldest.toNat - (s.cursor.toNat + 1))

def ledger (s : Shipper) (e : Event) (l : Ledger) : Ledger :=
  match e, s.pass with
  | .begin, none =>
    if s.overrun then { l with counted := l.counted ++ s.gone } else l
  | .turn o, some p =>
    if p.more then
      { counted := l.counted ++ (s.fate p o).toList.map fun f => (p.seq.toNat, f)
        stalls := if s.stallsOn p o then l.stalls + 1 else l.stalls }
    else l
  | _, _ => l

/-- The numbering does not come round, and a pass that opened on a gap does not stall on its
    first line. -/
def Accountable (s : Shipper) : Event → Prop
  | .log _ => s.ring.total.toNat < 4294967294
  | .begin => True
  | .turn o => ∀ p ∈ s.pass, s.stallsOn p o = true → s.cursor = 0 ∨ s.cursor + 1 = p.seq

instance (s : Shipper) : ∀ e, Decidable (Accountable s e)
  | .log _ => inferInstanceAs (Decidable (_ < _))
  | .begin => inferInstanceAs (Decidable True)
  | .turn o => match h : s.pass with
    | none => isTrue fun p hp => absurd (h ▸ hp) (by simp)
    | some p => decidable_of_iff (s.stallsOn p o = true → s.cursor = 0 ∨ s.cursor + 1 = p.seq)
        (by simp [Accountable, h])

/-- Every counter is the number of the lines it stands for, and no line is in two. -/
structure Exact (s : Shipper × Ledger) : Prop where
  once : (s.2.counted.map Prod.fst).Nodup
  agedOut : s.1.agedOut.toNat = s.2.count .agedOut
  filtered : s.1.filtered.toNat = s.2.count .filtered
  sent : s.1.sent.toNat = s.2.count .sent
  sendFail : s.1.sendFail = BitVec.ofNat 32 (s.2.count .gaveUp + s.2.stalls)
  lost : s.1.agedOut.toNat ≤ s.2.leftUnsent s.1.ring.total.toNat

/-- What carries the run: nothing at or past the next line has been counted. -/
structure Accounted (s : Shipper × Ledger) : Prop where
  total_lt : s.1.ring.total.toNat < 4294967295
  cursor_le : s.1.cursor.toNat ≤ s.1.ring.total.toNat
  increasing : (s.2.counted.map Prod.fst).Pairwise (· < ·)
  numbers : ∀ x ∈ s.2.counted, 0 < x.1 ∧ x.1 ≤ s.1.ring.total.toNat
  gone : ∀ x ∈ s.2.counted, x.2 = .agedOut → x.1 + logBufLines ≤ s.1.ring.total.toNat
  fresh : s.1.cursor = 0 → s.2.counted = []
  idle : s.1.pass = none → ∀ x ∈ s.2.counted, x.1 ≤ s.1.cursor.toNat
  loop : ∀ p ∈ s.1.pass, (∀ x ∈ s.2.counted, x.1 < p.seq.toNat) ∧
    s.1.cursor.toNat < p.seq.toNat ∧ p.newest.toNat ≤ s.1.ring.total.toNat ∧
    (s.1.cursor + 1 = p.seq ∨ p.more = true)
  agedOut : s.1.agedOut = BitVec.ofNat 32 (s.2.count .agedOut)
  filtered : s.1.filtered = BitVec.ofNat 32 (s.2.count .filtered)
  sent : s.1.sent = BitVec.ofNat 32 (s.2.count .sent)
  sendFail : s.1.sendFail = BitVec.ofNat 32 (s.2.count .gaveUp + s.2.stalls)

section

variable {s : Shipper} {l : Ledger} {p : Pass} {o : Outcome} {f : Fate}

/-! ## What one turn does -/

theorem body_stall (h : s.stallsOn p o = true) :
    s.body p o = s.noteFailure.stall p ∧ s.fate p o = none := by
  unfold Shipper.stallsOn at h
  unfold Shipper.body Shipper.fate
  cases hline : s.ring.getLine p.seq with
  | none => simp [hline] at h
  | some line =>
    obtain ⟨⟨⟨-, rfl⟩, hstalls⟩, hsev⟩ :
        ((p.more = true ∧ o = .noBuffers) ∧ s.stalls < syslogStallMax) ∧
          severityFromLetter line.level ≤ s.minSeverity.toNat := by
      simpa [hline, and_assoc] using h
    dsimp only
    rw [if_neg (Nat.not_lt.mpr hsev), if_neg (Nat.not_lt.mpr hsev), if_pos hstalls,
      if_pos hstalls]
    exact ⟨rfl, rfl⟩

theorem body_past (hmore : p.more = true) (h : s.stallsOn p o = false) :
    (s.body p o).cursor = p.seq ∧ (s.body p o).ring = s.ring ∧
      ∃ b, (s.body p o).pass = some { p with seq := p.seq + 1, budget := b } := by
  unfold Shipper.stallsOn at h
  unfold Shipper.body
  cases hline : s.ring.getLine p.seq with
  | none => exact ⟨rfl, rfl, _, rfl⟩
  | some line =>
    -- four of the five ways through the body set the cursor; the fifth is a stall
    dsimp only
    by_cases hsev : s.minSeverity.toNat < severityFromLetter line.level
    · rw [if_pos hsev]
      exact ⟨rfl, rfl, _, rfl⟩
    · rw [if_neg hsev]
      cases o with
      | noBuffers =>
        have hstalls : ¬ s.stalls < syslogStallMax := by
          simpa [hmore, hline, Nat.not_lt.mp hsev] using h
        rw [if_neg hstalls]
        exact ⟨rfl, rfl, _, rfl⟩
      | _ => exact ⟨rfl, rfl, _, rfl⟩

/-- A turn counts its line once, in the counter of its fate. A retried failure is a failure
    too. -/
theorem body_counters (hmore : p.more = true) :
    (s.body p o).agedOut = s.agedOut + (if s.fate p o = some .agedOut then 1 else 0) ∧
    (s.body p o).filtered = s.filtered + (if s.fate p o = some .filtered then 1 else 0) ∧
    (s.body p o).sent = s.sent + (if s.fate p o = some .sent then 1 else 0) ∧
    (s.body p o).sendFail = s.sendFail + (if s.fate p o = some .gaveUp then 1 else 0) +
      (if s.stallsOn p o then 1 else 0) := by
  unfold Shipper.body Shipper.fate Shipper.stallsOn
  cases hline : s.ring.getLine p.seq with
  | none => simp [Shipper.past]
  | some line =>
    dsimp only
    by_cases hsev : s.minSeverity.toNat < severityFromLetter line.level
    · have hle : ¬ severityFromLetter line.level ≤ s.minSeverity.toNat := Nat.not_le.mpr hsev
      simp [hsev, hle, Shipper.past]
    · have hle : severityFromLetter line.level ≤ s.minSeverity.toNat := Nat.not_lt.mp hsev
      cases o with
      | noBuffers =>
        by_cases hstalls : s.stalls < syslogStallMax
        · simp [hsev, hle, hstalls, hmore, Shipper.stall, Shipper.noteFailure, Shipper.finish]
        · simp [hsev, hstalls, Shipper.noteFailure, Shipper.past]
      | _ => simp [hsev, Shipper.noteFailure, Shipper.past]

theorem fate_agedOut (h : s.fate p o = some .agedOut) : s.ring.getLine p.seq = none := by
  unfold Shipper.fate at h
  cases hline : s.ring.getLine p.seq with
  | none => rfl
  | some line =>
    rw [hline] at h
    dsimp only at h
    split at h
    · exact absurd h (by simp)
    · cases o with
      | noBuffers =>
        dsimp only at h
        split at h <;> exact absurd h (by simp)
      | _ => exact absurd h (by simp)

/-! ## What the ledger says of it -/

@[simp] theorem count_append {xs : List (Nat × Fate)} {n : Nat} :
    Ledger.count ⟨l.counted ++ xs, n⟩ f = l.count f + xs.countP (·.2 == f) :=
  List.countP_append

theorem countP_fate {seq : Nat} {fate : Option Fate} :
    ((fate.toList.map fun f => (seq, f)).countP (·.2 == f)) = if fate = some f then 1 else 0 := by
  cases fate with
  | none => rfl
  | some g => by_cases hg : g = f <;> simp [hg]

theorem countP_gap {first n : Nat} :
    ((gap first n).countP (·.2 == f)) = if f = .agedOut then n else 0 := by
  unfold gap
  rw [List.countP_map]
  cases f <;> simp [Function.comp_def]

theorem mem_gap {first n : Nat} {x : Nat × Fate} :
    x ∈ gap first n ↔ first ≤ x.1 ∧ x.1 < first + n ∧ x.2 = .agedOut := by
  unfold gap
  constructor
  · intro hx
    obtain ⟨i, hi, rfl⟩ := List.mem_map.mp hx
    have := List.mem_range.mp hi
    exact ⟨by omega, by omega, rfl⟩
  · rintro ⟨hlo, hhi, hf⟩
    exact List.mem_map.mpr ⟨x.1 - first, List.mem_range.mpr (by omega),
      Prod.ext (by simp; omega) hf.symm⟩

theorem gap_increasing {first n : Nat} :
    ((gap first n).map Prod.fst).Pairwise (· < ·) := by
  unfold gap
  rw [List.map_map, List.pairwise_map]
  exact List.pairwise_lt_range.imp fun h => Nat.add_lt_add_left h _

/-! ## The step lemma -/

theorem oldest_toNat :
    s.oldest.toNat = if logBufLines < s.ring.total.toNat then s.ring.total.toNat - 127 else 1 :=
  getRange_oldest

theorem increasing_append {xs ys : List Nat} (hxs : xs.Pairwise (· < ·))
    (hys : ys.Pairwise (· < ·)) (n : Nat) (hlt : ∀ x ∈ xs, x < n) (hle : ∀ y ∈ ys, n ≤ y) :
    (xs ++ ys).Pairwise (· < ·) :=
  List.pairwise_append.mpr
    ⟨hxs, hys, fun x hx y hy => Nat.lt_of_lt_of_le (hlt x hx) (hle y hy)⟩

theorem Accounted.log {line : LogLine} (h : Accounted (s, l))
    (hguard : Accountable s (.log line)) : Accounted (s.step (.log line), l) := by
  have hlt : s.ring.total.toNat < 4294967294 := hguard
  have htotal : (s.ring.commit line).total.toNat = s.ring.total.toNat + 1 := by
    show (s.ring.total + 1).toNat = _
    bv_omega
  refine ⟨?_, ?_, h.increasing, fun x hx => ?_, fun x hx hf => ?_, h.fresh, h.idle,
    fun p hp => ?_, h.agedOut, h.filtered, h.sent, h.sendFail⟩
  · show (s.ring.commit line).total.toNat < _
    omega
  · show s.cursor.toNat ≤ (s.ring.commit line).total.toNat
    exact htotal ▸ Nat.le_succ_of_le h.cursor_le
  · show 0 < x.1 ∧ x.1 ≤ (s.ring.commit line).total.toNat
    exact ⟨(h.numbers x hx).1, htotal ▸ Nat.le_succ_of_le (h.numbers x hx).2⟩
  · show x.1 + logBufLines ≤ (s.ring.commit line).total.toNat
    exact htotal ▸ Nat.le_succ_of_le (h.gone x hx hf)
  · obtain ⟨hbelow, hcur, hnew, hmore⟩ := h.loop p hp
    refine ⟨hbelow, hcur, ?_, hmore⟩
    show p.newest.toNat ≤ (s.ring.commit line).total.toNat
    exact htotal ▸ Nat.le_succ_of_le hnew

theorem ledger_begin (h : s.pass = none) :
    ledger s .begin l =
      if s.overrun then { l with counted := l.counted ++ s.gone } else l := by
  unfold ledger
  rw [h]

theorem ledger_turn (h : s.pass = some p) :
    ledger s (.turn o) l =
      if p.more then
        { counted := l.counted ++ (s.fate p o).toList.map fun f => (p.seq.toNat, f)
          stalls := if s.stallsOn p o then l.stalls + 1 else l.stalls }
      else l := by
  unfold ledger
  rw [h]

theorem overrun_gap (hlt : s.ring.total.toNat < 4294967295)
    (hcur : s.cursor.toNat ≤ s.ring.total.toNat) (h : s.overrun = true) :
    s.cursor.toNat + 1 < s.oldest.toNat ∧ s.oldest.toNat + 127 = s.ring.total.toNat ∧
      s.cursor ≠ 0 ∧
      s.oldest - (s.cursor + 1) = BitVec.ofNat 32 (s.oldest.toNat - (s.cursor.toNat + 1)) := by
  obtain ⟨hgap, hne⟩ : s.cursor + 1 < s.oldest ∧ s.cursor ≠ 0 := by
    simpa [Shipper.overrun] using h
  have hgap' : s.cursor.toNat + 1 < s.oldest.toNat := by bv_omega
  have hold := oldest_toNat (s := s)
  unfold logBufLines at hold
  refine ⟨hgap', ?_, hne, ?_⟩
  · split at hold <;> omega
  · apply BitVec.eq_of_toNat_eq
    rw [BitVec.toNat_ofNat]
    bv_omega

/-- The loop starts past the cursor and everything that is gone, on a line that is there or
    right after the cursor. -/
theorem begin_loop (hlt : s.ring.total.toNat < 4294967295)
    (hcur : s.cursor.toNat ≤ s.ring.total.toNat) (h : p ∈ s.begin.pass) :
    s.cursor.toNat < p.seq.toNat ∧ s.oldest.toNat ≤ p.seq.toNat ∧
      p.newest.toNat ≤ s.ring.total.toNat ∧ (s.cursor + 1 = p.seq ∨ p.more = true) := by
  have hnext : (s.cursor + 1).toNat = s.cursor.toNat + 1 := by bv_omega
  have hold := oldest_toNat (s := s)
  unfold logBufLines at hold
  cases h
  dsimp only
  split
  · rename_i hgap
    rw [BitVec.lt_def] at hgap
    refine ⟨by omega, Nat.le_refl _, Nat.le_refl _, .inr ?_⟩
    refine Bool.and_eq_true _ _ |>.mpr ⟨decide_eq_true ?_, rfl⟩
    show s.oldest ≤ s.ring.total
    rw [BitVec.le_def]
    split at hold <;> omega
  · rename_i hgap
    rw [BitVec.lt_def] at hgap
    exact ⟨by omega, by omega, Nat.le_refl _, .inl rfl⟩

theorem Accounted.begin_on_gap (h : Accounted (s, l)) (hpass : s.pass = none)
    (hover : s.overrun = true) :
    Accounted (s.begin, { l with counted := l.counted ++ s.gone }) := by
  have hlt : s.ring.total.toNat < 4294967295 := h.total_lt
  have hcur : s.cursor.toNat ≤ s.ring.total.toNat := h.cursor_le
  -- the gap is past everything counted, and the loop starts past the gap
  obtain ⟨hgap, hheld, hne, hsub⟩ := overrun_gap hlt hcur hover
  have hbelow : ∀ x ∈ l.counted, x.1 ≤ s.cursor.toNat := h.idle hpass
  have hgone : ∀ x ∈ s.gone, s.cursor.toNat < x.1 ∧ x.1 < s.oldest.toNat := by
    intro x hx
    obtain ⟨hlo, hhi, -⟩ := mem_gap.mp hx
    exact ⟨by omega, by omega⟩
  refine ⟨hlt, hcur, ?_, fun x hx => ?_, fun x hx hf => ?_,
    fun hzero => absurd hzero hne, fun hno => absurd hno (by simp [Shipper.begin]),
    fun p hp => ?_, ?_, ?_, ?_, ?_⟩
  · rw [List.map_append]
    refine increasing_append h.increasing gap_increasing (s.cursor.toNat + 1) ?_ ?_
    · intro i hi
      obtain ⟨x, hx, rfl⟩ := List.mem_map.mp hi
      exact Nat.lt_succ_of_le (hbelow x hx)
    · intro i hi
      obtain ⟨x, hx, rfl⟩ := List.mem_map.mp hi
      exact (hgone x hx).1
  · rcases List.mem_append.mp hx with hx | hx
    · exact h.numbers x hx
    · have := hgone x hx
      exact ⟨by omega, by show x.1 ≤ s.ring.total.toNat; omega⟩
  · rcases List.mem_append.mp hx with hx | hx
    · exact h.gone x hx hf
    · have := hgone x hx
      show x.1 + 128 ≤ s.ring.total.toNat
      omega
  · obtain ⟨hcs, hos, hnew, hmore⟩ := begin_loop hlt hcur hp
    refine ⟨fun x hx => ?_, hcs, hnew, hmore⟩
    rcases List.mem_append.mp hx with hx | hx
    · exact Nat.lt_of_le_of_lt (hbelow x hx) hcs
    · exact Nat.lt_of_lt_of_le (hgone x hx).2 hos
  · show (if s.overrun then s.agedOut + (s.oldest - (s.cursor + 1)) else s.agedOut) = _
    -- the subtraction in the source is of words, and the gap is of numbers
    rw [if_pos hover, count_append, Shipper.gone, countP_gap, if_pos rfl, BitVec.ofNat_add, hsub]
    exact congrArg (· + _) h.agedOut
  · rw [count_append, Shipper.gone, countP_gap, if_neg (by decide)]
    exact h.filtered
  · rw [count_append, Shipper.gone, countP_gap, if_neg (by decide)]
    exact h.sent
  · rw [count_append, Shipper.gone, countP_gap, if_neg (by decide)]
    exact h.sendFail

theorem Accounted.begin (h : Accounted (s, l)) (hpass : s.pass = none) :
    Accounted (s.begin, ledger s .begin l) := by
  rw [ledger_begin hpass]
  by_cases hover : s.overrun = true
  · rw [if_pos hover]
    exact h.begin_on_gap hpass hover
  · rw [if_neg hover]
    refine ⟨h.total_lt, h.cursor_le, h.increasing, h.numbers, h.gone, h.fresh,
      fun hno => absurd hno (by simp [Shipper.begin]), fun p hp => ?_, ?_, h.filtered, h.sent,
      h.sendFail⟩
    · obtain ⟨hcs, -, hnew, hmore⟩ := begin_loop h.total_lt h.cursor_le hp
      exact ⟨fun x hx => Nat.lt_of_le_of_lt (h.idle hpass x hx) hcs, hcs, hnew, hmore⟩
    · show (if s.overrun then _ else s.agedOut) = _
      rw [if_neg hover]
      exact h.agedOut

/-- The call returns. A pass that has done nothing has not counted past the cursor either. -/
theorem Accounted.finish (h : Accounted (s, l)) (hpass : s.pass = some p)
    (hback : s.cursor = 0 ∨ s.cursor + 1 = p.seq) : Accounted (s.finish p, l) := by
  refine ⟨h.total_lt, h.cursor_le, h.increasing, h.numbers, h.gone, h.fresh, fun _ x hx => ?_,
    fun q hq => absurd hq (by simp [Shipper.finish]), h.agedOut, h.filtered, h.sent, h.sendFail⟩
  -- a cursor of 0 has counted nothing yet
  rcases hback with hzero | hnext
  · have hnone : l.counted = [] := h.fresh hzero
    rw [hnone] at hx
    exact absurd hx (by simp)
  · have hbelow := (h.loop p hpass).1 x hx
    have hcur := h.cursor_le
    have hlt := h.total_lt
    show x.1 ≤ s.cursor.toNat
    dsimp only at hcur hlt hbelow
    rw [← hnext] at hbelow
    bv_omega

theorem Accounted.stall (h : Accounted (s, l)) (hpass : s.pass = some p)
    (hback : s.cursor = 0 ∨ s.cursor + 1 = p.seq) :
    Accounted (s.noteFailure.stall p, { l with stalls := l.stalls + 1 }) := by
  have hnoted : Accounted
      ({ s.noteFailure with stalls := s.stalls + 1, passStalled := true },
        { l with stalls := l.stalls + 1 }) := by
    refine ⟨h.total_lt, h.cursor_le, h.increasing, h.numbers, h.gone, h.fresh, h.idle, h.loop,
      h.agedOut, h.filtered, h.sent, ?_⟩
    show s.sendFail + 1 = BitVec.ofNat 32 (l.count .gaveUp + (l.stalls + 1))
    rw [← Nat.add_assoc, BitVec.ofNat_add]
    exact congrArg (· + _) h.sendFail
  exact hnoted.finish hpass hback

theorem counter_step {c c' : BitVec 32} {f : Fate} {fate : Option Fate} {n stalls : Nat}
    (h : c = BitVec.ofNat 32 (l.count f + n))
    (h' : c' = c + (if fate = some f then 1 else 0)) :
    c' = BitVec.ofNat 32
      (Ledger.count ⟨l.counted ++ fate.toList.map fun f => (p.seq.toNat, f), stalls⟩ f + n) := by
  rw [count_append, countP_fate, h', h]
  by_cases hf : fate = some f
  · rw [if_pos hf, if_pos hf, Nat.add_right_comm]
    exact (BitVec.ofNat_add _ 1).symm
  · rw [if_neg hf, if_neg hf, Nat.add_zero]
    exact BitVec.add_zero _

theorem Accounted.past (h : Accounted (s, l)) (hpass : s.pass = some p) (hmore : p.more = true)
    (hstall : s.stallsOn p o = false) :
    Accounted (s.body p o,
      { counted := l.counted ++ (s.fate p o).toList.map fun f => (p.seq.toNat, f)
        stalls := l.stalls }) := by
  have hlt : s.ring.total.toNat < 4294967295 := h.total_lt
  obtain ⟨hbelow, hcs, hnew, -⟩ := h.loop p hpass
  have hle : p.seq.toNat ≤ p.newest.toNat := by
    have hseq := (Bool.and_eq_true _ _ |>.mp hmore).1
    exact BitVec.le_def.mp (of_decide_eq_true hseq)
  dsimp only at hcs hnew
  have hnext : (p.seq + 1).toNat = p.seq.toNat + 1 := by bv_omega
  -- the line of this turn is past everything counted, and the cursor goes to it
  obtain ⟨hcursor, hring, b, hloop⟩ := body_past hmore hstall
  obtain ⟨haged, hfiltered, hsent, hfail⟩ := body_counters (s := s) (o := o) hmore
  have hentry : ∀ x ∈ (s.fate p o).toList.map fun f => (p.seq.toNat, f),
      x.1 = p.seq.toNat ∧ s.fate p o = some x.2 := by
    intro x hx
    obtain ⟨f, hf, rfl⟩ := List.mem_map.mp hx
    exact ⟨rfl, Option.mem_toList.mp hf⟩
  refine ⟨hring ▸ hlt, ?_, ?_, fun x hx => ?_, fun x hx hf => ?_, fun hzero => ?_,
    fun hno => absurd hno (by simp [hloop]), fun q hq => ?_, ?_, ?_, ?_, ?_⟩
  · show (s.body p o).cursor.toNat ≤ (s.body p o).ring.total.toNat
    rw [hcursor, hring]
    omega
  · rw [List.map_append]
    refine increasing_append h.increasing ?_ p.seq.toNat ?_ ?_
    · cases s.fate p o <;> simp
    · intro i hi
      obtain ⟨x, hx, rfl⟩ := List.mem_map.mp hi
      exact hbelow x hx
    · intro i hi
      obtain ⟨x, hx, rfl⟩ := List.mem_map.mp hi
      exact Nat.le_of_eq (hentry x hx).1.symm
  · show 0 < x.1 ∧ x.1 ≤ (s.body p o).ring.total.toNat
    rw [hring]
    rcases List.mem_append.mp hx with hx | hx
    · exact h.numbers x hx
    · have := (hentry x hx).1
      omega
  · show x.1 + logBufLines ≤ (s.body p o).ring.total.toNat
    rw [hring]
    rcases List.mem_append.mp hx with hx | hx
    · exact h.gone x hx hf
    -- only a line that is not held is counted as aged out here
    · obtain ⟨hx1, hfate⟩ := hentry x hx
      rw [hx1]
      exact getLine_none (fate_agedOut (hf ▸ hfate)) (by omega) (by omega)
  · have hzero : p.seq = 0 := hcursor ▸ hzero
    rw [hzero] at hcs
    exact absurd hcs (by simp)
  · have hq : q = { p with seq := p.seq + 1, budget := b } :=
      (Option.some.inj (hloop ▸ hq)).symm
    subst hq
    refine ⟨fun x hx => ?_, ?_, ?_, .inl ?_⟩
    · show x.1 < (p.seq + 1).toNat
      rw [hnext]
      rcases List.mem_append.mp hx with hx | hx
      · exact Nat.lt_succ_of_lt (hbelow x hx)
      · exact Nat.lt_succ_of_le (Nat.le_of_eq (hentry x hx).1)
    · show (s.body p o).cursor.toNat < (p.seq + 1).toNat
      rw [hcursor, hnext]
      exact Nat.lt_succ_self _
    · show p.newest.toNat ≤ (s.body p o).ring.total.toNat
      rw [hring]
      exact hnew
    · show (s.body p o).cursor + 1 = p.seq + 1
      rw [hcursor]
  · exact counter_step (n := 0) h.agedOut haged
  · exact counter_step (n := 0) h.filtered hfiltered
  · exact counter_step (n := 0) h.sent hsent
  · have hfail : (s.body p o).sendFail =
        s.sendFail + (if s.fate p o = some .gaveUp then 1 else 0) := by
      simpa [hstall] using hfail
    exact counter_step h.sendFail hfail

theorem Accounted.turn (h : Accounted (s, l)) (hpass : s.pass = some p)
    (hguard : s.stallsOn p o = true → s.cursor = 0 ∨ s.cursor + 1 = p.seq) :
    Accounted (s.turn p o, ledger s (.turn o) l) := by
  rw [ledger_turn hpass]
  unfold Shipper.turn
  by_cases hmore : p.more = true
  · rw [if_pos hmore, if_pos hmore]
    cases hstall : s.stallsOn p o with
    | true =>
      obtain ⟨hbody, hfate⟩ := body_stall hstall
      rw [hbody, hfate]
      simpa using h.stall hpass (hguard hstall)
    | false => exact h.past hpass hmore hstall
  · rw [if_neg hmore, if_neg hmore]
    -- a pass that has its last line behind it has the cursor on that line
    have hnext : s.cursor + 1 = p.seq := (h.loop p hpass).2.2.2.resolve_right hmore
    exact h.finish hpass (.inr hnext)

theorem Accounted.step {e : Event} (h : Accounted (s, l)) (hguard : Accountable s e) :
    Accounted (s.step e, ledger s e l) := by
  cases e with
  | log line => exact h.log hguard
  | begin =>
    show Accounted (if s.pass.isNone then s.begin else s, ledger s .begin l)
    cases hpass : s.pass with
    | none => exact h.begin hpass
    | some p =>
      unfold ledger
      rw [hpass]
      exact h
  | turn o =>
    unfold Shipper.step
    cases hpass : s.pass with
    | none =>
      unfold ledger
      rw [hpass]
      exact h
    | some p => exact h.turn hpass (hguard p hpass)

theorem accounted_boot {minSeverity : UInt8} : Accounted (.boot minSeverity, ⟨[], 0⟩) :=
  ⟨show 0 < 4294967295 by decide, Nat.le_refl _, .nil, fun _ hx => absurd hx (by simp),
    fun _ hx => absurd hx (by simp), fun _ => rfl, fun _ _ hx => absurd hx (by simp),
    fun _ hp => absurd hp (by simp [Shipper.boot]), rfl, rfl, rfl, rfl⟩

/-! ## What it comes to -/

theorem length_le_of_increasing {xs : List Nat} {n : Nat} (h : xs.Pairwise (· < ·))
    (hle : ∀ x ∈ xs, 0 < x ∧ x ≤ n) : xs.length ≤ n := by
  have hsub : xs ⊆ (List.range n).map (· + 1) := by
    intro x hx
    obtain ⟨hpos, hxn⟩ := hle x hx
    exact List.mem_map.mpr ⟨x - 1, List.mem_range.mpr (by omega), by omega⟩
  have hperm := List.subperm_of_subset (h.imp Nat.ne_of_lt) hsub
  simpa using hperm.length_le

theorem Accounted.agedOut_le (h : Accounted (s, l)) :
    l.count .agedOut ≤ l.leftUnsent s.ring.total.toNat := by
  have hnodup : (l.counted.map Prod.fst).Nodup := h.increasing.imp Nat.ne_of_lt
  -- the lines counted as aged out are among those that left, and none of them was sent
  have hsub : ((l.counted.filter (·.2 == .agedOut)).map (·.1 - 1)) ⊆
      (List.range (s.ring.total.toNat - logBufLines)).filter
        fun i => !l.counted.elem (i + 1, .sent) := by
    intro i hi
    obtain ⟨⟨seq, f⟩, hx, rfl⟩ := List.mem_map.mp hi
    obtain ⟨hx, hf⟩ := List.mem_filter.mp hx
    obtain rfl : f = .agedOut := by simpa using hf
    have hpos : 0 < seq := (h.numbers _ hx).1
    have hgone : seq + logBufLines ≤ s.ring.total.toNat := h.gone _ hx rfl
    refine List.mem_filter.mpr ⟨List.mem_range.mpr (by dsimp only; omega), ?_⟩
    rw [Bool.not_eq_true', ← Bool.not_eq_true, List.elem_iff]
    intro hsent
    have hsent : (seq, Fate.sent) ∈ l.counted := by
      rwa [Nat.sub_add_cancel hpos] at hsent
    exact absurd (List.inj_on_of_nodup_map hnodup hx hsent rfl) (by simp)
  have hsorted : ((l.counted.filter (·.2 == .agedOut)).map (·.1 - 1)).Nodup := by
    refine List.Nodup.map_on (fun x hx y hy hxy => ?_)
      ((hnodup.of_map _).filter _)
    have hx := (List.mem_filter.mp hx).1
    have hy := (List.mem_filter.mp hy).1
    have hxpos := (h.numbers x hx).1
    have hypos := (h.numbers y hy).1
    exact List.inj_on_of_nodup_map hnodup hx hy (by omega)
  have hlen := (List.subperm_of_subset hsorted hsub).length_le
  unfold Ledger.count Ledger.leftUnsent
  rw [List.countP_eq_length_filter, List.countP_eq_length_filter]
  simpa using hlen

theorem Accounted.exact (h : Accounted (s, l)) : Exact (s, l) := by
  have hlt : s.ring.total.toNat < 4294967295 := h.total_lt
  have hlen : l.counted.length ≤ s.ring.total.toNat := by
    have := length_le_of_increasing h.increasing (n := s.ring.total.toNat) (by
      intro i hi
      obtain ⟨x, hx, rfl⟩ := List.mem_map.mp hi
      exact h.numbers x hx)
    simpa using this
  -- each number is in the ledger once, so no counter has come round
  have hcount : ∀ f, l.count f < 2 ^ 32 := by
    intro f
    have : l.count f ≤ l.counted.length := List.countP_le_length
    omega
  have haged : s.agedOut.toNat = l.count .agedOut := by
    rw [show s.agedOut = _ from h.agedOut, BitVec.toNat_ofNat, Nat.mod_eq_of_lt (hcount _)]
  refine ⟨h.increasing.imp Nat.ne_of_lt, haged, ?_, ?_, h.sendFail, ?_⟩
  · rw [show s.filtered = _ from h.filtered, BitVec.toNat_ofNat, Nat.mod_eq_of_lt (hcount _)]
  · rw [show s.sent = _ from h.sent, BitVec.toNat_ofNat, Nat.mod_eq_of_lt (hcount _)]
  · exact haged ▸ h.agedOut_le

theorem Accounted.cursor_mono {e : Event} (h : Accounted (s, l)) :
    s.cursor ≤ (s.step e).cursor := by
  cases e with
  | log line => exact BitVec.le_refl _
  | begin =>
    show s.cursor ≤ (if s.pass.isNone then s.begin else s).cursor
    split <;> exact BitVec.le_refl _
  | turn o =>
    unfold Shipper.step
    cases hpass : s.pass with
    | none => exact BitVec.le_refl _
    | some p =>
      dsimp only
      unfold Shipper.turn
      by_cases hmore : p.more = true
      · rw [if_pos hmore]
        cases hstall : s.stallsOn p o with
        | true =>
          rw [(body_stall hstall).1]
          exact BitVec.le_refl _
        | false =>
          rw [(body_past hmore hstall).1]
          exact BitVec.le_def.mpr (Nat.le_of_lt (h.loop p hpass).2.1)
      · rw [if_neg hmore]
        exact BitVec.le_refl _

end

/-! ## The theorem -/

theorem Shipper.accounting_exact {minSeverity : UInt8} {es : List Event}
    (h : Along Shipper.step Accountable (.boot minSeverity) es) :
    Exact (es.foldl (watch Shipper.step ledger) (.boot minSeverity, ⟨[], 0⟩)) ∧
      Along Shipper.step (fun s e => s.cursor ≤ (s.step e).cursor) (.boot minSeverity) es := by
  have hwatched : Along (watch Shipper.step ledger) (fun s => Accountable s.1)
      (.boot minSeverity, ⟨[], 0⟩) es := (along_watch ledger _).mpr h
  refine ⟨?_, ?_⟩
  · have hend := hwatched.invariant accounted_boot fun _ _ hI hguard => hI.step hguard
    exact hend.exact
  · exact (along_watch ledger _).mp (hwatched.of_invariant accounted_boot
      fun _ _ hI hguard => ⟨hI.cursor_mono, hI.step hguard⟩)

/-- One line shipped, 200 logged, and a pass that cannot get a buffer. -/
def gapThenStall : List Event :=
  [.log { level := 'I' }, .begin, .turn .sent, .turn .sent] ++
    List.replicate 200 (.log { level := 'I' }) ++ [.begin, .turn .noBuffers, .begin]

/-- The 72 lines that aged out are counted by each of the two passes. -/
theorem accounting_exact_fails :
    ¬ ∀ (minSeverity : UInt8) (es : List Event),
      let now := es.foldl (watch Shipper.step ledger) (.boot minSeverity, ⟨[], 0⟩)
      (now.2.counted.map Prod.fst).Nodup ∧
        now.1.agedOut.toNat ≤ now.2.leftUnsent now.1.ring.total.toNat := by
  intro h
  exact absurd (h 6 gapThenStall).2 (by decide +kernel)

theorem accounting_exact_gap :
    let es := gapThenStall.take 205 ++ [.turn .sent, .turn .noBuffers, .begin]
    Exact (es.foldl (watch Shipper.step ledger) (.boot 6, ⟨[], 0⟩)) ∧
      Along Shipper.step (fun s e => s.cursor ≤ (s.step e).cursor) (.boot 6) es :=
  Shipper.accounting_exact (by decide +kernel)

end Logs
end Wt32Router
