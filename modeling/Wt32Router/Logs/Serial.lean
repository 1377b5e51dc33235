import Wt32Router.Logs.Hook

/-!
# Lines on the serial console

A line that the console's level keeps off it is to be kept off whole. Only the first piece of a line
has a prefix, so the hook remembers the level that came with it, of one line. A call of another task
closes that line, and the pieces of it still to come open one without a prefix, which counts as an
error and is printed.

> **`suppressed_whole_iff`**: a later piece of a line that was kept off the console is kept off too,
> if and only if no other task called in between, or the console prints nothing at all.
-/

namespace Wt32Router
namespace Logs

open Lib (ascii)

variable {T : Type} [DecidableEq T]

/-- `later` is a piece of the line that `opener` opened, with the calls `between` before it: its
    task has ended the line in none of its calls, and has not opened one. -/
structure SameLine (opener : Call T) (between : List (Call T)) (later : Call T) : Prop where
  locked : ∀ c ∈ opener :: (between ++ [later]), c.locked = true
  opens : (matchPrefix opener.fragment).isSome = true
  unended : 10 ∉ opener.fragment
  between : ∀ c ∈ between, c.task = opener.task →
    matchPrefix c.fragment = none ∧ 10 ∉ c.fragment
  later : later.task = opener.task ∧ matchPrefix later.fragment = none

/-- `log_vprintf` prints the call's text. -/
def LogBuf.prints (s : LogBuf T) (c : Call T) : Bool := (s.logVprintf c).2

section

variable {s : LogBuf T} {c : Call T} {text fragment : List UInt8} {task : T} {level : Level}

/-! ## One call -/

omit [DecidableEq T] in
/-- The walk does not look at who calls, or at what level. -/
theorem walk_frame (s : LogBuf T) (text : List UInt8) :
    (s.walk text).pendingTask = s.pendingTask ∧ (s.walk text).pendingLevel = s.pendingLevel ∧
      (s.walk text).serialLevel = s.serialLevel := by
  induction text generalizing s with
  | nil => exact ⟨rfl, rfl, rfl⟩
  | cons ch rest ih =>
    unfold LogBuf.walk
    split
    · exact ih s.commitPending
    · obtain ⟨htask, hlevel, hserial⟩ := ih (s.pendingPutc (if ch = 10 ∨ ch = 13 then 32 else ch))
      rw [htask, hlevel, hserial]
      unfold LogBuf.pendingPutc
      dsimp only
      split <;> exact ⟨rfl, rfl, rfl⟩

omit [DecidableEq T] in
/-- Without a newline the line stays open. -/
theorem walk_pending (hline : 10 ∉ text) (h : s.pending ≠ [] ∨ text ≠ []) :
    (s.walk text).pending ≠ [] := by
  induction text generalizing s with
  | nil => exact h.resolve_right fun hne => hne rfl
  | cons ch rest ih =>
    rw [List.mem_cons, not_or] at hline
    obtain ⟨hch, hrest⟩ := hline
    unfold LogBuf.walk
    rw [if_neg fun hc => hch hc.1.symm]
    exact ih hrest (.inl (List.append_ne_nil_of_right_ne_nil _ (List.cons_ne_nil _ _)))

/-- A call goes on with the pending line, or opens one. -/
theorem begin_cases (s : LogBuf T) (task : T) (fragment : List UInt8) :
    (s.begin task fragment).serialLevel = s.serialLevel ∧
      (s.begin task fragment).pendingTask = some task ∧
      ((s.begin task fragment = s ∧ s.pending ≠ [] ∧ s.pendingTask = some task ∧
          matchPrefix fragment = none) ∨
        ((s.pending = [] ∨ s.pendingTask ≠ some task ∨ (matchPrefix fragment).isSome = true) ∧
          (s.begin task fragment).pendingLevel = fragmentLevel fragment)) := by
  unfold LogBuf.begin LogBuf.interrupt
  by_cases hbreak : s.pending ≠ [] ∧
      (some task ≠ s.pendingTask ∨ (matchPrefix fragment).isSome = true)
  · rw [if_pos hbreak]
    exact ⟨rfl, rfl, .inr ⟨.inr (hbreak.2.imp_left Ne.symm), rfl⟩⟩
  · rw [if_neg hbreak]
    unfold LogBuf.openLine
    split
    · rename_i hempty
      exact ⟨rfl, rfl, .inr ⟨.inl hempty, rfl⟩⟩
    · rename_i hpending
      rw [not_and, not_or, not_ne_iff] at hbreak
      obtain ⟨htask, hmatch⟩ := hbreak hpending
      exact ⟨rfl, htask.symm, .inl ⟨rfl, hpending, htask.symm, by simpa using hmatch⟩⟩

theorem capture_locked (s : LogBuf T) (h : c.locked = true) : s.capture c =
    ((s.begin c.task c.fragment).walk c.fragment,
      (s.begin c.task c.fragment).pendingLevel) := by
  unfold LogBuf.capture
  rw [h, if_neg (by decide)]

/-- What a call leaves, and whether its text is printed. -/
theorem step_spec (s : LogBuf T) (h : c.locked = true) :
    (s.step c).serialLevel = s.serialLevel ∧ (s.step c).pendingTask = some c.task ∧
      s.prints c = decide ((s.step c).pendingLevel ≤ s.serialLevel) ∧
      ((s.pending ≠ [] ∧ s.pendingTask = some c.task ∧ matchPrefix c.fragment = none ∧
          (s.step c).pendingLevel = s.pendingLevel) ∨
        (s.pending = [] ∨ s.pendingTask ≠ some c.task ∨
          (matchPrefix c.fragment).isSome = true) ∧
          (s.step c).pendingLevel = fragmentLevel c.fragment) := by
  obtain ⟨hserial, htask, hcases⟩ := begin_cases s c.task c.fragment
  obtain ⟨hwtask, hwlevel, hwserial⟩ := walk_frame (s.begin c.task c.fragment) c.fragment
  unfold LogBuf.prints LogBuf.step LogBuf.logVprintf
  dsimp only
  rw [capture_locked s h]
  dsimp only
  rw [hwtask, hwlevel, hwserial]
  refine ⟨hserial, htask, rfl, hcases.imp_left ?_⟩
  rintro ⟨hbegin, hpending, hmine, hmatch⟩
  exact ⟨hpending, hmine, hmatch, by rw [hbegin]⟩

/-! ## The opening call, and those behind it -/

/-- The line of a task is pending, with this level. -/
structure Continues (s : LogBuf T) (task : T) (level : Level) : Prop where
  pending : s.pending ≠ []
  task : s.pendingTask = some task
  level : s.pendingLevel = level

theorem continues_of_opens (s : LogBuf T) (h : c.locked = true)
    (hopens : (matchPrefix c.fragment).isSome = true) (hunended : 10 ∉ c.fragment) :
    Continues (s.step c) c.task (fragmentLevel c.fragment) ∧
      s.prints c = decide (fragmentLevel c.fragment ≤ s.serialLevel) := by
  obtain ⟨-, htask, hprints, ⟨-, -, hnone, -⟩ | ⟨-, hlevel⟩⟩ := step_spec s h
  · rw [hnone] at hopens
    exact absurd hopens (by decide)
  · have hne : c.fragment ≠ [] := fun hnil => absurd hopens (by rw [hnil]; decide)
    refine ⟨⟨?_, htask, hlevel⟩, by rw [hprints, hlevel]⟩
    unfold LogBuf.step LogBuf.logVprintf
    rw [capture_locked s h]
    exact walk_pending hunended (.inr hne)

/-- A call without a prefix goes on with its task's line. -/
theorem Continues.begin (hs : Continues s task level) (htask : c.task = task)
    (hmatch : matchPrefix c.fragment = none) : s.begin c.task c.fragment = s := by
  obtain ⟨-, -, ⟨hbegin, -⟩ | ⟨hfresh, -⟩⟩ := begin_cases s c.task c.fragment
  · exact hbegin
  · rw [hmatch, htask] at hfresh
    obtain hempty | hother | hopens := hfresh
    · exact absurd hempty hs.pending
    · exact absurd hs.task hother
    · exact absurd hopens (by decide)

theorem Continues.step (hs : Continues s task level) (h : c.locked = true)
    (htask : c.task = task) (hmatch : matchPrefix c.fragment = none) :
    s.prints c = decide (level ≤ s.serialLevel) ∧
      (10 ∉ c.fragment → Continues (s.step c) task level) := by
  obtain ⟨hwtask, hwlevel, -⟩ := walk_frame s c.fragment
  unfold LogBuf.prints LogBuf.step LogBuf.logVprintf
  dsimp only
  rw [capture_locked s h, hs.begin htask hmatch]
  dsimp only
  exact ⟨by rw [hs.level], fun hunended => ⟨walk_pending hunended (.inl hs.pending),
    hwtask.trans hs.task, hwlevel.trans hs.level⟩⟩

/-- What is pending is not a line of the task, or is one that counts as an error. -/
def Lost (s : LogBuf T) (task : T) : Prop :=
  s.pendingTask = some task → s.pendingLevel = .error

theorem lost_of_other (s : LogBuf T) (h : c.locked = true) (hother : c.task ≠ task) :
    Lost (s.step c) task := by
  obtain ⟨-, htask, -⟩ := step_spec s h
  exact fun hmine => absurd (Option.some.inj (htask.symm.trans hmine)) hother

/-- Without a prefix it is an error, of the line before or of a line of its own. -/
theorem Lost.step (hs : Lost s task) (h : c.locked = true) (htask : c.task = task)
    (hmatch : matchPrefix c.fragment = none) :
    s.prints c = decide (Level.error ≤ s.serialLevel) ∧ Lost (s.step c) task := by
  have hlevel : (s.step c).pendingLevel = .error := by
    obtain ⟨-, -, -, ⟨-, hmine, -, hlevel⟩ | ⟨-, hlevel⟩⟩ := step_spec s h
    · rw [hlevel, hs (hmine.trans (congrArg some htask))]
    · rw [hlevel]
      unfold fragmentLevel
      rw [hmatch]
  obtain ⟨-, -, hprints, -⟩ := step_spec s h
  exact ⟨by rw [hprints, hlevel], fun _ => hlevel⟩

/-! ## Runs -/

variable {opener later : Call T} {between : List (Call T)}

theorem run_serialLevel (s : LogBuf T) {calls : List (Call T)}
    (h : ∀ c ∈ calls, c.locked = true) :
    (calls.foldl LogBuf.step s).serialLevel = s.serialLevel := by
  induction calls generalizing s with
  | nil => rfl
  | cons c calls ih =>
    obtain ⟨hc, hcalls⟩ := List.forall_mem_cons.mp h
    rw [List.foldl_cons, ih _ hcalls]
    exact (step_spec s hc).1

/-- While only the task itself calls, its line goes on. -/
theorem Continues.run (hs : Continues s task level)
    (h : ∀ c ∈ between, c.locked = true ∧ c.task = task ∧ matchPrefix c.fragment = none ∧
      10 ∉ c.fragment) : Continues (between.foldl LogBuf.step s) task level := by
  induction between generalizing s with
  | nil => exact hs
  | cons c between ih =>
    obtain ⟨⟨hlocked, htask, hmatch, hunended⟩, hbetween⟩ := List.forall_mem_cons.mp h
    exact ih ((hs.step hlocked htask hmatch).2 hunended) hbetween

/-- Once another task has called, the line is lost. -/
theorem lost_run (h : ∀ c ∈ between, c.locked = true ∧
      (c.task = task → matchPrefix c.fragment = none))
    (hlost : Lost s task ∨ ∃ c ∈ between, c.task ≠ task) :
    Lost (between.foldl LogBuf.step s) task := by
  induction between generalizing s with
  | nil => exact hlost.resolve_right fun ⟨c, hc, _⟩ => absurd hc List.not_mem_nil
  | cons c between ih =>
    obtain ⟨⟨hlocked, hmatch⟩, hbetween⟩ := List.forall_mem_cons.mp h
    refine ih hbetween ?_
    by_cases hother : c.task = task
    · refine hlost.imp (fun hs => (hs.step hlocked hother (hmatch hother)).2) ?_
      rintro ⟨d, hd, hne⟩
      exact ⟨d, (List.mem_cons.mp hd).resolve_left fun heq => hne (heq ▸ hother), hne⟩
    · exact .inl (lost_of_other s hlocked hother)

/-- A later piece of a line that was kept off the console is kept off too, if and only if no other
    task called in between, or the console prints nothing at all. -/
theorem suppressed_whole_iff (serialLevel : Level) (before : List (Call T))
    (h : SameLine opener between later) (habove : ¬fragmentLevel opener.fragment ≤ serialLevel)
    (hbefore : ∀ c ∈ before, c.locked = true) :
    let s := before.foldl LogBuf.step (.start serialLevel)
    s.prints opener = false ∧
      (((opener :: between).foldl LogBuf.step s).prints later = false ↔
        serialLevel = .none ∨ ∀ c ∈ between, c.task = opener.task) := by
  intro s
  have hserial : s.serialLevel = serialLevel := run_serialLevel _ hbefore
  obtain ⟨hopener, hlocked⟩ := List.forall_mem_cons.mp h.locked
  obtain ⟨hbetween, hlater⟩ := List.forall_mem_append.mp hlocked
  obtain ⟨hcontinues, hprints⟩ := continues_of_opens s hopener h.opens h.unended
  refine ⟨by rw [hprints, hserial]; exact decide_eq_false habove, ?_⟩
  rw [List.foldl_cons]
  have hafter : (between.foldl LogBuf.step (s.step opener)).serialLevel = serialLevel := by
    rw [run_serialLevel _ hbetween, (step_spec s hopener).1, hserial]
  have hlast := hlater later (List.mem_singleton.mpr rfl)
  by_cases hown : ∀ c ∈ between, c.task = opener.task
  · have hrun := hcontinues.run fun c hc => ⟨hbetween c hc, hown c hc, h.between c hc (hown c hc)⟩
    rw [(hrun.step hlast h.later.1 h.later.2).1, hafter]
    exact iff_of_true (decide_eq_false habove) (.inr hown)
  · have hother : ∃ c ∈ between, c.task ≠ opener.task := by
      simpa only [not_forall, exists_prop] using hown
    have hlost : Lost (between.foldl LogBuf.step (s.step opener)) opener.task :=
      lost_run (fun c hc => ⟨hbetween c hc, fun htask => (h.between c hc htask).1⟩) (.inr hother)
    rw [(hlost.step hlast h.later.1 h.later.2).1, hafter, decide_eq_false_iff_not]
    constructor
    · intro hnot
      refine .inl ?_
      cases serialLevel with
      | none => rfl
      | _ => exact absurd (show 1 ≤ _ by decide) hnot
    · rintro (rfl | hall)
      · decide
      · exact absurd hall hown

end

/-- A line of the WiFi driver begins, below the console's level, and a task of its own warns. -/
def wifiPrefix : Call Nat := ⟨1, ascii "I (1613) wifi: ", true⟩
def warning : Call Nat := ⟨2, ascii "W (1620) client_track: full\n", true⟩
def wifiRest : Call Nat := ⟨1, ascii "Init dynamic tx buffer num: 32", true⟩

theorem suppressed_whole_wifi :
    (LogBuf.start .warn).prints wifiPrefix = false ∧
      (([wifiPrefix].foldl LogBuf.step (.start .warn)).prints wifiRest = false ↔
        Level.warn = .none ∨ ∀ c ∈ ([] : List (Call Nat)), c.task = wifiPrefix.task) :=
  suppressed_whole_iff .warn []
    ⟨by decide +kernel, by decide +kernel, by decide +kernel, by simp, by decide +kernel⟩
    (by decide +kernel) (by simp)

/-- Behind the warning the rest of the line is printed. -/
theorem suppressed_whole_fails :
    ¬∀ (serialLevel : Level) (before : List (Call Nat)) (opener : Call Nat)
      (between : List (Call Nat)) (later : Call Nat), SameLine opener between later →
      ¬fragmentLevel opener.fragment ≤ serialLevel → (∀ c ∈ before, c.locked = true) →
      ((opener :: between).foldl LogBuf.step
        (before.foldl LogBuf.step (.start serialLevel))).prints later = false := by
  intro h
  have hkept := h .warn [] wifiPrefix [warning] wifiRest
    ⟨by decide +kernel, by decide +kernel, by decide +kernel, by decide +kernel,
      by decide +kernel⟩ (by decide +kernel) (by simp)
  exact absurd hkept (by decide +kernel)

end Logs
end Wt32Router
