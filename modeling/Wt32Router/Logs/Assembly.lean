import Wt32Router.Logs.Hook

/-!
# Lines from fragments

What the calls of the hook bring is a stream: the text of each call, the last newline in it as the
end of a line and the others as spaces. `Laid` says that lines are such a stream, with the line
breaks that may be added to it: where a call comes from another task than the line or opens a line
of its own, and where 255 characters are pending.

> **`lines_assembled`**: whatever the order of the calls, the lines stored are those of a layout of
> the stream, trimmed and without the blank ones, what is pending is its end, and no line of it has
> text of two tasks.
-/

namespace Wt32Router
namespace Logs

open Lib (cString)

/-! ## The stream and its layouts -/

inductive Mark (T : Type) where
  /-- A call begins, with a prefix or without. -/
  | start (task : T) (opensLine : Bool)
  | char (task : T) (c : UInt8)
  | newline
deriving DecidableEq, Repr

/-- The characters of a line, each with the task that logged it. -/
abbrev RawLine (T : Type) := List (T × UInt8)

def RawLine.text {T : Type} (line : RawLine T) : List UInt8 := line.map Prod.snd

/-- Text of one task. -/
def textMarks {T : Type} (task : T) : List UInt8 → List (Mark T)
  | [] => []
  | c :: rest =>
      (if c = 10 ∧ 10 ∉ rest then .newline
        else .char task (if c = 10 ∨ c = 13 then 32 else c)) :: textMarks task rest

/-- What a call formats to, without its escape sequences. -/
def Call.stripped {T : Type} (c : Call T) : List UInt8 := stripAnsi (cString c.text)

def Call.marks {T : Type} (c : Call T) : List (Mark T) :=
  .start c.task (matchPrefix c.stripped).isSome :: textMarks c.task c.stripped

/-- The stream `marks` in lines, with the last one pending. -/
inductive Laid {T : Type} : List (Mark T) → List (RawLine T) → RawLine T → Prop where
  | nil : Laid [] [] []
  | start {marks : List (Mark T)} {lines : List (RawLine T)} {pending : RawLine T} (task : T)
      (opensLine : Bool) : Laid marks lines pending →
      Laid (marks ++ [.start task opensLine]) lines pending
  /-- A break before a call of another task, or one with a prefix. -/
  | interrupted {marks : List (Mark T)} {lines : List (RawLine T)} {pending : RawLine T}
      (task : T) (opensLine : Bool) : Laid marks lines pending →
      (∃ x ∈ pending, x.1 ≠ task) ∨ opensLine = true →
      Laid (marks ++ [.start task opensLine]) (lines ++ [pending]) []
  | char {marks : List (Mark T)} {lines : List (RawLine T)} {pending : RawLine T} (task : T)
      (c : UInt8) : Laid marks lines pending →
      Laid (marks ++ [.char task c]) lines (pending ++ [(task, c)])
  /-- A break where the buffer is full. -/
  | full {marks : List (Mark T)} {lines : List (RawLine T)} {pending : RawLine T} :
      Laid marks lines pending → pending.length = 255 → Laid marks (lines ++ [pending]) []
  | newline {marks : List (Mark T)} {lines : List (RawLine T)} {pending : RawLine T} :
      Laid marks lines pending → Laid (marks ++ [.newline]) (lines ++ [pending]) []

/-- The character of a mark, with its task. -/
def Mark.toChar {T : Type} : Mark T → Option (T × UInt8)
  | .char task c => some (task, c)
  | _ => none

/-- What is stored of a line: nothing, where it is blank. -/
def RawLine.stored {T : Type} (line : RawLine T) : Option LogLine :=
  if trimTrailing line.text = [] then none else some (parseLine (trimTrailing line.text))

/-- The ring after these lines. -/
def ringOf {T : Type} (lines : List (RawLine T)) : Ring :=
  (lines.filterMap RawLine.stored).foldl Ring.commit .start

/-- No line has text of two tasks. -/
def OneTask {T : Type} (line : RawLine T) : Prop := ∀ x ∈ line, ∀ y ∈ line, x.1 = y.1

/-! ## The accumulator -/

section

variable {T : Type} {s : LogBuf T} {marks : List (Mark T)} {c : Call T}
  {lines : List (RawLine T)} {line : RawLine T} {task : T} {opensLine : Bool}

/-- A layout neither drops a character of the stream nor moves one. -/
theorem Laid.chars {pending : RawLine T} (h : Laid marks lines pending) :
    lines.flatten ++ pending = marks.filterMap Mark.toChar := by
  induction h with
  | nil => rfl
  | start task opensLine _ ih =>
    rw [List.filterMap_append, ← ih]
    exact (List.append_nil _).symm
  | interrupted task opensLine _ _ ih | newline _ ih =>
    rw [List.filterMap_append, ← ih, List.flatten_append, List.flatten_singleton]
    rfl
  | char task c _ ih =>
    rw [List.filterMap_append, ← ih, List.append_assoc]
    rfl
  | full _ _ ih =>
    rw [← ih, List.flatten_append, List.flatten_singleton, List.append_nil]

theorem ringOf_concat : ringOf (lines ++ [line]) =
    if trimTrailing line.text = [] then ringOf lines
    else (ringOf lines).commit (parseLine (trimTrailing line.text)) := by
  unfold ringOf
  rw [List.filterMap_append, List.foldl_append]
  split
  · rename_i hblank
    rw [show [line].filterMap RawLine.stored = [] from by simp [RawLine.stored, hblank]]
    rfl
  · rename_i htext
    rw [show [line].filterMap RawLine.stored = [parseLine (trimTrailing line.text)] from by
      simp [RawLine.stored, htext]]
    rfl

/-- What carries the run: the buffer and the ring are those of a layout, and the pending line is
    the text of the task that it is put down to. -/
structure Assembled (marks : List (Mark T)) (s : LogBuf T) (lines : List (RawLine T))
    (pending : RawLine T) : Prop where
  laid : Laid marks lines pending
  oneTask : ∀ l ∈ lines, OneTask l
  text : s.pending = pending.text
  ring : s.ring = ringOf lines
  task : ∀ x ∈ pending, s.pendingTask = some x.1
  length_le : pending.length ≤ 255

namespace Assembled

variable {pending : RawLine T}

theorem pending_oneTask (h : Assembled marks s lines pending) : OneTask pending := fun x hx y hy =>
  Option.some.inj ((h.task x hx).symm.trans (h.task y hy))

/-- A line closed, for a reason that the stream or its layout has. -/
theorem commit {marks' : List (Mark T)} (h : Assembled marks s lines pending)
    (hlaid : Laid marks' (lines ++ [pending]) []) :
    Assembled marks' s.commitPending (lines ++ [pending]) [] := by
  refine ⟨hlaid, ?_, rfl, ?_, fun x hx => absurd hx List.not_mem_nil, Nat.zero_le _⟩
  · intro l hl
    rcases List.mem_append.mp hl with hl | hl
    · exact h.oneTask l hl
    · rw [List.mem_singleton.mp hl]
      exact h.pending_oneTask
  · unfold LogBuf.commitPending
    dsimp only
    rw [h.text, h.ring, ringOf_concat]

theorem push (h : Assembled marks s lines pending) (htask : s.pendingTask = some task)
    (hroom : pending.length < 255) (ch : UInt8) :
    Assembled (marks ++ [.char task ch]) { s with pending := s.pending ++ [ch] } lines
      (pending ++ [(task, ch)]) := by
  refine ⟨.char task ch h.laid, h.oneTask, ?_, h.ring, ?_, ?_⟩
  · dsimp only
    rw [h.text]
    unfold RawLine.text
    rw [List.map_append]
    rfl
  · intro x hx
    rcases List.mem_append.mp hx with hx | hx
    · exact h.task x hx
    · rw [List.mem_singleton.mp hx]
      exact htask
  · rw [List.length_append]
    exact hroom

theorem pendingPutc_task {ch : UInt8} : (s.pendingPutc ch).pendingTask = s.pendingTask := by
  unfold LogBuf.pendingPutc
  dsimp only
  split <;> rfl

/-- One character of the task whose line it is. -/
theorem putc (h : Assembled marks s lines pending) (htask : s.pendingTask = some task)
    (ch : UInt8) :
    ∃ lines' pending', Assembled (marks ++ [.char task ch]) (s.pendingPutc ch) lines' pending' := by
  have hlen : s.pending.length = pending.length := by
    rw [h.text]
    exact List.length_map _
  have hle := h.length_le
  unfold LogBuf.pendingPutc
  dsimp only
  split
  · rename_i hfull
    unfold stagingSize at hfull
    exact ⟨_, _, (h.commit (.full h.laid (by omega))).push htask (Nat.zero_lt_succ _) ch⟩
  · rename_i hroom
    unfold stagingSize at hroom
    exact ⟨_, _, h.push htask (by omega) ch⟩

theorem walk (h : Assembled marks s lines pending) (htask : s.pendingTask = some task)
    (text : List UInt8) :
    ∃ lines' pending', Assembled (marks ++ textMarks task text) (s.walk text) lines' pending' := by
  induction text generalizing marks s lines pending with
  | nil => exact ⟨_, _, by rw [textMarks, List.append_nil]; exact h⟩
  | cons ch rest ih =>
    unfold LogBuf.walk textMarks
    split
    · rw [List.append_cons]
      exact ih (h.commit (.newline h.laid)) htask
    · obtain ⟨lines', pending', hput⟩ := h.putc htask (if ch = 10 ∨ ch = 13 then 32 else ch)
      rw [List.append_cons]
      exact ih hput (pendingPutc_task.trans htask)

/-- The pending line is the caller's, or there is none and the caller opens one. -/
theorem openLine (h : Assembled marks s lines pending)
    (hmine : s.pending ≠ [] → s.pendingTask = some task) (fragment : List UInt8) :
    (s.openLine task fragment).pendingTask = some task ∧
      Assembled marks (s.openLine task fragment) lines pending := by
  unfold LogBuf.openLine
  split
  · rename_i hempty
    have hnil : pending = [] := List.map_eq_nil_iff.mp (h.text.symm.trans hempty)
    refine ⟨rfl, h.laid, h.oneTask, h.text, h.ring, fun x hx => ?_, h.length_le⟩
    exact absurd (hnil ▸ hx) List.not_mem_nil
  · rename_i hpending
    exact ⟨hmine hpending, h⟩

end Assembled

/-! ## Runs -/

theorem Call.fragment_eq (h : c.text.length < 256) : c.fragment = c.stripped := by
  unfold Call.fragment Call.stripped
  rw [List.take_of_length_le (show c.text.length ≤ stagingSize - 1 from Nat.le_of_lt_succ h)]

variable [DecidableEq T]

/-- A call begins: the line before is closed or goes on, and what is pending then is its own. -/
theorem Assembled.begin {pending : RawLine T} (h : Assembled marks s lines pending) (task : T)
    (fragment : List UInt8) :
    (s.begin task fragment).pendingTask = some task ∧ ∃ lines' pending',
      Assembled (marks ++ [.start task (matchPrefix fragment).isSome]) (s.begin task fragment)
        lines' pending' := by
  unfold LogBuf.begin LogBuf.interrupt
  by_cases hbreak : s.pending ≠ [] ∧
      (some task ≠ s.pendingTask ∨ (matchPrefix fragment).isSome = true)
  · have hreason : (∃ x ∈ pending, x.1 ≠ task) ∨ (matchPrefix fragment).isSome = true := by
      refine hbreak.2.imp_left fun hother => ?_
      obtain ⟨x, hx⟩ := List.exists_mem_of_ne_nil pending fun hnil => hbreak.1 (by
        rw [h.text, hnil]
        rfl)
      exact ⟨x, hx, fun htask => hother (by rw [h.task x hx, htask])⟩
    have hcommit := h.commit (.interrupted task _ h.laid hreason)
    rw [if_pos hbreak]
    obtain ⟨htask, hopen⟩ := hcommit.openLine (fun hne => absurd rfl hne) fragment
    exact ⟨htask, _, _, hopen⟩
  · have hmine : s.pending ≠ [] → s.pendingTask = some task := fun hne =>
      by_contra fun hother => hbreak ⟨hne, .inl fun heq => hother heq.symm⟩
    have hstart : Assembled (marks ++ [.start task (matchPrefix fragment).isSome]) s lines
        pending :=
      ⟨.start task _ h.laid, h.oneTask, h.text, h.ring, h.task, h.length_le⟩
    rw [if_neg hbreak]
    obtain ⟨htask, hopen⟩ := hstart.openLine hmine fragment
    exact ⟨htask, _, _, hopen⟩

theorem Assembled.step {pending : RawLine T} (h : Assembled marks s lines pending)
    (hlocked : c.locked = true) (hlen : c.text.length < 256) :
    ∃ lines' pending', Assembled (marks ++ c.marks) (s.step c) lines' pending' := by
  obtain ⟨htask, lines', pending', hbegin⟩ := h.begin c.task c.fragment
  obtain ⟨lines'', pending'', hwalk⟩ := hbegin.walk htask c.fragment
  refine ⟨lines'', pending'', ?_⟩
  unfold LogBuf.step LogBuf.logVprintf LogBuf.capture
  rw [hlocked, if_neg (by decide)]
  rw [List.append_assoc] at hwalk
  unfold Call.marks
  rw [← Call.fragment_eq hlen]
  exact hwalk

/-- Whatever the order of the calls, the lines stored are those of a layout of what the calls bring,
    trimmed and without the blank ones, what is pending is its end, and no line of it has text of
    two tasks. -/
theorem lines_assembled (serialLevel : Level) (calls : List (Call T))
    (h : ∀ c ∈ calls, c.locked = true ∧ c.text.length < 256) :
    ∃ lines pending, Laid (calls.flatMap Call.marks) lines pending ∧
      lines.flatten ++ pending = (calls.flatMap Call.marks).filterMap Mark.toChar ∧
      (∀ l ∈ lines, OneTask l) ∧ OneTask pending ∧
      (calls.foldl LogBuf.step (.start serialLevel)).ring = ringOf lines ∧
      (calls.foldl LogBuf.step (.start serialLevel)).pending = pending.text := by
  have hrun : ∀ {marks s lines pending}, Assembled marks s lines pending →
      ∃ lines' pending', Assembled (marks ++ calls.flatMap Call.marks)
        (calls.foldl LogBuf.step s) lines' pending' := by
    induction calls with
    | nil => exact fun h => ⟨_, _, by rw [List.flatMap_nil, List.append_nil]; exact h⟩
    | cons c calls ih =>
      intro marks s lines pending hs
      obtain ⟨hc, hcalls⟩ := List.forall_mem_cons.mp h
      obtain ⟨lines', pending', hstep⟩ := hs.step hc.1 hc.2
      rw [List.flatMap_cons, ← List.append_assoc]
      exact ih hcalls hstep
  have hstart : Assembled [] (LogBuf.start serialLevel : LogBuf T) [] [] :=
    ⟨.nil, fun _ hl => absurd hl List.not_mem_nil, rfl, rfl,
      fun _ hx => absurd hx List.not_mem_nil, Nat.zero_le _⟩
  obtain ⟨lines, pending, hend⟩ := hrun hstart
  exact ⟨lines, pending, hend.laid, hend.laid.chars, hend.oneTask, hend.pending_oneTask,
    hend.ring, hend.text⟩

end

/-- A line of the WiFi driver in three calls, with a call of another task between them. -/
def splicedCalls : List (Call Nat) :=
  [⟨1, 27 :: Lib.ascii "[0;32mI (1613) wifi: ", true⟩,
    ⟨2, Lib.ascii "W (1620) client_track: full\n", true⟩,
    ⟨1, Lib.ascii "Init dynamic tx buffer num: 32", true⟩, ⟨1, 27 :: Lib.ascii "[0m\n", true⟩]

theorem lines_assembled_spliced :
    ∃ lines pending, Laid (splicedCalls.flatMap Call.marks) lines pending ∧
      lines.flatten ++ pending = (splicedCalls.flatMap Call.marks).filterMap Mark.toChar ∧
      (∀ l ∈ lines, OneTask l) ∧ OneTask pending ∧
      (splicedCalls.foldl LogBuf.step (.start .warn)).ring = ringOf lines ∧
      (splicedCalls.foldl LogBuf.step (.start .warn)).pending = pending.text :=
  lines_assembled .warn splicedCalls (by decide +kernel)

end Logs
end Wt32Router
