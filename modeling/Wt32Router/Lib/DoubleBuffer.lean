import Wt32Router.Lib.Runs
import Mathlib.Logic.Function.Basic

/-!
# A record published through two buffers

One writer, one pointer, two buffers and no lock for the reader. The writer fills the buffer
that is not live, one field at a time, and then moves the pointer. A reader takes the pointer
once and reads fields through it, one at a time, each read deciding which is next (`Reads`).
Memory is sequentially consistent: a run is an interleaving of single reads and writes.

What the reader holds is a pointer and not a record, and nobody counts readers. One publish
during the call does no harm, since it fills the other buffer. The second one fills the
reader's.

> **`reads_one_record`**: if no publish begins in a buffer that a call is still
> reading, then all that the call has read comes from one published record, and it ends as it
> would have on that record.
-/

namespace Wt32Router
namespace Lib

open Function

/-- A computation that reads fields one at a time. -/
inductive Reads (F V α : Type) where
  | done (a : α)
  | read (f : F) (k : V → Reads F V α)

/-- What it comes to on a record that does not change. -/
def Reads.eval {F V α : Type} : Reads F V α → (F → V) → α
  | .done a, _ => a
  | .read f k, r => (k (r f)).eval r

def Reads.isOpen {F V α : Type} : Reads F V α → Bool
  | .done _ => false
  | .read _ _ => true

@[simp] theorem Reads.eval_done {F V α : Type} (a : α) (r : F → V) :
    (Reads.done a : Reads F V α).eval r = a := rfl

@[simp] theorem Reads.eval_read {F V α : Type} (f : F) (k : V → Reads F V α) (r : F → V) :
    (Reads.read f k).eval r = (k (r f)).eval r := rfl

namespace DoubleBuffer

/-- A record after a list of single writes. -/
def writeAll {F V : Type} [DecidableEq F] (ws : List (F × V)) (m : F → V) : F → V :=
  ws.foldl (fun m w => update m w.1 w.2) m

/-- What the records are, which writes fill one in, and what a reader's call computes. -/
structure Layout (R F V C α : Type) [DecidableEq F] where
  field : R → F → V
  script : R → List (F × V)
  reads : C → Reads F V α
  /-- the writes leave nothing of what the buffer held -/
  complete : ∀ r m, writeAll (script r) m = field r

/-- A reader's call: the buffer it took, what is left of its reads, and the values it has
    read. -/
structure ReadCall (F V C α : Type) where
  call : C
  ptr : Bool
  rest : Reads F V α
  seen : List (F × V)

/-- The two buffers, the pointer, the record being filled in with the writes still to do, and
    the reader's last call. -/
structure State (R F V C α : Type) where
  mem : Bool → F → V
  active : Bool
  filling : Option (R × List (F × V))
  reader : Option (ReadCall F V C α)

inductive Event (R C : Type) where
  /-- the writer has the mutex, and picks its buffer -/
  | begin (r : R)
  | write
  /-- the pointer moves -/
  | flip
  /-- the reader takes the pointer -/
  | take (c : C)
  | read

variable {R F V C α : Type} [DecidableEq F]

def Layout.step (l : Layout R F V C α) (s : State R F V C α) : Event R C → State R F V C α
  | .begin r =>
      match s.filling with
      | none => { s with filling := some (r, l.script r) }
      | some _ => s
  | .write =>
      match s.filling with
      | some (r, (f, x) :: ws) =>
          { s with
            mem := update s.mem (!s.active) (update (s.mem (!s.active)) f x)
            filling := some (r, ws) }
      | _ => s
  | .flip =>
      match s.filling with
      | some (_, []) => { s with active := !s.active, filling := none }
      | _ => s
  | .take c => { s with reader := some ⟨c, s.active, l.reads c, []⟩ }
  | .read =>
      match s.reader with
      | some ⟨c, ptr, .read f k, seen⟩ =>
          { s with reader := some ⟨c, ptr, k (s.mem ptr f), (f, s.mem ptr f) :: seen⟩ }
      | _ => s

/-- The records published so far, as a monitor. -/
def published (s : State R F V C α) (e : Event R C) (rs : List R) : List R :=
  match e with
  | .flip =>
      match s.filling with
      | some (r, []) => r :: rs
      | _ => rs
  | _ => rs

def Layout.start (l : Layout R F V C α) (r : R) : State R F V C α :=
  ⟨fun _ => l.field r, false, none, none⟩

/-- The reader is in a call, and the pointer is no longer the one it took. -/
def State.overtaken (s : State R F V C α) : Bool :=
  match s.reader with
  | some c => c.rest.isOpen && c.ptr != s.active
  | none => false

def Event.begins : Event R C → Bool
  | .begin _ => true
  | _ => false

/-- No publish begins in the buffer a call is still reading. -/
def Undisturbed (s : State R F V C α × List R) (e : Event R C) : Prop :=
  e.begins = true → s.1.overtaken = false

instance (s : State R F V C α × List R) (e : Event R C) : Decidable (Undisturbed s e) :=
  inferInstanceAs (Decidable (_ → _))

/-- What a call has read is from the record `r`, and it goes on as on `r`. -/
structure Layout.ReadsOf (l : Layout R F V C α) (r : R) (c : ReadCall F V C α) : Prop where
  seen : ∀ p ∈ c.seen, p.2 = l.field r p.1
  rest : c.rest.eval (l.field r) = (l.reads c.call).eval (l.field r)

/-- The call has read one published record, and while it goes on that is the one its buffer
    still holds, which the writer is not filling. -/
def Layout.CallOk (l : Layout R F V C α) (s : State R F V C α) (rs : List R)
    (c : ReadCall F V C α) : Prop :=
  ∃ r ∈ rs, l.ReadsOf r c ∧
    (c.rest.isOpen = true → s.mem c.ptr = l.field r ∧ (c.ptr ≠ s.active → s.filling = none))

/-- What holds along an undisturbed run. -/
structure Layout.Ok (l : Layout R F V C α) (s : State R F V C α × List R) : Prop where
  live : ∃ r ∈ s.2, s.1.mem s.1.active = l.field r
  filling : ∀ r ws, s.1.filling = some (r, ws) → writeAll ws (s.1.mem (!s.1.active)) = l.field r
  reader : ∀ c, s.1.reader = some c → l.CallOk s.1 s.2 c

variable {l : Layout R F V C α} {s : State R F V C α} {rs : List R} {r : R}
  {c : ReadCall F V C α} {e : Event R C}

theorem Layout.CallOk.keep {s' : State R F V C α} {rs' : List R} (h : l.CallOk s rs c)
    (hrs : ∀ r ∈ rs, r ∈ rs') (hmem : c.rest.isOpen = true → s'.mem c.ptr = s.mem c.ptr)
    (hfill : c.rest.isOpen = true → c.ptr ≠ s'.active → s'.filling = none) :
    l.CallOk s' rs' c := by
  obtain ⟨r, hr, hreads, hopen⟩ := h
  refine ⟨r, hrs r hr, hreads, fun ho => ⟨?_, hfill ho⟩⟩
  rw [hmem ho]
  exact (hopen ho).1

/-- While a record is being filled in, an open call reads the other buffer. -/
theorem Layout.CallOk.ptr_active (h : l.CallOk s rs c) (ho : c.rest.isOpen = true)
    (hfill : s.filling ≠ none) : c.ptr = s.active := by
  obtain ⟨_, _, _, hopen⟩ := h
  by_contra hne
  exact hfill ((hopen ho).2 hne)

theorem Layout.Ok.begin (h : l.Ok (s, rs)) (hok : Undisturbed (s, rs) (.begin r)) :
    l.Ok (l.step s (.begin r), rs) := by
  dsimp only [Layout.step]
  cases hf : s.filling with
  | some w => exact h
  | none =>
    refine ⟨h.live, ?_, fun c hc => (h.reader c hc).keep (fun _ hr => hr) (fun _ => rfl) ?_⟩
    · intro r' ws hfill
      obtain ⟨rfl, rfl⟩ : r = r' ∧ l.script r = ws := by simpa using hfill
      exact l.complete _ _
    · -- an open call is in the buffer that is live, and this is the other one
      intro ho hne
      have hover : s.overtaken = false := hok rfl
      rw [State.overtaken, show s.reader = some c from hc] at hover
      simp only [ho, Bool.true_and, bne_eq_false_iff_eq] at hover
      exact absurd hover hne

theorem Layout.Ok.write (h : l.Ok (s, rs)) : l.Ok (l.step s .write, rs) := by
  dsimp only [Layout.step]
  cases hf : s.filling with
  | none => exact h
  | some w =>
    obtain ⟨r, ws⟩ := w
    cases ws with
    | nil => exact h
    | cons w ws =>
      obtain ⟨f, x⟩ := w
      -- the write goes to the buffer that is not live, and no open call is in that one
      refine ⟨?_, ?_, fun c hc => ?_⟩
      · simpa using h.live
      · intro r' ws' hfill
        obtain ⟨rfl, rfl⟩ : r = r' ∧ ws = ws' := by simpa using hfill
        simpa [writeAll] using h.filling _ _ hf
      · have hptr : c.rest.isOpen = true → c.ptr = s.active := fun ho =>
          (h.reader c hc).ptr_active ho (by simp [hf])
        refine (h.reader c hc).keep (fun _ hr => hr) (fun ho => ?_) fun ho hne => ?_
        · simp [hptr ho]
        · exact absurd (hptr ho) hne

theorem Layout.Ok.flip (h : l.Ok (s, rs)) : l.Ok (l.step s .flip, published s .flip rs) := by
  dsimp only [Layout.step, published]
  cases hf : s.filling with
  | none => exact h
  | some w =>
    obtain ⟨r, ws⟩ := w
    cases ws with
    | cons w ws => exact h
    | nil =>
      have hmem : s.mem (!s.active) = l.field r := h.filling _ _ hf
      refine ⟨⟨r, List.mem_cons_self, hmem⟩, fun _ _ hfill => absurd hfill (by simp),
        fun c hc => ?_⟩
      -- an open call keeps its buffer, which is not live any more and not being filled either
      exact (h.reader c hc).keep (fun _ hr => List.mem_cons_of_mem _ hr) (fun _ => rfl)
        fun _ _ => rfl

theorem Layout.Ok.take {c : C} (h : l.Ok (s, rs)) : l.Ok (l.step s (.take c), rs) := by
  refine ⟨h.live, h.filling, fun c' hc' => ?_⟩
  obtain rfl : ⟨c, s.active, l.reads c, []⟩ = c' := by simpa [Layout.step] using hc'
  obtain ⟨r, hr, hmem⟩ := h.live
  exact ⟨r, hr, ⟨by simp, rfl⟩, fun _ => ⟨hmem, fun hne => absurd rfl hne⟩⟩

theorem Layout.Ok.read (h : l.Ok (s, rs)) : l.Ok (l.step s .read, rs) := by
  dsimp only [Layout.step]
  split
  · rename_i c ptr f k seen hcall
    refine ⟨h.live, h.filling, fun c' hc' => ?_⟩
    obtain rfl : ⟨c, ptr, k (s.mem ptr f), (f, s.mem ptr f) :: seen⟩ = c' := by simpa using hc'
    obtain ⟨r, hr, hreads, hopen⟩ := h.reader _ hcall
    obtain ⟨hmem, hfill⟩ := hopen rfl
    have hmem : s.mem ptr = l.field r := hmem
    -- the buffer holds the record the call began on, so the value read is the record's
    refine ⟨r, hr, ⟨?_, ?_⟩, fun _ => ⟨hmem, hfill⟩⟩
    · rintro p hp
      rcases List.mem_cons.mp hp with rfl | hp
      · rw [hmem]
      · exact hreads.seen p hp
    · show (k (s.mem ptr f)).eval (l.field r) = _
      rw [hmem]
      exact hreads.rest
  · exact h

theorem Layout.Ok.step (h : l.Ok (s, rs)) (hok : Undisturbed (s, rs) e) :
    l.Ok (l.step s e, published s e rs) := by
  cases e with
  | begin r => exact h.begin hok
  | write => exact h.write
  | flip => exact h.flip
  | take c => exact h.take
  | read => exact h.read

theorem Layout.start_ok : l.Ok (l.start r, [r]) :=
  ⟨⟨r, List.mem_singleton.mpr rfl, rfl⟩, fun _ _ hfill => absurd hfill (by simp [Layout.start]),
    fun _ hcall => absurd hcall (by simp [Layout.start])⟩

/-- **An undisturbed call reads one record.** -/
theorem reads_one_record {es : List (Event R C)}
    (h : Along (watch l.step published) Undisturbed (l.start r, [r]) es) :
    let now := es.foldl (watch l.step published) (l.start r, [r])
    ∀ c, now.1.reader = some c → ∃ r ∈ now.2, l.ReadsOf r c := by
  intro now c hc
  have hnow : l.Ok now := h.invariant Layout.start_ok fun _ _ hI hok => hI.step hok
  obtain ⟨r, hr, hreads, _⟩ := hnow.reader c hc
  exact ⟨r, hr, hreads⟩

/-- Fields written one by one are the record's afterwards, and the others as they were. -/
theorem writeAll_map (fs : List F) (w : F → V) (m : F → V) (f : F) :
    writeAll (fs.map fun f => (f, w f)) m f = if f ∈ fs then w f else m f := by
  -- on the fields, over whatever has been written before
  induction fs generalizing m with
  | nil => rfl
  | cons g fs ih =>
    have hcons : writeAll ((g :: fs).map fun f => (f, w f)) m =
        writeAll (fs.map fun f => (f, w f)) (update m g (w g)) := rfl
    rw [hcons, ih]
    by_cases hmem : f ∈ fs
    · simp [hmem]
    · rcases eq_or_ne f g with rfl | hne
      · simp [hmem]
      · simp [hmem, hne]

theorem writeAll_append (ws vs : List (F × V)) (m : F → V) :
    writeAll (ws ++ vs) m = writeAll vs (writeAll ws m) := List.foldl_append

end DoubleBuffer
end Lib
end Wt32Router
