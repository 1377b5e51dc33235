import Mathlib.Data.Nat.ModEq
import Mathlib.Algebra.Order.Monoid.Unbundled.Pow
import Wt32Router.Lib.DoubleBuffer

/-!
# A record read without a lock, and checked afterwards

One writer, one copy of the record, and a generation that is odd while the record is being
rewritten. A reader takes the generation, reads the words it wants, and takes the generation
again: it may act on what it read if the two are the same and even. Memory is sequentially
consistent, and a run is an interleaving of single reads and writes.

Some words may lie outside the generation, written before it goes odd or after it is even again:
they are read at the reader's own risk.

A generation of `w` bits comes back after `2 ^ w` bumps. So what a check is worth depends on how
many publishes overlap the call, which each call counts.

> **`Layout.Ok.validated`**: between two reads of one even generation, in a call that fewer than
> `2 ^ (w - 1)` publishes overlap, every guarded word was read while memory held one record.
-/

namespace Wt32Router
namespace Lib

open Function

/-- The reads a computation has made, with their answers, and what is left of it. -/
def Reads.Leads {F V α : Type} : Reads F V α → List (F × V) → Reads F V α → Prop
  | p, [], q => p = q
  | .read f k, x :: xs, q => x.1 = f ∧ (k x.2).Leads xs q
  | .done _, _ :: _, _ => False
termination_by structural _ xs _ => xs

/-- At most so many reads, whatever the answers. -/
def Reads.Within {F V α : Type} : Nat → Reads F V α → Prop
  | _, .done _ => True
  | 0, .read _ _ => False
  | n + 1, .read _ k => ∀ x, (k x).Within n

theorem Reads.Leads.snoc {F V α : Type} {p : Reads F V α} {xs : List (F × V)} {f : F}
    {k : V → Reads F V α} (h : p.Leads xs (.read f k)) (x : V) : p.Leads (xs ++ [(f, x)]) (k x) := by
  induction xs generalizing p with
  | nil =>
    obtain rfl : p = .read f k := h
    exact ⟨rfl, rfl⟩
  | cons y ys ih =>
    cases p with
    | done a => exact h.elim
    | read g k' => exact ⟨h.1, ih h.2⟩

/-- A computation that has ended began with its first read, and went on from the answer. -/
theorem Reads.Leads.of_read {F V α : Type} {f : F} {k : V → Reads F V α} {xs : List (F × V)} {a : α}
    (h : (Reads.read f k).Leads xs (.done a)) :
    ∃ x ys, xs = (f, x) :: ys ∧ (k x).Leads ys (.done a) := by
  cases xs with
  | nil => exact absurd h (by simp [Reads.Leads])
  | cons x ys => exact ⟨x.2, ys, by rw [← h.1], h.2⟩

theorem Reads.Leads.of_done {F V α : Type} {xs : List (F × V)} {a b : α}
    (h : (Reads.done b : Reads F V α).Leads xs (.done a)) : xs = [] ∧ b = a := by
  cases xs with
  | nil => exact ⟨rfl, Reads.done.inj h⟩
  | cons x ys => exact h.elim

theorem Reads.within_done {F V α : Type} (n : Nat) (a : α) :
    (Reads.done a : Reads F V α).Within n := by
  cases n <;> trivial

theorem Reads.Within.succ {F V α : Type} {n : Nat} {p : Reads F V α} (h : p.Within n) :
    p.Within (n + 1) := by
  induction p generalizing n with
  | done a => exact Reads.within_done _ a
  | read f k ih =>
    cases n with
    | zero => exact h.elim
    | succ n => exact fun x => ih x (h x)

/-- A bounded computation stays within its bound, read by read. -/
theorem Reads.Within.leads {F V α : Type} {n : Nat} {p q : Reads F V α} {xs : List (F × V)}
    (h : p.Within n) (hq : p.Leads xs q) : ∃ m, n = xs.length + m ∧ q.Within m := by
  induction xs generalizing p n with
  | nil =>
    obtain rfl : p = q := hq
    exact ⟨n, (Nat.zero_add n).symm, h⟩
  | cons x xs ih =>
    cases p with
    | done a => exact hq.elim
    | read f k =>
      cases n with
      | zero => exact h.elim
      | succ n =>
        obtain ⟨m, hm, hw⟩ := ih (h x.2) hq.2
        refine ⟨m, ?_, hw⟩
        rw [hm, List.length_cons, Nat.succ_add]

namespace Seqlock

open DoubleBuffer (writeAll)

inductive Cell (F : Type) where
  | gen
  | word (f : F)

/-- What memory holds of a record, the three parts of a publish (up to the first bump, up to
    the second, and after it), and what a reader's call computes. -/
structure Layout (R F : Type) (w : Nat) (C α : Type) [DecidableEq F] where
  field : R → F → BitVec w
  guarded : F → Bool
  before : R → List (F × BitVec w)
  inside : R → List (F × BitVec w)
  after : R → List (F × BitVec w)
  reads : C → Reads (Cell F) (BitVec w) α
  /-- the rewrite leaves nothing of what the guarded words held -/
  rewrites : ∀ r m f, guarded f = true → writeAll (inside r) m f = field r f
  complete : ∀ r m, writeAll (before r ++ (inside r ++ after r)) m = field r
  spares : ∀ r, ∀ p ∈ before r ++ after r, guarded p.1 = false

/-- Where a publish stands, and the writes still to do in that part of it. -/
inductive Writer (R F : Type) (w : Nat) where
  | idle
  | before (r : R) (ws : List (F × BitVec w))
  | inside (r : R) (ws : List (F × BitVec w))
  | after (r : R) (ws : List (F × BitVec w))

/-- One read of a call. -/
structure Look (F : Type) (w : Nat) where
  cell : Cell F
  value : BitVec w
  /-- the bumps there had been: twice the number of the record memory held, or odd while it was
      being rewritten -/
  bumps : Nat

/-- A reader's call. -/
structure ReadCall (F : Type) (w : Nat) (C α : Type) where
  call : C
  rest : Reads (Cell F) (BitVec w) α
  log : List (Look F w)
  /-- the publishes that were under way when the call was made, or began during it -/
  overlaps : Nat
  /-- the number of the last record published when the call was made -/
  base : Nat

/-- Memory, the writer, the records published so far by their number, and the reader's last
    call. Readers write nothing, so one of them is as good as many. -/
structure State (R F : Type) (w : Nat) (C α : Type) where
  mem : F → BitVec w
  gen : BitVec w
  writer : Writer R F w
  latest : Nat
  published : Nat → R
  reader : Option (ReadCall F w C α)

inductive Event (R C : Type) where
  /-- the writer has the mutex -/
  | begin (r : R)
  /-- its next write -/
  | write
  | call (c : C)
  | read

variable {R F C α : Type} {w : Nat} [DecidableEq F]

def Writer.isIdle : Writer R F w → Bool
  | .idle => true
  | _ => false

/-- The bumps of the generation so far. -/
def State.bumps (s : State R F w C α) : Nat :=
  match s.writer with
  | .inside _ _ => 2 * s.latest + 1
  | _ => 2 * s.latest

/-- The bumps a publish has still to make. -/
def Writer.left : Writer R F w → Nat
  | .before _ _ => 2
  | .inside _ _ => 1
  | _ => 0

def State.get (s : State R F w C α) : Cell F → BitVec w
  | .gen => s.gen
  | .word f => s.mem f

def ReadCall.overlap (c : ReadCall F w C α) : ReadCall F w C α :=
  if c.rest.isOpen then { c with overlaps := c.overlaps + 1 } else c

def Layout.step (l : Layout R F w C α) (s : State R F w C α) : Event R C → State R F w C α
  | .begin r =>
      match s.writer with
      | .idle =>
          { s with writer := .before r (l.before r), reader := s.reader.map ReadCall.overlap }
      | _ => s
  | .write =>
      match s.writer with
      | .idle => s
      | .before r ((f, x) :: ws) => { s with mem := update s.mem f x, writer := .before r ws }
      | .before r [] => { s with gen := s.gen + 1, writer := .inside r (l.inside r) }
      | .inside r ((f, x) :: ws) => { s with mem := update s.mem f x, writer := .inside r ws }
      | .inside r [] =>
          { s with
            gen := s.gen + 1
            writer := .after r (l.after r)
            latest := s.latest + 1
            published := update s.published (s.latest + 1) r }
      | .after r ((f, x) :: ws) => { s with mem := update s.mem f x, writer := .after r ws }
      | .after _ [] => { s with writer := .idle }
  | .call c =>
      { s with reader := some ⟨c, l.reads c, [], if s.writer.isIdle then 0 else 1, s.latest⟩ }
  | .read =>
      match s.reader with
      | some ⟨c, .read cell k, log, overlaps, base⟩ =>
          { s with
            reader := some ⟨c, k (s.get cell), log ++ [⟨cell, s.get cell, s.bumps⟩], overlaps,
              base⟩ }
      | _ => s

def Layout.start (l : Layout R F w C α) (r : R) : State R F w C α :=
  ⟨l.field r, 0, .idle, 0, fun _ => r, none⟩

/-! ## What a publish keeps -/

/-- The guarded words are those of the last record published. -/
def Layout.Holds (l : Layout R F w C α) (s : State R F w C α) : Prop :=
  ∀ f, l.guarded f = true → s.mem f = l.field (s.published s.latest) f

def Layout.WriterOk (l : Layout R F w C α) (s : State R F w C α) : Prop :=
  match s.writer with
  | .idle => s.mem = l.field (s.published s.latest)
  | .before r ws => l.Holds s ∧ (∀ p ∈ ws, l.guarded p.1 = false) ∧
      writeAll (ws ++ (l.inside r ++ l.after r)) s.mem = l.field r
  | .inside r ws => (∀ f, l.guarded f = true → writeAll ws s.mem f = l.field r f) ∧
      writeAll (ws ++ l.after r) s.mem = l.field r
  | .after r ws => s.published s.latest = r ∧ l.Holds s ∧ (∀ p ∈ ws, l.guarded p.1 = false) ∧
      writeAll ws s.mem = l.field r

/-- What was read of a word is what the record then in memory has there. -/
structure Layout.LookOk (l : Layout R F w C α) (s : State R F w C α) (x : Look F w) : Prop where
  past : x.bumps ≤ s.bumps
  gen : x.cell = .gen → x.value = BitVec.ofNat w x.bumps
  word : ∀ f v, x.cell = .word f → l.guarded f = true → x.bumps = 2 * v →
    v ≤ s.latest ∧ x.value = l.field (s.published v) f

/-- Memory as it is while record `v` is the last one and no publish is under way. -/
def Layout.quiet (l : Layout R F w C α) (s : State R F w C α) (v : Nat) : Cell F → BitVec w
  | .gen => BitVec.ofNat w (2 * v)
  | .word f => l.field (s.published v) f

structure Layout.CallOk (l : Layout R F w C α) (s : State R F w C α) (c : ReadCall F w C α) :
    Prop where
  leads : (l.reads c.call).Leads (c.log.map fun x => (x.cell, x.value)) c.rest
  log : ∀ x ∈ c.log, l.LookOk s x
  sorted : c.log.Pairwise fun x y => x.bumps ≤ y.bumps
  span : ∀ x ∈ c.log, 2 * c.base ≤ x.bumps ∧ x.bumps ≤ 2 * c.base + 2 * c.overlaps
  base_le : c.base ≤ s.latest
  room : c.rest.isOpen = true → s.bumps + s.writer.left ≤ 2 * c.base + 2 * c.overlaps
  idle : c.rest.isOpen = true → c.overlaps = 0 → s.writer.isIdle = true
  quiet : c.overlaps = 0 →
    c.rest.eval (l.quiet s c.base) = (l.reads c.call).eval (l.quiet s c.base)

structure Layout.Ok (l : Layout R F w C α) (s : State R F w C α) : Prop where
  gen : s.gen = BitVec.ofNat w s.bumps
  writer : l.WriterOk s
  reader : ∀ c, s.reader = some c → l.CallOk s c

/-- A step of the writer: bumps are only added, and what was published stays. -/
structure Grows (s s' : State R F w C α) : Prop where
  latest : s.latest ≤ s'.latest
  bumps : s.bumps ≤ s'.bumps
  published : ∀ v ≤ s.latest, s'.published v = s.published v

variable {l : Layout R F w C α} {s s' : State R F w C α} {r : R} {c : ReadCall F w C α}
  {e : Event R C} {x : Look F w} {f : F} {v : Nat} {ws : List (F × BitVec w)}

omit [DecidableEq F] in
theorem Grows.of_eq (hlatest : s'.latest = s.latest) (hpub : s'.published = s.published)
    (hbumps : s.bumps ≤ s'.bumps) : Grows s s' :=
  ⟨Nat.le_of_eq hlatest.symm, hbumps, fun v _ => by rw [hpub]⟩

omit [DecidableEq F] in
theorem Grows.reader (s : State R F w C α) (rc : Option (ReadCall F w C α)) :
    Grows s { s with reader := rc } := .of_eq rfl rfl (Nat.le_refl _)

theorem Layout.LookOk.grow (h : l.LookOk s x) (hg : Grows s s') : l.LookOk s' x := by
  refine ⟨le_trans h.past hg.bumps, h.gen, fun f v hcell hf hv => ?_⟩
  obtain ⟨hle, hval⟩ := h.word f v hcell hf hv
  refine ⟨le_trans hle hg.latest, ?_⟩
  rw [hg.published v hle]
  exact hval

theorem Layout.quiet_grow (hg : Grows s s') (hv : v ≤ s.latest) : l.quiet s' v = l.quiet s v := by
  funext cell
  cases cell with
  | gen => rfl
  | word f =>
    show l.field (s'.published v) f = l.field (s.published v) f
    rw [hg.published v hv]

/-- A call under way goes on as it was, through a step that adds no bump it has no room for. -/
theorem Layout.CallOk.grow (h : l.CallOk s c) (hg : Grows s s')
    (hroom : c.rest.isOpen = true → s'.bumps + s'.writer.left ≤ s.bumps + s.writer.left)
    (hidle : s.writer.isIdle = true → s'.writer.isIdle = true) : l.CallOk s' c where
  leads := h.leads
  log x hx := (h.log x hx).grow hg
  sorted := h.sorted
  span := h.span
  base_le := le_trans h.base_le hg.latest
  room ho := le_trans (hroom ho) (h.room ho)
  idle ho h0 := hidle (h.idle ho h0)
  quiet h0 := by
    rw [Layout.quiet_grow hg h.base_le]
    exact h.quiet h0

/-! ## A publish, step by step -/

theorem Layout.Holds.spare (h : l.Holds s) {p : F × BitVec w} (hp : l.guarded p.1 = false) :
    ∀ f, l.guarded f = true → update s.mem p.1 p.2 f = l.field (s.published s.latest) f := by
  intro f hf
  have hne : f ≠ p.1 := by
    rintro rfl
    exact Bool.false_ne_true (hp.symm.trans hf)
  rw [update_of_ne hne]
  exact h f hf

/-- **One step of the writer** keeps memory in order, and adds the bumps it has left. -/
theorem Layout.Ok.write_step (h : l.Ok s) :
    let s' := l.step s .write
    s'.gen = BitVec.ofNat w s'.bumps ∧ l.WriterOk s' ∧ Grows s s' ∧ s'.reader = s.reader ∧
      s'.bumps + s'.writer.left ≤ s.bumps + s.writer.left ∧
      (s.writer.isIdle = true → s'.writer.isIdle = true) := by
  have hgen := h.gen
  have hwriter := h.writer
  obtain ⟨mem, gen, writer, latest, published, reader⟩ := s
  unfold State.bumps at hgen
  unfold Layout.WriterOk at hwriter
  dsimp only at hgen hwriter
  cases writer with
  | idle => exact ⟨hgen, hwriter, .of_eq rfl rfl (Nat.le_refl _), rfl, Nat.le_refl _, id⟩
  | before r ws =>
    obtain ⟨hholds, hspare, hall⟩ := hwriter
    cases ws with
    | cons p ws =>
      refine ⟨hgen, ⟨?_, ?_, hall⟩, .of_eq rfl rfl (Nat.le_refl _), rfl, Nat.le_refl _,
        fun hidle => absurd hidle Bool.false_ne_true⟩
      · exact hholds.spare (hspare p List.mem_cons_self)
      · exact fun q hq => hspare q (List.mem_cons_of_mem _ hq)
    | nil =>
      refine ⟨?_, ⟨?_, hall⟩, .of_eq rfl rfl (Nat.le_succ _), rfl, Nat.le_refl _,
        fun hidle => absurd hidle Bool.false_ne_true⟩
      · show gen + 1 = BitVec.ofNat w (2 * latest + 1)
        rw [hgen, BitVec.ofNat_add]
        rfl
      · exact fun f hf => l.rewrites r mem f hf
  | inside r ws =>
    obtain ⟨hguard, hall⟩ := hwriter
    cases ws with
    | cons p ws =>
      exact ⟨hgen, ⟨hguard, hall⟩, .of_eq rfl rfl (Nat.le_refl _), rfl, Nat.le_refl _,
        fun hidle => absurd hidle Bool.false_ne_true⟩
    | nil =>
      -- the record is complete, and gets its number
      have hpub : update published (latest + 1) r (latest + 1) = r := update_self _ _ _
      refine ⟨?_, ⟨hpub, ?_, ?_, hall⟩, ⟨Nat.le_succ _, ?_, ?_⟩, rfl, Nat.le_refl _,
        fun hidle => absurd hidle Bool.false_ne_true⟩
      · show gen + 1 = BitVec.ofNat w (2 * (latest + 1))
        rw [hgen, show 2 * (latest + 1) = 2 * latest + 1 + 1 from rfl,
          BitVec.ofNat_add (2 * latest + 1)]
        rfl
      · intro f hf
        show mem f = l.field (update published (latest + 1) r (latest + 1)) f
        rw [hpub]
        exact hguard f hf
      · exact fun p hp => l.spares r p (List.mem_append_right _ hp)
      · show 2 * latest + 1 ≤ 2 * (latest + 1)
        omega
      · intro v hv
        exact update_of_ne (Nat.ne_of_lt (Nat.lt_succ_of_le hv)) _ _
  | after r ws =>
    obtain ⟨hpub, hholds, hspare, hall⟩ := hwriter
    cases ws with
    | cons p ws =>
      refine ⟨hgen, ⟨hpub, ?_, ?_, hall⟩, .of_eq rfl rfl (Nat.le_refl _), rfl, Nat.le_refl _,
        fun hidle => absurd hidle Bool.false_ne_true⟩
      · exact hholds.spare (hspare p List.mem_cons_self)
      · exact fun q hq => hspare q (List.mem_cons_of_mem _ hq)
    | nil =>
      refine ⟨hgen, ?_, .of_eq rfl rfl (Nat.le_refl _), rfl, Nat.le_refl _, fun _ => rfl⟩
      show mem = l.field (published latest)
      have hpub : published latest = r := hpub
      rw [hpub]
      exact hall

theorem Layout.Ok.write (h : l.Ok s) : l.Ok (l.step s .write) := by
  obtain ⟨hgen, hwriter, hg, hreader, hroom, hidle⟩ := h.write_step
  refine ⟨hgen, hwriter, fun c hc => ?_⟩
  rw [hreader] at hc
  exact (h.reader c hc).grow hg (fun _ => hroom) hidle

/-- A publish that begins during a call is one more that overlaps it. -/
theorem Layout.CallOk.overlap (h : l.CallOk s c) (hg : Grows s s')
    (hroom : s'.bumps + s'.writer.left ≤ s.bumps + s.writer.left + 2) :
    l.CallOk s' c.overlap := by
  have hquiet := Layout.quiet_grow (l := l) hg h.base_le
  unfold ReadCall.overlap
  split
  · rename_i ho
    refine ⟨h.leads, fun x hx => (h.log x hx).grow hg, h.sorted, fun x hx => ?_,
      le_trans h.base_le hg.latest, fun _ => ?_, fun _ h0 => absurd h0 (Nat.succ_ne_zero _),
      fun h0 => absurd h0 (Nat.succ_ne_zero _)⟩
    · obtain ⟨hlo, hhi⟩ := h.span x hx
      refine ⟨hlo, ?_⟩
      show x.bumps ≤ 2 * c.base + 2 * (c.overlaps + 1)
      omega
    · have hold := h.room ho
      show s'.bumps + s'.writer.left ≤ 2 * c.base + 2 * (c.overlaps + 1)
      omega
  · rename_i ho
    refine ⟨h.leads, fun x hx => (h.log x hx).grow hg, h.sorted, h.span,
      le_trans h.base_le hg.latest, fun ho' => absurd ho' ho, fun ho' => absurd ho' ho, ?_⟩
    rw [hquiet]
    exact h.quiet

theorem Layout.Ok.begin (h : l.Ok s) : l.Ok (l.step s (.begin r)) := by
  have hgen := h.gen
  have hwriter := h.writer
  cases hw : s.writer with
  | before _ _ | inside _ _ | after _ _ =>
    have hstep : l.step s (.begin r) = s := by
      dsimp only [Layout.step]
      rw [hw]
    rw [hstep]
    exact h
  | idle =>
    unfold State.bumps at hgen
    unfold Layout.WriterOk at hwriter
    rw [hw] at hgen hwriter
    have hstep : l.step s (.begin r) = { s with
        writer := .before r (l.before r), reader := s.reader.map ReadCall.overlap } := by
      dsimp only [Layout.step]
      rw [hw]
    have hbumps : s.bumps = 2 * s.latest := by
      unfold State.bumps
      rw [hw]
    rw [hstep]
    refine ⟨hgen, ⟨?_, fun p hp => l.spares r p (List.mem_append_left _ hp), l.complete r s.mem⟩,
      fun c' hc' => ?_⟩
    · intro f _
      exact congrFun hwriter f
    · obtain ⟨c, hc, rfl⟩ := Option.map_eq_some_iff.mp hc'
      refine (h.reader c hc).overlap (.of_eq rfl rfl (Nat.le_of_eq hbumps)) ?_
      rw [hbumps, hw]
      exact Nat.le_refl _

/-! ## A call, read by read -/

/-- What memory holds while the generation is even. -/
theorem Layout.Ok.holds (h : l.Ok s) (hv : s.bumps = 2 * v) : v = s.latest ∧ l.Holds s := by
  have hwriter := h.writer
  unfold Layout.WriterOk at hwriter
  unfold State.bumps at hv
  cases hw : s.writer with
  | idle =>
    rw [hw] at hv hwriter
    dsimp only at hv
    exact ⟨by omega, fun f _ => congrFun hwriter f⟩
  | before r ws =>
    rw [hw] at hv hwriter
    dsimp only at hv
    exact ⟨by omega, hwriter.1⟩
  | inside r ws =>
    rw [hw] at hv
    dsimp only at hv
    omega
  | after r ws =>
    rw [hw] at hv hwriter
    dsimp only at hv
    exact ⟨by omega, hwriter.2.1⟩

theorem Layout.Ok.look (h : l.Ok s) (cell : Cell F) : l.LookOk s ⟨cell, s.get cell, s.bumps⟩ := by
  refine ⟨Nat.le_refl _, ?_, ?_⟩
  · rintro rfl
    exact h.gen
  · rintro f v rfl hf hv
    obtain ⟨rfl, hholds⟩ := h.holds hv
    exact ⟨Nat.le_refl _, hholds f hf⟩

/-- With no publish under way memory is that of the last record, all of it. -/
theorem Layout.Ok.get_idle (h : l.Ok s) (hidle : s.writer.isIdle = true) :
    s.get = l.quiet s s.latest := by
  have hwriter := h.writer
  have hgen := h.gen
  unfold Layout.WriterOk at hwriter
  unfold State.bumps at hgen
  cases hw : s.writer with
  | idle =>
    rw [hw] at hgen hwriter
    funext cell
    cases cell with
    | gen => exact hgen
    | word f => exact congrFun hwriter f
  | before _ _ | inside _ _ | after _ _ =>
    rw [hw] at hidle
    exact absurd hidle Bool.false_ne_true

theorem Layout.Ok.call {c : C} (h : l.Ok s) : l.Ok (l.step s (.call c)) := by
  refine ⟨h.gen, h.writer, fun c' hc' => ?_⟩
  obtain rfl : ⟨c, l.reads c, [], if s.writer.isIdle then 0 else 1, s.latest⟩ = c' := by
    simpa [Layout.step] using hc'
  refine ⟨rfl, fun _ hx => absurd hx List.not_mem_nil, .nil, fun _ hx => absurd hx List.not_mem_nil,
    Nat.le_refl _, fun _ => ?_, fun _ h0 => ?_, fun _ => rfl⟩
  · show s.bumps + s.writer.left ≤ 2 * s.latest + 2 * if s.writer.isIdle then 0 else 1
    unfold State.bumps
    cases s.writer <;> simp [Writer.left, Writer.isIdle]
  · by_contra hbusy
    have hone : (if s.writer.isIdle = true then 0 else 1) = 1 := if_neg hbusy
    exact Nat.one_ne_zero (hone.symm.trans h0)

theorem Layout.Ok.read (h : l.Ok s) : l.Ok (l.step s .read) := by
  dsimp only [Layout.step]
  split
  · rename_i c cell k log overlaps base hcall
    have hc := h.reader _ hcall
    refine ⟨h.gen, h.writer, fun c' hc' => ?_⟩
    obtain rfl : ⟨c, k (s.get cell), log ++ [⟨cell, s.get cell, s.bumps⟩], overlaps, base⟩ = c' :=
      Option.some.inj hc'
    have hroom : s.bumps + s.writer.left ≤ 2 * base + 2 * overlaps := hc.room rfl
    have hbase : base ≤ s.latest := hc.base_le
    have hlow : 2 * s.latest ≤ s.bumps := by
      unfold State.bumps
      split <;> omega
    refine ⟨?_, ?_, ?_, ?_, hbase, fun _ => hroom, fun _ => hc.idle rfl, fun h0 => ?_⟩
    · rw [List.map_append]
      exact hc.leads.snoc (s.get cell)
    · intro x hx
      rcases List.mem_append.mp hx with hx | hx
      · exact (hc.log x hx).grow (.reader s _)
      · obtain rfl := List.mem_singleton.mp hx
        exact (h.look cell).grow (.reader s _)
    · refine List.pairwise_append.mpr ⟨hc.sorted, List.pairwise_singleton _ _, fun x hx y hy => ?_⟩
      obtain rfl := List.mem_singleton.mp hy
      exact (hc.log x hx).past
    · intro x hx
      rcases List.mem_append.mp hx with hx | hx
      · exact hc.span x hx
      · obtain rfl := List.mem_singleton.mp hx
        exact ⟨by dsimp only; omega, by dsimp only; omega⟩
    · -- nothing has moved since the call was made
      have hidle : s.writer.isIdle = true := hc.idle rfl h0
      have h0 : overlaps = 0 := h0
      have hlatest : s.latest = base := by omega
      have hget := h.get_idle hidle
      rw [hlatest] at hget
      show (k (s.get cell)).eval (l.quiet s base) = _
      rw [congrFun hget cell]
      exact hc.quiet h0
  · exact h

theorem Layout.Ok.step (h : l.Ok s) : l.Ok (l.step s e) := by
  cases e with
  | begin r => exact h.begin
  | write => exact h.write
  | call c => exact h.call
  | read => exact h.read

theorem Layout.start_ok : l.Ok (l.start r) :=
  ⟨rfl, rfl, fun _ hc => absurd hc (by simp [Layout.start])⟩

/-- In every interleaving memory is in order, and so is what a call has read. -/
theorem Layout.run_ok (l : Layout R F w C α) (r : R) (es : List (Event R C)) :
    l.Ok (es.foldl l.step (l.start r)) := by
  have hall : Along l.step (fun _ _ => True) (l.start r) es := along_true
  exact hall.invariant Layout.start_ok fun _ _ h _ => h.step

/-! ## What a check is worth -/

/-- Two stamps of one generation, too close together for it to have come round. -/
theorem bumps_eq {m n span : Nat} (hle : m ≤ n) (hspan : n ≤ m + span) (hlt : span < 2 ^ w)
    (hgen : BitVec.ofNat w m = BitVec.ofNat w n) : m = n := by
  have hmod : n % 2 ^ w = m % 2 ^ w := by
    have hnat := congrArg BitVec.toNat hgen
    rw [BitVec.toNat_ofNat, BitVec.toNat_ofNat] at hnat
    exact hnat.symm
  have hzero : (n - m) % 2 ^ w = 0 := Nat.sub_mod_eq_zero_of_mod_eq hmod
  rw [Nat.mod_eq_of_lt (by omega)] at hzero
  omega

/-- **What is read between two reads of one even generation is one record**, if too few
    publishes overlap the call for the generation to have come round. -/
theorem Layout.Ok.validated {xs mid ys : List (Look F w)} {a b : Look F w} (h : l.Ok s)
    (hc : s.reader = some c) (hlog : c.log = xs ++ a :: (mid ++ b :: ys)) (ha : a.cell = .gen)
    (hb : b.cell = .gen) (hsame : a.value = b.value) (hw : 0 < w)
    (heven : a.value.toNat % 2 = 0) (hfew : 2 * c.overlaps < 2 ^ w) :
    ∃ v ≤ s.latest, ∀ x ∈ a :: (mid ++ [b]), x.bumps = 2 * v ∧
      ∀ f, x.cell = .word f → l.guarded f = true → x.value = l.field (s.published v) f := by
  have hcall := h.reader c hc
  have hmem : ∀ x ∈ a :: (mid ++ [b]), x ∈ c.log := by
    intro x hx
    rw [hlog]
    simp only [List.mem_cons, List.mem_append, List.not_mem_nil, or_false] at hx ⊢
    tauto
  have hain : a ∈ c.log := hmem a List.mem_cons_self
  have hbin : b ∈ c.log := hmem b (by simp)
  -- the stamps from `a` to `b` lie between theirs, which are the same
  have hsorted := hcall.sorted
  rw [hlog] at hsorted
  have htail := (List.pairwise_append.mp hsorted).2.1
  obtain ⟨hafter, hrest⟩ := List.pairwise_cons.mp htail
  have hab : a.bumps ≤ b.bumps := hafter b (by simp)
  have hgen : BitVec.ofNat w a.bumps = BitVec.ofNat w b.bumps := by
    rw [← (hcall.log a hain).gen ha, ← (hcall.log b hbin).gen hb, hsame]
  have hlo := (hcall.span a hain).1
  have hhi := (hcall.span b hbin).2
  have heq : a.bumps = b.bumps := bumps_eq hab (by omega) hfew hgen
  have hstamp : ∀ x ∈ a :: (mid ++ [b]), x.bumps = a.bumps := by
    intro x hx
    rcases List.mem_cons.mp hx with rfl | hx
    · rfl
    rcases List.mem_append.mp hx with hx | hx
    · have h₁ := hafter x (List.mem_append_left _ hx)
      have h₂ := (List.pairwise_append.mp hrest).2.2 x hx b List.mem_cons_self
      omega
    · rw [List.mem_singleton.mp hx, heq]
  have htwo : a.bumps % 2 = 0 := by
    rw [(hcall.log a hain).gen ha, BitVec.toNat_ofNat,
      Nat.mod_mod_of_dvd _ (dvd_pow_self 2 hw.ne')] at heven
    exact heven
  have hhalf : a.bumps = 2 * (a.bumps / 2) := by omega
  have hle : 2 * (a.bumps / 2) ≤ s.bumps := hhalf ▸ (hcall.log a hain).past
  refine ⟨a.bumps / 2, ?_, fun x hx => ⟨(hstamp x hx).trans hhalf, fun f hf hg => ?_⟩⟩
  · unfold State.bumps at hle
    split at hle <;> omega
  · exact ((hcall.log x (hmem x hx)).word f _ hf hg ((hstamp x hx).trans hhalf)).2

/-- **A call no publish overlaps** ends as on the last record, all of it. -/
theorem Layout.Ok.quiet_call {a : α} (h : l.Ok s) (hc : s.reader = some c) (hdone : c.rest = .done a)
    (h0 : c.overlaps = 0) : a = (l.reads c.call).eval (l.quiet s c.base) := by
  have hq := (h.reader c hc).quiet h0
  rw [hdone] at hq
  exact hq

end Seqlock
end Lib
end Wt32Router
