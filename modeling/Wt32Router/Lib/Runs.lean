import Mathlib.Logic.Basic
import Mathlib.Data.List.Basic

/-!
# Runs of a deterministic machine, and what holds along them

A component is a state type `σ`, an event type `ε` and a total function
`step : σ → ε → σ`. Nothing else is assumed: an event the component would never
receive in a state is excluded by a guard, which is a *predicate on runs* here and
not a second transition relation.

> **`Along step P s es`** says that `P` holds of every step of the run that
> starts in `s` and takes the events `es`: of each pair *(state before, event)*.

Both halves of a statement about runs have this one shape. What a run is assumed to
do ("times never go back", "no event of this kind") is an `Along`, and what is
concluded of each of its steps is another. `Along.of_invariant` turns the first into
the second from an invariant, and is the only induction on runs in the development
besides `Along.invariant` and `Reachable.invariant`.
-/

namespace Wt32Router
namespace Lib

variable {σ ε γ : Type*} {step : σ → ε → σ}

/-- `P` holds of every step of the run from `s` along `es`. -/
def Along (step : σ → ε → σ) (P : σ → ε → Prop) : σ → List ε → Prop
  | _, [] => True
  | s, e :: es => P s e ∧ Along step P (step s e) es

instance Along.decidable (step : σ → ε → σ) (P : σ → ε → Prop)
    [∀ s e, Decidable (P s e)] : ∀ s es, Decidable (Along step P s es)
  | _, [] => isTrue trivial
  | s, e :: es =>
      have := Along.decidable step P (step s e) es
      inferInstanceAs (Decidable (P s e ∧ Along step P (step s e) es))

@[simp] theorem along_nil {P : σ → ε → Prop} {s : σ} : Along step P s [] := trivial

@[simp] theorem along_cons {P : σ → ε → Prop} {s : σ} {e : ε} {es : List ε} :
    Along step P s (e :: es) ↔ P s e ∧ Along step P (step s e) es := Iff.rfl

/-- A guard that looks at the events only. -/
theorem along_events {p : ε → Prop} {s : σ} {es : List ε} :
    Along step (fun _ e => p e) s es ↔ ∀ e ∈ es, p e := by
  induction es generalizing s with
  | nil => simp
  | cons e es ih => rw [along_cons, ih, List.forall_mem_cons]

theorem along_true {s : σ} {es : List ε} : Along step (fun _ _ => True) s es :=
  along_events.mpr fun _ _ => trivial

theorem along_append {P : σ → ε → Prop} {s : σ} {es fs : List ε} :
    Along step P s (es ++ fs) ↔
      Along step P s es ∧ Along step P (es.foldl step s) fs := by
  induction es generalizing s with
  | nil => simp
  | cons e es ih => simp [ih, and_assoc]

theorem Along.mono {P Q : σ → ε → Prop} {s : σ} {es : List ε}
    (h : Along step P s es) (hPQ : ∀ s e, P s e → Q s e) : Along step Q s es := by
  induction es generalizing s with
  | nil => trivial
  | cons e es ih => exact ⟨hPQ s e h.1, ih h.2⟩

/-- **The step rule.** An invariant that the guard lets every step keep, and that
    makes every guarded step do `Q`, makes the whole run do `Q`. -/
theorem Along.of_invariant {P Q : σ → ε → Prop} {I : σ → Prop} {s : σ} {es : List ε}
    (h : Along step P s es) (h₀ : I s)
    (hstep : ∀ s e, I s → P s e → Q s e ∧ I (step s e)) : Along step Q s es := by
  induction es generalizing s with
  | nil => trivial
  | cons e es ih =>
    obtain ⟨hQ, hI⟩ := hstep s e h₀ h.1
    exact ⟨hQ, ih h.2 hI⟩

/-- **The step rule, both ways.** If under the invariant each guarded step does `P` exactly
    when it does `Q`, and doing `P` keeps the invariant, then a guarded run does the one at
    every step exactly when it does the other. -/
theorem Along.iff_of_invariant {G P Q : σ → ε → Prop} {I : σ → Prop} {s : σ} {es : List ε}
    (h : Along step G s es) (h₀ : I s)
    (hstep : ∀ s e, I s → G s e → (P s e ↔ Q s e) ∧ (P s e → I (step s e))) :
    Along step P s es ↔ Along step Q s es := by
  induction es generalizing s with
  | nil => exact Iff.rfl
  | cons e es ih =>
    obtain ⟨hiff, hI⟩ := hstep s e h₀ h.1
    rw [along_cons, along_cons, ← hiff]
    exact and_congr_right fun hP => ih h.2 (hI hP)

/-- **The run rule.** An invariant that the guard lets every step keep holds where the
    run ends. -/
theorem Along.invariant {P : σ → ε → Prop} {I : σ → Prop} {s : σ} {es : List ε}
    (h : Along step P s es) (h₀ : I s) (hstep : ∀ s e, I s → P s e → I (step s e)) :
    I (es.foldl step s) := by
  induction es generalizing s with
  | nil => exact h₀
  | cons e es ih => exact ih h.2 (hstep s e h₀ h.1)

/-- The states a machine reaches from an initial one by guarded steps. -/
inductive Reachable (step : σ → ε → σ) (init : σ → Prop) (ok : σ → ε → Prop) : σ → Prop
  | init {s : σ} : init s → Reachable step init ok s
  | step {s : σ} (e : ε) : Reachable step init ok s → ok s e → Reachable step init ok (step s e)

theorem Reachable.invariant {init : σ → Prop} {ok : σ → ε → Prop} {I : σ → Prop} {s : σ}
    (h : Reachable step init ok s) (h₀ : ∀ s, init s → I s)
    (hstep : ∀ s e, I s → ok s e → I (step s e)) : I s := by
  induction h with
  | init hi => exact h₀ _ hi
  | step e _ hok ih => exact hstep _ e ih hok

theorem Reachable.run {init : σ → Prop} {ok : σ → ε → Prop} {s : σ}
    (h : Reachable step init ok s) (es : List ε) (hes : Along step ok s es) :
    Reachable step init ok (es.foldl step s) :=
  hes.invariant h fun _ e hr hok => .step e hr hok

/-! ## Monitors

A history variable ("has this client been answered yet") is a second component that
watches the run and never influences it: its update reads the state *before* the step
and the event. Pairing it with the machine is again a machine. -/

/-- The machine together with a monitor of its runs. -/
def watch (step : σ → ε → σ) (mon : σ → ε → γ → γ) : σ × γ → ε → σ × γ :=
  fun s e => (step s.1 e, mon s.1 e s.2)

@[simp] theorem watch_fst (mon : σ → ε → γ → γ) (s : σ × γ) (e : ε) :
    (watch step mon s e).1 = step s.1 e := rfl

@[simp] theorem watch_snd (mon : σ → ε → γ → γ) (s : σ × γ) (e : ε) :
    (watch step mon s e).2 = mon s.1 e s.2 := rfl

/-- A monitor does not change the run it watches. -/
theorem watch_run_fst (mon : σ → ε → γ → γ) (s : σ × γ) (es : List ε) :
    (es.foldl (watch step mon) s).1 = es.foldl step s.1 := by
  induction es generalizing s with
  | nil => rfl
  | cons e es ih => simpa using ih (watch step mon s e)

theorem along_watch {P : σ → ε → Prop} (mon : σ → ε → γ → γ) (s : σ × γ) {es : List ε} :
    Along (watch step mon) (fun s e => P s.1 e) s es ↔ Along step P s.1 es := by
  induction es generalizing s with
  | nil => exact Iff.rfl
  | cons e es ih => exact and_congr_right fun _ => ih _

end Lib
end Wt32Router
