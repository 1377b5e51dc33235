import Mathlib.Data.BitVec
import Wt32Router.Lib.Runs

/-!
# A copy that is kept of a versioned value

A value is put now and then, by anybody, and a counter says how often that has been, modulo a power
of two. A reader keeps a copy of the value and the counter as it last saw it, and copies again when
the two counters differ. Copying and looking at the counter are two steps.

> **`Versioned.Counted.due_iff`**: the counters differ exactly if a value has been put since the
> reader looked, as long as fewer have than the counter can tell apart.

> **`Versioned.Counted.current`**: where they do not, the copy is the value, if no value was put
> between the reader's last copy and its look at the counter.

The order of the two matters. A reader that looks first is late at worst; one that copies first may
take the counter of a value that it has not copied.
-/

namespace Wt32Router
namespace Lib

universe u

/-- A value behind a counter of `w` bits, and a reader's copies of both. -/
structure Versioned (α : Type u) (w : Nat) where
  value : α
  version : BitVec w
  copy : α
  seen : BitVec w

namespace Versioned

variable {α : Type u} {w : Nat}

inductive Op (α : Type u) where
  | put (a : α)
  | copy
  | look

def step (s : Versioned α w) : Op α → Versioned α w
  | .put a => { s with value := a, version := s.version + 1 }
  | .copy => { s with copy := s.value }
  | .look => { s with seen := s.version }

/-- The counters differ. -/
def Due (s : Versioned α w) : Prop := s.version ≠ s.seen

/-- What a run has put since the reader last copied, and since it last looked. -/
structure Missed where
  uncopied : Nat
  unseen : Nat
deriving DecidableEq, Repr

def missed (_ : Versioned α w) (op : Op α) (m : Missed) : Missed :=
  match op with
  | .put _ => ⟨m.uncopied + 1, m.unseen + 1⟩
  | .copy => { m with uncopied := 0 }
  | .look => { m with unseen := 0 }

/-- The invariant of a value, a reader, and what it has missed. -/
structure Counted (s : Versioned α w) (m : Missed) : Prop where
  version : s.version = s.seen + BitVec.ofNat w m.unseen
  copied : m.uncopied = 0 → s.copy = s.value

theorem Counted.step {s : Versioned α w} {m : Missed} (h : Counted s m) (op : Op α) :
    Counted (s.step op) (missed s op m) := by
  cases op with
  | put a =>
    refine ⟨?_, fun h0 => absurd h0 (Nat.succ_ne_zero _)⟩
    have hnext : BitVec.ofNat w (m.unseen + 1) = BitVec.ofNat w m.unseen + 1 := BitVec.ofNat_add ..
    show s.version + 1 = s.seen + BitVec.ofNat w (m.unseen + 1)
    rw [hnext, ← BitVec.add_assoc, ← h.version]
  | copy => exact ⟨h.version, fun _ => rfl⟩
  | look => exact ⟨(BitVec.add_zero _).symm, h.copied⟩

theorem Counted.due_iff {s : Versioned α w} {m : Missed} (h : Counted s m)
    (hfew : m.unseen < 2 ^ w) : s.Due ↔ m.unseen ≠ 0 := by
  unfold Due
  rw [not_iff_not, h.version]
  constructor
  · intro hsame
    have hzero : BitVec.ofNat w m.unseen = 0#w := add_eq_left.mp hsame
    have hnat := congrArg BitVec.toNat hzero
    rwa [BitVec.toNat_ofNat, Nat.mod_eq_of_lt hfew, BitVec.toNat_ofNat, Nat.zero_mod] at hnat
  · intro h0
    rw [h0]
    exact BitVec.add_zero _

/-- **A reader that is not due** has the value, if all it has not copied it has not seen. -/
theorem Counted.current {s : Versioned α w} {m : Missed} (h : Counted s m)
    (hfew : m.unseen < 2 ^ w) (hle : m.uncopied ≤ m.unseen) (hnot : ¬s.Due) : s.copy = s.value := by
  have hunseen : m.unseen = 0 := not_not.mp ((not_congr (h.due_iff hfew)).mp hnot)
  exact h.copied (Nat.le_zero.mp (hunseen ▸ hle))

end Versioned
end Lib
end Wt32Router
