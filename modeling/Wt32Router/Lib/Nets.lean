import Mathlib.Data.Nat.Basic

/-!
# Networks of addresses

An address and a mask name a network: every address that agrees with the first one wherever
the mask has a bit. The masks are any masks, not only a run of ones.

> **`share_address_iff`**: two networks have an address in common exactly if their addresses
> agree on the bits *both* masks cover.
-/

namespace Wt32Router
namespace Lib

variable {w : Nat}

/-- The network an address and a mask name. -/
def InNet (ip mask a : BitVec w) : Prop := a &&& mask = ip &&& mask

instance (ip mask a : BitVec w) : Decidable (InNet ip mask a) :=
  inferInstanceAs (Decidable (_ = _))

theorem inNet_iff {ip mask a : BitVec w} :
    InNet ip mask a ↔ ∀ i, mask.getLsbD i = true → a.getLsbD i = ip.getLsbD i := by
  constructor
  · intro h i hm
    have hi := congrArg (BitVec.getLsbD · i) h
    simpa [hm] using hi
  · intro h
    apply BitVec.eq_of_getLsbD_eq
    intro i _
    cases hm : mask.getLsbD i with
    | false => simp [hm]
    | true => simp [hm, h i hm]

theorem agree_iff {x y m n : BitVec w} :
    (x ^^^ y) &&& (m &&& n) = 0 ↔
      ∀ i, m.getLsbD i = true → n.getLsbD i = true → x.getLsbD i = y.getLsbD i := by
  constructor
  · intro h i hm hn
    have hi := congrArg (BitVec.getLsbD · i) h
    simpa [hm, hn] using hi
  · intro h
    apply BitVec.eq_of_getLsbD_eq
    intro i _
    cases hm : m.getLsbD i with
    | false => simp [hm]
    | true =>
      cases hn : n.getLsbD i with
      | false => simp [hn]
      | true => simp [hm, hn, h i hm hn]

/-- **Two networks share an address exactly if their addresses agree on the bits both masks
    cover.** -/
theorem share_address_iff {x y m n : BitVec w} :
    (∃ a, InNet x m a ∧ InNet y n a) ↔ (x ^^^ y) &&& (m &&& n) = 0 := by
  rw [agree_iff]
  constructor
  · rintro ⟨a, hx, hy⟩ i hm hn
    rw [← inNet_iff.mp hx i hm, inNet_iff.mp hy i hn]
  · intro h
    -- the bits the first mask covers are the first address's, the others the second's
    refine ⟨(x &&& m) ||| (y &&& ~~~m), inNet_iff.mpr fun i hm => ?_, inNet_iff.mpr fun i hn => ?_⟩
    · simp [hm]
    · cases hm : m.getLsbD i with
      | true => simp [hm, h i hm hn]
      | false =>
        have hlt : i < w := BitVec.lt_of_getLsbD hn
        have hmi : m[i] = false := by rw [← BitVec.getLsbD_eq_getElem hlt, hm]
        simp [hlt, hmi]

end Lib
end Wt32Router
