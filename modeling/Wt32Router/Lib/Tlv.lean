import Mathlib.Data.List.Basic

/-!
# Options of a code, a length and a value

A sequence of options as many formats have it: a code, a length of one byte, and so many bytes.
Two codes are bytes of their own: `pad` says nothing and `stop` ends the sequence.

> **`First pad stop want area off val`**: the first option of that code in the area, ahead of any
> `stop` and of anything that is not complete, has its value at that offset.

It is a derivation, one rule for the option looked for and one for what lies in front of it. A
decoder meets one byte or two at a time: `First.pad_iff`, `First.opt_iff` and the two ways there
is none (`First.not_stop`, `First.not_short`) say what each of its branches means.
-/

namespace Wt32Router
namespace Lib

/-- What an area is made of. -/
inductive Tlv where
  | pad
  | opt (code : UInt8) (val : List UInt8)
deriving DecidableEq, Repr

def Tlv.bytes (pad : UInt8) : Tlv → List UInt8
  | .pad => [pad]
  | .opt code val => code :: UInt8.ofNat val.length :: val

/-- An option can be told from a byte of its own, and its length fits one byte. -/
def Tlv.Ok (pad stop : UInt8) : Tlv → Prop
  | .pad => True
  | .opt code val => code ≠ pad ∧ code ≠ stop ∧ val.length < 256

def Tlv.Has (want : UInt8) : Tlv → Prop
  | .pad => False
  | .opt code _ => code = want

inductive First (pad stop want : UInt8) : List UInt8 → Nat → List UInt8 → Prop
  | here {val rest : List UInt8} : (Tlv.opt want val).Ok pad stop →
      First pad stop want ((Tlv.opt want val).bytes pad ++ rest) 2 val
  | skip {item : Tlv} {area val : List UInt8} {off : Nat} : item.Ok pad stop → ¬ item.Has want →
      First pad stop want area off val →
      First pad stop want (item.bytes pad ++ area) ((item.bytes pad).length + off) val

section

variable {pad stop want code n : UInt8} {area val val' rest : List UInt8} {off off' : Nat}
  {items : List Tlv}

/-! ## What stands at an offset -/

theorem First.value (h : First pad stop want area off val) :
    off + val.length ≤ area.length ∧ (area.drop off).take val.length = val := by
  induction h with
  | @here val rest hok =>
    refine ⟨?_, by simp [Tlv.bytes]⟩
    simp only [Tlv.bytes, List.cons_append, List.length_cons, List.length_append]
    omega
  | skip _ _ _ ih =>
    rw [List.length_append, Nat.add_assoc, ← List.drop_drop, List.drop_left]
    exact ⟨Nat.add_le_add_left ih.1 _, ih.2⟩

/-- An option takes two bytes at least. -/
theorem First.two_le (h : First pad stop want area off val) : 2 ≤ area.length := by
  induction h with
  | here _ => simp [Tlv.bytes]
  | skip _ _ _ ih =>
    rw [List.length_append]
    omega

/-! ## One turn of a walk -/

theorem First.not_short (h : area.length ≤ 1) : ¬ First pad stop want area off val := fun hf =>
  absurd hf.two_le (by omega)

theorem First.not_stop (hne : pad ≠ stop) : ¬ First pad stop want (stop :: rest) off val := by
  intro h
  generalize harea : stop :: rest = area at h
  cases h with
  | here hok => exact hok.2.1 (List.cons.inj harea).1.symm
  | @skip item _ _ _ hok _ _ =>
    cases item with
    | pad => exact hne (List.cons.inj harea).1.symm
    | opt code _ => exact hok.2.1 (List.cons.inj harea).1.symm

theorem First.pad_iff : First pad stop want (pad :: rest) off val ↔
    ∃ off', off = 1 + off' ∧ First pad stop want rest off' val := by
  constructor
  · intro h
    generalize harea : pad :: rest = area at h
    cases h with
    | here hok => exact absurd (List.cons.inj harea).1.symm hok.1
    | @skip item _ _ off' hok _ hfirst =>
      cases item with
      | pad => exact ⟨off', rfl, (List.cons.inj harea).2 ▸ hfirst⟩
      | opt code _ => exact absurd (List.cons.inj harea).1.symm hok.1
  · rintro ⟨off', rfl, h⟩
    have hpad : Tlv.pad.Ok pad stop := trivial
    exact First.skip hpad id h

theorem toNat_ofNat_length {v : List UInt8} (h : v.length < 256) :
    (UInt8.ofNat v.length).toNat = v.length := by
  rw [UInt8.toNat_ofNat']
  exact Nat.mod_eq_of_lt h

/-- A code that is no byte of its own is an option's: looked for, or to be stepped over; and there
    is none at all where it is not complete. -/
theorem First.opt_iff (hpad : code ≠ pad) (hstop : code ≠ stop) :
    First pad stop want (code :: n :: rest) off val ↔
      n.toNat ≤ rest.length ∧
        if code = want then off = 2 ∧ val = rest.take n.toNat
        else ∃ off', off = 2 + n.toNat + off' ∧
          First pad stop want (rest.drop n.toNat) off' val := by
  constructor
  · intro h
    generalize harea : code :: n :: rest = area at h
    cases h with
    | @here _ rest' hok =>
      obtain ⟨rfl, htail⟩ := List.cons.inj harea
      obtain ⟨rfl, rfl⟩ := List.cons.inj htail
      rw [toNat_ofNat_length hok.2.2, if_pos rfl]
      exact ⟨by simp, rfl, by simp⟩
    | @skip item area' _ off' hok hhas hfirst =>
      cases item with
      | pad => exact absurd (List.cons.inj harea).1 hpad
      | opt code' v =>
        obtain ⟨rfl, htail⟩ := List.cons.inj harea
        obtain ⟨rfl, hrest⟩ := List.cons.inj htail
        obtain rfl : rest = v ++ area' := hrest
        have hoff : ((Tlv.opt code v).bytes pad).length + off' = 2 + v.length + off' := by
          simp only [Tlv.bytes, List.length_cons]
          omega
        have hdrop : (v ++ area').drop v.length = area' := List.drop_left
        rw [toNat_ofNat_length hok.2.2, if_neg (by exact hhas), hoff, hdrop]
        exact ⟨by simp, off', rfl, hfirst⟩
  · rintro ⟨hle, h⟩
    -- the bytes in front of the rest are those of one option
    have hlen : (rest.take n.toNat).length = n.toNat := List.length_take_of_le hle
    have hn : UInt8.ofNat (rest.take n.toNat).length = n := by rw [hlen, UInt8.ofNat_toNat]
    have harea : code :: n :: rest =
        (Tlv.opt code (rest.take n.toNat)).bytes pad ++ rest.drop n.toNat := by
      simp only [Tlv.bytes, hn, List.cons_append, List.take_append_drop]
    have hok : (Tlv.opt code (rest.take n.toNat)).Ok pad stop :=
      ⟨hpad, hstop, lt_of_eq_of_lt hlen n.toNat_lt⟩
    rw [harea]
    split at h
    · rename_i hwant
      obtain ⟨rfl, rfl⟩ := h
      subst hwant
      exact .here hok
    · rename_i hwant
      obtain ⟨off', rfl, hfirst⟩ := h
      have hoff : 2 + n.toNat + off' =
          ((Tlv.opt code (rest.take n.toNat)).bytes pad).length + off' := by
        simp only [Tlv.bytes, List.length_cons, hlen]
        omega
      rw [hoff]
      exact .skip hok hwant hfirst

/-! ## An area that was written -/

/-- An option that was written is found, behind others of other codes and whatever follows. -/
theorem First.of_mem (hok : ∀ item ∈ items, item.Ok pad stop)
    (hfresh : items.Pairwise fun a b => ∀ c v, b = .opt c v → ¬ a.Has c)
    (hmem : .opt want val ∈ items) :
    ∃ off, First pad stop want (items.flatMap (Tlv.bytes pad) ++ rest) off val := by
  induction items with
  | nil => exact absurd hmem List.not_mem_nil
  | cons item items ih =>
    obtain ⟨hitem, hitems⟩ := List.forall_mem_cons.mp hok
    obtain ⟨hdiffer, hfresh⟩ := List.pairwise_cons.mp hfresh
    rw [List.flatMap_cons, List.append_assoc]
    rcases List.mem_cons.mp hmem with rfl | hmem
    · exact ⟨2, .here hitem⟩
    · obtain ⟨off, hfirst⟩ := ih hitems hfresh hmem
      exact ⟨_, .skip hitem (hdiffer _ hmem want val rfl) hfirst⟩

end

end Lib
end Wt32Router
