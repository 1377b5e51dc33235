import Wt32Router.Lib.Ascii

/-!
# UTF-8 among bytes

Text that is UTF-8 is the encodings of characters, one behind the other. A byte below 128 is a
character of its own and no part of another's, so text can be cut at one, and such bytes can be
put in the place of such bytes.
-/

namespace Wt32Router
namespace Lib

def IsUtf8 (bs : List UInt8) : Prop := ∃ cs : List Char, cs.flatMap String.utf8EncodeChar = bs

section

variable {b : UInt8} {bs cs s t : List UInt8} {f : UInt8 → UInt8}

/-! ## One character -/

theorem ofNat_ge {n : Nat} (hlo : 128 ≤ n) (hhi : n < 256) : 128 ≤ UInt8.ofNat n := by
  rw [UInt8.le_iff_toNat_le, UInt8.toNat_ofNat', Nat.mod_eq_of_lt hhi]
  exact hlo

/-- A character is one byte below 128, or several that are not. -/
theorem utf8EncodeChar_cases (c : Char) :
    (∃ b < 128, String.utf8EncodeChar c = [b]) ∨
      (2 ≤ (String.utf8EncodeChar c).length ∧ ∀ b ∈ String.utf8EncodeChar c, 128 ≤ b) := by
  unfold String.utf8EncodeChar
  dsimp only
  split
  · rename_i hle
    refine .inl ⟨_, ?_, rfl⟩
    rw [UInt8.lt_iff_toNat_lt, UInt8.toNat_ofNat', Nat.mod_eq_of_lt (by omega)]
    exact Nat.lt_succ_of_le hle
  · refine .inr ⟨?_, ?_⟩
    · split
      · simp
      · split <;> simp
    · split
      · simp only [List.forall_mem_cons]
        exact ⟨ofNat_ge (by omega) (by omega), ofNat_ge (by omega) (by omega), by simp⟩
      · split
        · simp only [List.forall_mem_cons]
          exact ⟨ofNat_ge (by omega) (by omega), ofNat_ge (by omega) (by omega),
            ofNat_ge (by omega) (by omega), by simp⟩
        · simp only [List.forall_mem_cons]
          exact ⟨ofNat_ge (by omega) (by omega), ofNat_ge (by omega) (by omega),
            ofNat_ge (by omega) (by omega), ofNat_ge (by omega) (by omega), by simp⟩

theorem utf8EncodeChar_ascii (h : b < 128) : ∃ c : Char, String.utf8EncodeChar c = [b] := by
  have hlt : b.toNat < 128 := UInt8.lt_iff_toNat_lt.mp h
  have hval : (Char.ofNat b.toNat).val.toNat = b.toNat := by
    rw [Char.ofNat, dif_pos (Or.inl (by omega))]
    rfl
  refine ⟨Char.ofNat b.toNat, ?_⟩
  unfold String.utf8EncodeChar
  dsimp only
  rw [hval, if_pos (by omega), UInt8.ofNat_toNat]

/-! ## Text -/

theorem IsUtf8.nil : IsUtf8 [] := ⟨[], rfl⟩

theorem IsUtf8.append (hs : IsUtf8 s) (ht : IsUtf8 t) : IsUtf8 (s ++ t) := by
  obtain ⟨cs, rfl⟩ := hs
  obtain ⟨ds, rfl⟩ := ht
  exact ⟨cs ++ ds, List.flatMap_append⟩

theorem isUtf8_ascii (h : ∀ b ∈ bs, b < 128) : IsUtf8 bs := by
  induction bs with
  | nil => exact .nil
  | cons b bs ih =>
    obtain ⟨hb, hbs⟩ := List.forall_mem_cons.mp h
    obtain ⟨c, hc⟩ := utf8EncodeChar_ascii hb
    exact .append ⟨[c], by rw [List.flatMap_singleton, hc]⟩ (ih hbs)

/-- For a literal. -/
theorem isUtf8_literal (h : bs.all (· < 128) = true) : IsUtf8 bs :=
  isUtf8_ascii fun b hb => of_decide_eq_true (List.all_eq_true.mp h b hb)

/-- **Text is cut at a byte below 128.** -/
theorem isUtf8_split (hb : b < 128) : IsUtf8 (s ++ b :: t) ↔ IsUtf8 s ∧ IsUtf8 t := by
  constructor
  · rintro ⟨cs, hcs⟩
    induction cs generalizing s with
    | nil => exact absurd hcs.symm (by simp)
    | cons c cs ih =>
      rw [List.flatMap_cons] at hcs
      rcases List.append_eq_append_iff.mp hcs with ⟨u, hu, hrest⟩ | ⟨u, hu, hrest⟩
      · -- the character ends in front of the byte
        obtain ⟨hs, ht⟩ := ih hrest
        rw [hu]
        exact ⟨.append ⟨[c], List.flatMap_singleton ..⟩ hs, ht⟩
      · cases u with
        | nil =>
          obtain ⟨hs, ht⟩ := ih (s := []) hrest.symm
          rw [List.append_nil] at hu
          rw [← hu]
          exact ⟨⟨[c], List.flatMap_singleton ..⟩, ht⟩
        | cons b' u =>
          -- the byte is one of the character's, so it is all of it
          obtain ⟨rfl, htail⟩ := List.cons.inj hrest
          rcases utf8EncodeChar_cases c with ⟨d, hd, hone⟩ | ⟨-, hall⟩
          · rw [hone] at hu
            have hlen := congrArg List.length hu
            rw [List.length_singleton, List.length_append, List.length_cons] at hlen
            obtain rfl : s = [] := List.length_eq_zero_iff.mp (by omega)
            obtain rfl : u = [] := List.length_eq_zero_iff.mp (by omega)
            exact ⟨.nil, cs, htail.symm⟩
          · have hge := hall b (by rw [hu]; simp)
            exact absurd hb (UInt8.not_lt.mpr hge)
  · rintro ⟨hs, ht⟩
    have hone : ∀ b' ∈ [b], b' < 128 := by simpa using hb
    exact hs.append (.append (isUtf8_ascii hone) ht)

theorem isUtf8_singleton : IsUtf8 [b] ↔ b < 128 := by
  constructor
  · rintro ⟨cs, hcs⟩
    cases cs with
    | nil => exact absurd hcs.symm (List.cons_ne_nil b [])
    | cons c cs =>
      rw [List.flatMap_cons] at hcs
      rcases utf8EncodeChar_cases c with ⟨d, hd, hone⟩ | ⟨htwo, -⟩
      · rw [hone] at hcs
        exact (List.cons.inj hcs).1 ▸ hd
      · have hlen := congrArg List.length hcs
        rw [List.length_append, List.length_singleton] at hlen
        omega
  · exact fun hb => isUtf8_ascii (by simpa using hb)

theorem isUtf8_decimal (n : Nat) : IsUtf8 (decimal n) := by
  refine isUtf8_ascii fun c hc => UInt8.lt_iff_toNat_lt.mpr ?_
  have hdigit := digit_of_mem_decimal hc
  unfold isDigit at hdigit
  simp only [Bool.and_eq_true, decide_eq_true_eq, UInt8.le_iff_toNat_le] at hdigit
  exact Nat.lt_of_le_of_lt hdigit.2 (by decide)

theorem isUtf8_commaSeparated {xs : List (List UInt8)} (h : ∀ x ∈ xs, IsUtf8 x) :
    IsUtf8 (commaSeparated xs) := by
  cases xs with
  | nil => exact .nil
  | cons x xs =>
    obtain ⟨hx, hxs⟩ := List.forall_mem_cons.mp h
    rw [commaSeparated_cons]
    refine hx.append ?_
    clear h hx
    induction xs with
    | nil => exact .nil
    | cons y xs ih =>
      obtain ⟨hy, hxs⟩ := List.forall_mem_cons.mp hxs
      exact ((isUtf8_split (s := []) (by decide)).mpr ⟨.nil, hy⟩).append (ih hxs)

/-- **And cut at its commas.** -/
theorem isUtf8_commaSeparated_iff {xs : List (List UInt8)} :
    IsUtf8 (commaSeparated xs) ↔ ∀ x ∈ xs, IsUtf8 x := by
  refine ⟨fun h => ?_, isUtf8_commaSeparated⟩
  cases xs with
  | nil => exact List.forall_mem_nil _
  | cons x xs =>
    rw [commaSeparated_cons] at h
    induction xs generalizing x with
    | nil => simpa using h
    | cons y xs ih =>
      rw [List.flatMap_cons, List.cons_append, isUtf8_split (by decide)] at h
      exact List.forall_mem_cons.mpr ⟨h.1, ih y h.2⟩

/-! ## Text with bytes replaced -/

theorem map_fixed (h : ∀ b ∈ s, f b = b) : s.map f = s :=
  (List.map_congr_left h).trans (List.map_id' s)

/-- Bytes from 128 on came from themselves. -/
theorem map_high (hlow : ∀ b < 128, f b < 128) (hhigh : ∀ b, 128 ≤ b → f b = b)
    (h : ∀ b ∈ s.map f, 128 ≤ b) : s.map f = s := by
  refine map_fixed fun b hb => hhigh b (UInt8.not_lt.mp fun hlt => ?_)
  exact absurd (hlow b hlt) (UInt8.not_lt.mpr (h _ (List.mem_map_of_mem hb)))

/-- **A map that changes bytes below 128 among themselves** changes nothing about it. -/
theorem isUtf8_map (hlow : ∀ b < 128, f b < 128) (hhigh : ∀ b, 128 ≤ b → f b = b) :
    IsUtf8 (s.map f) ↔ IsUtf8 s := by
  constructor
  · rintro ⟨cs, hcs⟩
    induction cs generalizing s with
    | nil =>
      obtain rfl := List.map_eq_nil_iff.mp hcs.symm
      exact .nil
    | cons c cs ih =>
      rw [List.flatMap_cons] at hcs
      obtain ⟨s₁, s₂, rfl, h₁, h₂⟩ := List.map_eq_append_iff.mp hcs.symm
      refine .append ?_ (ih h₂.symm)
      rcases utf8EncodeChar_cases c with ⟨d, hd, hone⟩ | ⟨-, hall⟩
      · rw [hone] at h₁
        obtain ⟨b, rfl, hb⟩ := List.map_eq_singleton_iff.mp h₁
        refine isUtf8_ascii fun b' hb' => ?_
        rw [List.mem_singleton.mp hb', ← UInt8.not_le]
        intro hge
        rw [hhigh b hge] at hb
        exact absurd hd (UInt8.not_lt.mpr (hb ▸ hge))
      · rw [map_high hlow hhigh (h₁ ▸ hall)] at h₁
        exact ⟨[c], by rw [List.flatMap_singleton, h₁]⟩
  · rintro ⟨cs, rfl⟩
    induction cs with
    | nil => exact .nil
    | cons c cs ih =>
      rw [List.flatMap_cons, List.map_append]
      refine .append ?_ ih
      rcases utf8EncodeChar_cases c with ⟨d, hd, hone⟩ | ⟨-, hall⟩
      · rw [hone]
        exact isUtf8_ascii (by simpa using hlow d hd)
      · rw [map_fixed fun b hb => hhigh b (hall b hb)]
        exact ⟨[c], List.flatMap_singleton ..⟩

theorem isUtf8_ascii_append (h : ∀ b ∈ s, b < 128) : IsUtf8 (s ++ t) ↔ IsUtf8 t := by
  induction s with
  | nil => exact Iff.rfl
  | cons b s ih =>
    obtain ⟨hb, hs⟩ := List.forall_mem_cons.mp h
    have hcut := isUtf8_split (s := []) (t := s ++ t) hb
    exact hcut.trans ((and_iff_right .nil).trans (ih hs))

/-- **Bytes below 128 written as others**, each as some, change nothing about it either. -/
theorem isUtf8_flatMap {g : UInt8 → List UInt8} (hlow : ∀ b < 128, g b ≠ [] ∧ ∀ c ∈ g b, c < 128)
    (hhigh : ∀ b, 128 ≤ b → g b = [b]) : IsUtf8 (s.flatMap g) ↔ IsUtf8 s := by
  have hfront : ∀ front, IsUtf8 (front ++ s.flatMap g) ↔ IsUtf8 (front ++ s) := by
    induction s with
    | nil => exact fun front => Iff.rfl
    | cons b s ih =>
      intro front
      rw [List.flatMap_cons]
      by_cases hb : b < 128
      · obtain ⟨hne, hall⟩ := hlow b hb
        obtain ⟨c, cs, hc⟩ := List.exists_cons_of_ne_nil hne
        rw [hc] at hall ⊢
        obtain ⟨hlt, hcs⟩ := List.forall_mem_cons.mp hall
        rw [List.cons_append, isUtf8_split hlt, isUtf8_split hb, isUtf8_ascii_append hcs]
        exact and_congr_right' (ih [])
      · rw [hhigh b (UInt8.not_lt.mp hb), List.append_cons front b s]
        have hnext := ih (front ++ [b])
        rwa [List.append_assoc] at hnext
  exact hfront []

end

end Lib
end Wt32Router
