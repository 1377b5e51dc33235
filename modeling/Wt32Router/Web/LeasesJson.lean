import Wt32Router.Track.Names
import Wt32Router.Web.ClientHistory
import Wt32Router.Web.JsonEscapes
import Wt32Router.Web.Leases

/-!
# The page of leases as JSON

A page that is sent whole can still be no JSON. `json_append_escaped` leaves every byte from 128 on
as it is, so the page is UTF-8 exactly if the names on it are (`leasesText_utf8`), and only what
`copy_hostname` makes of a name says that they are.

> **`leases_json`**: in every run the page is a JSON object with an element for each entry, in
> order, and each is an object with the values of that entry and the name that its own client has
> asked under.
-/

namespace Wt32Router
namespace Web

open Dhcp (Ip LeaseInfo Mac maxLeases)
open Lib
open Track (Asked ClientTable Conflicts Router RouterEvent TableNamed isHostChar nameMaxLen)

/-! ## What the page is to say -/

/-- A string of characters that need no escape. -/
def plainValue (text : List UInt8) : List UInt8 := quotedPieces (text.map Piece.plain)

/-- A name as far as its end. -/
def shownName (clients : List ClientInfo) (mac : Mac) : List UInt8 :=
  cString (leaseName clients mac)

def leaseMembers (clients : List ClientInfo) (conflicts : List ConflictInfo) (l : LeaseInfo) :
    List JsonMember :=
  [tightMember "mac" (plainValue (macText l.mac)),
    tightMember "ip" (plainValue (ipOrEmpty l.ip)),
    tightMember "observed_ip" (plainValue (ipOrEmpty l.observedIp)),
    tightMember "expires_in_s" (decimal l.expiresInS.toNat),
    tightMember "boots_since_seen" (decimal l.bootsSinceSeen.toNat),
    tightMember "stored" (ascii (if l.stored then "true" else "false")),
    tightMember "saved_ip" (plainValue (ipOrEmpty l.savedIp)),
    tightMember "saved_observed_ip" (plainValue (ipOrEmpty l.savedObservedIp)),
    tightMember "name" (quotedPieces ((shownName clients l.mac).map pieceOf))] ++
  match leaseConflict conflicts l.mac with
  | none => []
  | some c =>
    [tightMember "conflict" (plainValue (ascii (if c.mac = l.mac then "blocked" else "holder"))),
      tightMember "conflict_with"
        (plainValue (macText (if c.mac = l.mac then c.peerMac else c.mac)))]

def leasesMembers (leases : List LeaseInfo) (clients : List ClientInfo)
    (conflicts : List ConflictInfo) (restored : BitVec 32) : List JsonMember :=
  [tightMember "max" (decimal maxLeases), tightMember "restored" (signedDecimal restored.toInt),
    tightMember "leases"
      (91 :: (arrayText [] (leases.map fun l => { value := leaseText clients conflicts l }) ++ [93]))]

section

variable {s : List UInt8} {clients : List ClientInfo} {conflicts : List ConflictInfo}
  {l : LeaseInfo} {leases : List LeaseInfo} {restored : BitVec 32}

/-! ## Names -/

theorem surrogates_low {digits : List UInt8} (h : codeUnit digits < 0xD800) (q : Piece) :
    surrogates (.unicode digits) q = none := by
  cases q with
  | plain c => rfl
  | escape e => rfl
  | unicode lo => exact if_neg fun hboth => absurd hboth.1.1 (Nat.not_le.mpr h)

/-- An escape of a code unit is of one below the surrogates. -/
def belowSurrogates : Piece → Bool
  | .unicode digits => decide (codeUnit digits < 0xD800)
  | _ => true

/-- Each byte is written as a piece that stands for it, and never for half of a character. -/
theorem pieceOf_means (c : UInt8) :
    (pieceOf c).bytes = [c] ∧ ∀ q, surrogates (pieceOf c) q = none := by
  have hall : ∀ n < 256, (pieceOf (UInt8.ofNat n)).bytes = [UInt8.ofNat n] ∧
      belowSurrogates (pieceOf (UInt8.ofNat n)) = true := by
    decide +kernel
  obtain ⟨hbytes, hunit⟩ := hall c.toNat c.toNat_lt
  rw [UInt8.ofNat_toNat] at hbytes hunit
  refine ⟨hbytes, fun q => ?_⟩
  cases hp : pieceOf c with
  | plain d => rfl
  | escape e => rfl
  | unicode digits =>
    rw [hp] at hunit
    exact surrogates_low (of_decide_eq_true hunit) q

theorem meaning_pieceOf (s : List UInt8) : meaning (s.map pieceOf) = s := by
  induction s with
  | nil => rfl
  | cons c s ih =>
    obtain ⟨hbytes, halone⟩ := pieceOf_means c
    rw [List.map_cons, meaning_cons halone, hbytes, ih]
    rfl

/-- What a string is written as has no fewer characters, and no other above 127. -/
theorem isUtf8_escaped : IsUtf8 (escaped s) ↔ IsUtf8 (cString s) := by
  have hall : ∀ n < 256, (n < 128 → escapeByte (UInt8.ofNat n) ≠ [] ∧
        (escapeByte (UInt8.ofNat n)).all (· < 128) = true) ∧
      (128 ≤ n → escapeByte (UInt8.ofNat n) = [UInt8.ofNat n]) := by
    decide +kernel
  refine isUtf8_flatMap (fun b hb => ?_) fun b hb => ?_
  · have hlow := (hall b.toNat b.toNat_lt).1 (UInt8.lt_iff_toNat_lt.mp hb)
    rw [UInt8.ofNat_toNat] at hlow
    exact ⟨hlow.1, fun c hc => of_decide_eq_true (List.all_eq_true.mp hlow.2 c hc)⟩
  · have hhigh := (hall b.toNat b.toNat_lt).2 (UInt8.le_iff_toNat_le.mp hb)
    rwa [UInt8.ofNat_toNat] at hhigh

theorem escaped_shown : escaped s = stringText ((cString s).map pieceOf) := by
  have htext : Piece.text ∘ pieceOf = escapeByte := funext pieceOf_text
  unfold escaped stringText
  rw [List.flatMap_map]
  exact congrArg (fun f => (cString s).flatMap f) htext.symm

/-! ## An entry -/

theorem quotedPieces_plain (text : List UInt8) : plainValue text = 34 :: (text ++ [34]) := by
  unfold plainValue quotedPieces
  rw [stringText_plains]

theorem leaseText_object (clients : List ClientInfo) (conflicts : List ConflictInfo)
    (l : LeaseInfo) : leaseText clients conflicts l =
      123 :: (objectText [] (leaseMembers clients conflicts l) ++ [125]) := by
  have h₁ : ascii "\x7b\"mac\":\"" = 123 :: 34 :: (ascii "mac" ++ [34, 58, 34]) := by decide
  have h₂ : ascii "\",\"ip\":\"" = 34 :: 44 :: 34 :: (ascii "ip" ++ [34, 58, 34]) := by decide
  have h₃ : ascii "\",\"observed_ip\":\"" =
      34 :: 44 :: 34 :: (ascii "observed_ip" ++ [34, 58, 34]) := by decide
  have h₄ : ascii "\",\"expires_in_s\":" =
      34 :: 44 :: 34 :: (ascii "expires_in_s" ++ [34, 58]) := by decide
  have h₅ : ascii ",\"boots_since_seen\":" =
      44 :: 34 :: (ascii "boots_since_seen" ++ [34, 58]) := by decide
  have h₆ : ascii ",\"stored\":" = 44 :: 34 :: (ascii "stored" ++ [34, 58]) := by decide
  have h₇ : ascii ",\"saved_ip\":\"" = 44 :: 34 :: (ascii "saved_ip" ++ [34, 58, 34]) := by
    decide
  have h₈ : ascii "\",\"saved_observed_ip\":\"" =
      34 :: 44 :: 34 :: (ascii "saved_observed_ip" ++ [34, 58, 34]) := by decide
  have h₉ : ascii "\",\"name\":\"" = 34 :: 44 :: 34 :: (ascii "name" ++ [34, 58, 34]) := by
    decide
  have hquote : ascii "\"" = [34] := by decide
  have hclose : ascii "\x7d" = [125] := by decide
  have h₁₀ : ascii ",\"conflict\":\"" = 44 :: 34 :: (ascii "conflict" ++ [34, 58, 34]) := by
    decide
  have h₁₁ : ascii "\",\"conflict_with\":\"" =
      34 :: 44 :: 34 :: (ascii "conflict_with" ++ [34, 58, 34]) := by decide
  unfold leaseText leaseHead leaseMembers
  rw [h₁, h₂, h₃, h₄, h₅, h₆, h₇, h₈, h₉, hquote, hclose, escaped_shown]
  cases leaseConflict conflicts l.mac with
  | none =>
    simp only [objectText, List.map_cons, List.map_nil, commaSeparated_cons, tightMember_text,
      quotedPieces_plain, quotedPieces, List.flatMap_cons, List.flatMap_nil, List.append_assoc,
      List.cons_append, List.nil_append, List.append_nil, Option.map_none, Option.getD_none,
      shownName]
  | some c =>
    simp only [objectText, List.map_cons, List.map_nil, commaSeparated_cons, tightMember_text,
      quotedPieces_plain, quotedPieces, List.flatMap_cons, List.flatMap_nil, List.append_assoc,
      List.cons_append, List.nil_append, Option.map_some, Option.getD_some, conflictText,
      h₁₀, h₁₁, hquote, shownName]

/-! ## Its values -/

/-- A text that needs no escape, and is in ASCII. -/
def Bare (text : List UInt8) : Prop := ∀ c ∈ text, (Piece.plain c).Valid ∧ c < 128

theorem Bare.utf8 (h : Bare s) : IsUtf8 s := isUtf8_ascii fun c hc => (h c hc).2

theorem Bare.isValue (h : Bare s) : IsValue (plainValue s) :=
  .string (List.forall_mem_map.mpr fun c hc => (h c hc).1)

theorem bare_all (h : s.all (fun c => decide ((Piece.plain c).Valid ∧ c < 128)) = true) : Bare s :=
  fun c hc => of_decide_eq_true (List.all_eq_true.mp h c hc)

theorem Bare.append {t : List UInt8} (hs : Bare s) (ht : Bare t) : Bare (s ++ t) := fun c hc =>
  (List.mem_append.mp hc).elim (hs c) (ht c)

theorem bare_hexByte (b : BitVec 8) : Bare (hexByte b) := by
  have hall : ∀ n < 16, (Piece.plain (hexDigit n)).Valid ∧ hexDigit n < 128 := by decide
  have hlt := b.isLt
  intro c hc
  simp only [hexByte, List.mem_cons, List.not_mem_nil, or_false] at hc
  rcases hc with rfl | rfl
  · exact hall _ (by omega)
  · exact hall _ (by omega)

theorem bare_macText (mac : Mac) : Bare (macText mac) := by
  have hcolon : Bare [58] := bare_all (by decide)
  unfold macText
  exact (bare_hexByte _).append (hcolon.append ((bare_hexByte _).append (hcolon.append
    ((bare_hexByte _).append (hcolon.append ((bare_hexByte _).append (hcolon.append
      ((bare_hexByte _).append (hcolon.append (bare_hexByte _))))))))))

theorem bare_decimal (n : Nat) : Bare (decimal n) := by
  have hall : ∀ n < 256, isDigit (UInt8.ofNat n) = true →
      (Piece.plain (UInt8.ofNat n)).Valid ∧ UInt8.ofNat n < 128 := by
    decide +kernel
  intro c hc
  have hdigit := hall c.toNat c.toNat_lt
  rw [UInt8.ofNat_toNat] at hdigit
  exact hdigit (digit_of_mem_decimal hc)

theorem bare_ipOrEmpty (ip : Ip) : Bare (ipOrEmpty ip) := by
  have hdot : Bare (ascii ".") := bare_all (by decide)
  unfold ipOrEmpty
  split
  · exact fun c hc => absurd hc List.not_mem_nil
  · unfold ip4addrText
    exact (((((bare_decimal _).append hdot).append (bare_decimal _)).append hdot).append
      (bare_decimal _)).append hdot |>.append (bare_decimal _)

theorem bool_isValue (b : Bool) : IsValue (ascii (if b then "true" else "false")) := by
  cases b
  · exact .word (.inl rfl)
  · exact .word (.inr (.inr rfl))

theorem isNumber_signedDecimal (n : Int) : IsNumber (signedDecimal n) := by
  unfold signedDecimal
  split
  · rename_i hneg
    refine ⟨[45], decimal n.natAbs, [], [], by simp, .inr rfl, .inr ⟨?_, ?_⟩, .inl rfl, .inl rfl⟩
    · exact ⟨decimal_ne_nil, fun _ => digit_of_mem_decimal⟩
    · exact decimal_head (Int.natAbs_pos.mpr (Int.ne_of_lt hneg))
  · exact isNumber_decimal _

theorem leaseHead_utf8 (l : LeaseInfo) : IsUtf8 (leaseHead l) := by
  have hstored : IsUtf8 (ascii (if l.stored then "true" else "false")) := by
    cases l.stored <;> exact isUtf8_literal (by decide)
  unfold leaseHead
  refine ((((((((((((((((?_ : IsUtf8 _).append (bare_macText _).utf8).append ?_).append
    (bare_ipOrEmpty _).utf8).append ?_).append (bare_ipOrEmpty _).utf8).append ?_).append
    (bare_decimal _).utf8).append ?_).append (bare_decimal _).utf8).append ?_).append
    hstored).append ?_).append (bare_ipOrEmpty _).utf8).append ?_).append
    (bare_ipOrEmpty _).utf8).append ?_
  all_goals exact isUtf8_literal (by decide)

theorem conflictText_utf8 (mac : Mac) (c : ConflictInfo) : IsUtf8 (conflictText mac c) := by
  have hend : IsUtf8 (ascii (if c.mac = mac then "blocked" else "holder")) := by
    split <;> exact isUtf8_literal (by decide)
  unfold conflictText
  refine ((((?_ : IsUtf8 _).append hend).append ?_).append (bare_macText _).utf8).append ?_
  all_goals exact isUtf8_literal (by decide)

/-- Behind the quotation mark at the end of the name. -/
def leaseTail (conflicts : List ConflictInfo) (l : LeaseInfo) : List UInt8 :=
  ((leaseConflict conflicts l.mac).map (conflictText l.mac)).getD [] ++ ascii "\x7d"

theorem leaseTail_utf8 (conflicts : List ConflictInfo) (l : LeaseInfo) :
    IsUtf8 (leaseTail conflicts l) := by
  unfold leaseTail
  refine IsUtf8.append ?_ (isUtf8_literal (by decide))
  cases leaseConflict conflicts l.mac with
  | none => exact .nil
  | some c => exact conflictText_utf8 _ _

/-- The name stands between two quotation marks. -/
theorem leaseText_cut (clients : List ClientInfo) (conflicts : List ConflictInfo) (l : LeaseInfo) :
    ∃ front, leaseText clients conflicts l =
      front ++ 34 :: (escaped (leaseName clients l.mac) ++ 34 :: leaseTail conflicts l) ∧
        leaseHead l = front ++ [34] := by
  have hname : ascii "\",\"name\":\"" = ascii "\",\"name\":" ++ [34] := by decide
  have hquote : ascii "\"" = [34] := by decide
  unfold leaseText leaseHead leaseTail
  rw [hname, hquote]
  refine ⟨_, ?_, (List.append_assoc _ _ _).symm⟩
  simp only [List.append_assoc, List.cons_append, List.nil_append]

theorem leaseText_utf8 : IsUtf8 (leaseText clients conflicts l) ↔
    IsUtf8 (shownName clients l.mac) := by
  obtain ⟨front, htext, hhead⟩ := leaseText_cut clients conflicts l
  have hfront : IsUtf8 front := by
    have hboth := leaseHead_utf8 l
    rw [hhead, isUtf8_split (by decide)] at hboth
    exact hboth.1
  rw [htext, isUtf8_split (by decide), isUtf8_split (by decide), isUtf8_escaped]
  exact (and_iff_right hfront).trans (and_iff_left (leaseTail_utf8 conflicts l))

theorem leaseMembers_ok : ∀ m ∈ leaseMembers clients conflicts l, m.Ok := by
  unfold leaseMembers
  refine List.forall_mem_append.mpr ⟨?_, ?_⟩
  · simp only [List.forall_mem_cons]
    exact ⟨tightMember_ok (by decide), tightMember_ok (by decide), tightMember_ok (by decide),
      tightMember_ok (by decide), tightMember_ok (by decide), tightMember_ok (by decide),
      tightMember_ok (by decide), tightMember_ok (by decide), tightMember_ok (by decide),
      List.forall_mem_nil _⟩
  · cases leaseConflict conflicts l.mac with
    | none => exact List.forall_mem_nil _
    | some c =>
      simp only [List.forall_mem_cons]
      exact ⟨tightMember_ok (by decide), tightMember_ok (by decide), List.forall_mem_nil _⟩

theorem leaseMembers_values : ∀ m ∈ leaseMembers clients conflicts l, IsValue m.value := by
  have hname : IsValue (quotedPieces ((shownName clients l.mac).map pieceOf)) :=
    .string (List.forall_mem_map.mpr fun c _ => pieceOf_valid c)
  unfold leaseMembers
  refine List.forall_mem_append.mpr ⟨?_, ?_⟩
  · simp only [List.forall_mem_cons]
    exact ⟨(bare_macText _).isValue, (bare_ipOrEmpty _).isValue, (bare_ipOrEmpty _).isValue,
      .number (isNumber_decimal _), .number (isNumber_decimal _), bool_isValue _,
      (bare_ipOrEmpty _).isValue, (bare_ipOrEmpty _).isValue, hname, List.forall_mem_nil _⟩
  · cases leaseConflict conflicts l.mac with
    | none => exact List.forall_mem_nil _
    | some c =>
      have hend : Bare (ascii (if c.mac = l.mac then "blocked" else "holder")) := by
        split <;> exact bare_all (by decide)
      simp only [List.forall_mem_cons]
      exact ⟨hend.isValue, (bare_macText _).isValue, List.forall_mem_nil _⟩

theorem leaseText_isObject (h : IsUtf8 (shownName clients l.mac)) :
    IsObject (leaseText clients conflicts l) (leaseMembers clients conflicts l) where
  utf8 := leaseText_utf8.mpr h
  members := leaseMembers_ok
  values := leaseMembers_values
  text_eq := ⟨[], [], [], List.forall_mem_nil _, List.forall_mem_nil _, List.forall_mem_nil _,
    leaseText_object clients conflicts l⟩

/-- What the members of an entry are called. -/
theorem leaseMembers_names (clients : List ClientInfo) (conflicts : List ConflictInfo)
    (l : LeaseInfo) : Names (leaseMembers clients conflicts l) (ascii "mac") (macText l.mac) ∧
      Names (leaseMembers clients conflicts l) (ascii "name") (shownName clients l.mac) := by
  have hother : ∀ {name key : String} {value : List UInt8} {P : Prop}, ascii name ≠ ascii key →
      meaning (tightMember name value).name = ascii key → P := fun hne hname =>
    absurd ((tightMember_name _ _).symm.trans hname) hne
  have hmac : ∃ ps, (∀ p ∈ ps, p.Valid) ∧ plainValue (macText l.mac) = quotedPieces ps ∧
      meaning ps = macText l.mac :=
    ⟨_, List.forall_mem_map.mpr fun c hc => (bare_macText _ c hc).1, rfl, meaning_plains _⟩
  have hname : ∃ ps, (∀ p ∈ ps, p.Valid) ∧
      quotedPieces ((shownName clients l.mac).map pieceOf) = quotedPieces ps ∧
        meaning ps = shownName clients l.mac :=
    ⟨_, List.forall_mem_map.mpr fun c _ => pieceOf_valid c, rfl, meaning_pieceOf _⟩
  constructor
  · refine ⟨⟨_, List.mem_append_left _ List.mem_cons_self, tightMember_name _ _⟩, ?_⟩
    refine List.forall_mem_append.mpr ⟨?_, ?_⟩
    · simp only [List.forall_mem_cons]
      exact ⟨fun _ => hmac, hother (by decide), hother (by decide), hother (by decide),
        hother (by decide), hother (by decide), hother (by decide), hother (by decide),
        hother (by decide), List.forall_mem_nil _⟩
    · cases leaseConflict conflicts l.mac with
      | none => exact List.forall_mem_nil _
      | some c =>
        simp only [List.forall_mem_cons]
        exact ⟨hother (by decide), hother (by decide), List.forall_mem_nil _⟩
  · refine ⟨⟨_, List.mem_append_left _ (List.mem_of_getLast? rfl), tightMember_name _ _⟩, ?_⟩
    refine List.forall_mem_append.mpr ⟨?_, ?_⟩
    · simp only [List.forall_mem_cons]
      exact ⟨hother (by decide), hother (by decide), hother (by decide), hother (by decide),
        hother (by decide), hother (by decide), hother (by decide), hother (by decide),
        fun _ => hname, List.forall_mem_nil _⟩
    · cases leaseConflict conflicts l.mac with
      | none => exact List.forall_mem_nil _
      | some c =>
        simp only [List.forall_mem_cons]
        exact ⟨hother (by decide), hother (by decide), List.forall_mem_nil _⟩

/-! ## The page -/

theorem leasesText_object (leases : List LeaseInfo) (clients : List ClientInfo)
    (conflicts : List ConflictInfo) (restored : BitVec 32) :
    leasesText leases clients conflicts restored =
      123 :: (objectText [] (leasesMembers leases clients conflicts restored) ++ [125]) := by
  have hmax : ascii "\x7b\"max\":" = 123 :: 34 :: (ascii "max" ++ [34, 58]) := by decide
  have hrestored : ascii ",\"restored\":" = 44 :: 34 :: (ascii "restored" ++ [34, 58]) := by decide
  have hleases : ascii ",\"leases\":[" = 44 :: 34 :: (ascii "leases" ++ [34, 58, 91]) := by decide
  have hclose : ascii "]\x7d" = [93, 125] := by decide
  have harray : arrayText [] (leases.map fun l => { value := leaseText clients conflicts l }) =
      commaSeparated (leases.map (leaseText clients conflicts)) := by
    cases leases with
    | nil => rfl
    | cons l leases =>
      simp only [List.map_cons, arrayText, JsonElement.text, List.map_map, List.nil_append,
        List.append_nil, Function.comp_def]
  unfold leasesText leasesHead leasesMembers
  rw [hmax, hrestored, hleases, hclose, harray]
  simp only [objectText, List.map_cons, List.map_nil, commaSeparated_cons, tightMember_text,
    List.flatMap_cons, List.flatMap_nil, List.append_assoc, List.cons_append, List.nil_append]

theorem leasesHead_utf8 (restored : BitVec 32) : IsUtf8 (leasesHead restored) := by
  have hrestored : IsUtf8 (signedDecimal restored.toInt) := by
    unfold signedDecimal
    split
    · exact (isUtf8_split (s := []) (by decide)).mpr ⟨.nil, isUtf8_decimal _⟩
    · exact isUtf8_decimal _
  unfold leasesHead
  exact ((((isUtf8_literal (by decide)).append (isUtf8_decimal _)).append
    (isUtf8_literal (by decide))).append hrestored).append (isUtf8_literal (by decide))

theorem leasesText_utf8 : IsUtf8 (leasesText leases clients conflicts restored) ↔
    ∀ l ∈ leases, IsUtf8 (shownName clients l.mac) := by
  have hclose : ascii "]\x7d" = 93 :: [125] := by decide
  have hopen : leasesHead restored = (ascii "\x7b\"max\":" ++ decimal maxLeases ++
      ascii ",\"restored\":" ++ signedDecimal restored.toInt ++ ascii ",\"leases\":") ++ [91] := by
    have hleases : ascii ",\"leases\":[" = ascii ",\"leases\":" ++ [91] := by decide
    unfold leasesHead
    rw [hleases, ← List.append_assoc]
  have hfront := leasesHead_utf8 restored
  rw [hopen, isUtf8_split (by decide)] at hfront
  unfold leasesText
  rw [hopen, hclose, isUtf8_split (by decide), List.append_assoc, List.singleton_append,
    isUtf8_split (by decide), isUtf8_commaSeparated_iff, List.forall_mem_map]
  exact ((and_iff_left (isUtf8_singleton.mpr (by decide))).trans (and_iff_right hfront.1)).trans
    (forall₂_congr fun _ _ => leaseText_utf8)

theorem leaseText_isValue (clients : List ClientInfo) (conflicts : List ConflictInfo)
    (l : LeaseInfo) : IsValue (leaseText clients conflicts l) := by
  rw [leaseText_object]
  exact .object (List.forall_mem_nil _) leaseMembers_ok leaseMembers_values

theorem leasesText_isObject (h : ∀ l ∈ leases, IsUtf8 (shownName clients l.mac)) :
    IsObject (leasesText leases clients conflicts restored)
      (leasesMembers leases clients conflicts restored) where
  utf8 := leasesText_utf8.mpr h
  members := by
    simp only [leasesMembers, List.forall_mem_cons]
    exact ⟨tightMember_ok (by decide), tightMember_ok (by decide), tightMember_ok (by decide),
      List.forall_mem_nil _⟩
  values := by
    simp only [leasesMembers, List.forall_mem_cons]
    exact ⟨.number (isNumber_decimal _), .number (isNumber_signedDecimal _),
      .array (List.forall_mem_nil _)
        (List.forall_mem_map.mpr fun _ _ => ⟨List.forall_mem_nil _, List.forall_mem_nil _⟩)
        (List.forall_mem_map.mpr fun l _ => leaseText_isValue clients conflicts l),
      List.forall_mem_nil _⟩
  text_eq := ⟨[], [], [], List.forall_mem_nil _, List.forall_mem_nil _, List.forall_mem_nil _,
    leasesText_object leases clients conflicts restored⟩

/-! ## The names on it -/

theorem bare_hostChars (h : ∀ c ∈ s, isHostChar c = true) : Bare s := by
  have hall : ∀ n < 256, isHostChar (UInt8.ofNat n) = true →
      (Piece.plain (UInt8.ofNat n)).Valid ∧ UInt8.ofNat n < 128 := by
    decide +kernel
  intro c hc
  have hchar := hall c.toNat c.toNat_lt
  rw [UInt8.ofNat_toNat] at hchar
  exact hchar (h c hc)

theorem cString_hostChars (h : ∀ c ∈ s, isHostChar c = true) : cString s = s :=
  cString_eq_self fun hnul => absurd (h 0 hnul) (by decide)

/-- The name of an entry is the client's, unchanged. -/
theorem shownName_named {es : List RouterEvent} {t : ClientTable} (h : TableNamed es t)
    (mac : Mac) : (∀ c ∈ shownName (getSnapshot t) mac, isHostChar c = true) ∧
      (shownName (getSnapshot t) mac = [] ∨ ∃ hostname, Asked es mac hostname ∧
        shownName (getSnapshot t) mac = hostname.take (nameMaxLen - 1)) := by
  unfold shownName leaseName
  cases hfind : (getSnapshot t).find? fun c => c.mac == mac with
  | none => exact ⟨List.forall_mem_nil _, .inl rfl⟩
  | some c =>
    have hmac : (c.mac == mac) = true :=
      List.find?_some (p := fun c : ClientInfo => c.mac == mac) hfind
    obtain ⟨i, hi, rfl⟩ := List.mem_map.mp (List.mem_of_find?_eq_some hfind)
    have hactive : (t.clients i).active = true := (List.mem_filter.mp hi).2
    have hchars := h.chars hactive
    have hlength : (t.clients i).name.length ≤ nameMaxLen - 1 := by
      rcases h i hactive with hnone | ⟨hostname, -, hname⟩
      · rw [hnone]
        exact Nat.zero_le _
      · rw [hname]
        exact List.length_take_le _ _
    have hshown : cString (strlcpy nameMaxLen (t.clients i).name) = (t.clients i).name := by
      unfold strlcpy
      rw [cString_hostChars hchars, List.take_of_length_le hlength, cString_hostChars hchars]
    show (∀ c ∈ cString (strlcpy nameMaxLen (t.clients i).name), isHostChar c = true) ∧
      (cString (strlcpy nameMaxLen (t.clients i).name) = [] ∨ ∃ hostname, Asked es mac hostname ∧
        cString (strlcpy nameMaxLen (t.clients i).name) = hostname.take (nameMaxLen - 1))
    rw [hshown, ← eq_of_beq hmac]
    exact ⟨hchars, h i hactive⟩

end

/-- **The page is JSON in every run**, whatever the clients send, and an entry has no other name
    than one that its own client has asked under. -/
theorem leases_json (cfg : Dhcp.Config) (boot : Nat) (es : List RouterEvent) (now : Nat)
    (conflicts : Conflicts) :
    let r := es.foldl Router.step (.powerOn cfg none boot)
    let leases := Dhcp.getLeases r.bridge.dhcp.srv now
    let clients := getSnapshot r.bridge.table
    let restored := BitVec.ofNat 32 r.bridge.dhcp.srv.restoredCount
    ∃ body, leasesGet true false leases clients (getConflicts conflicts) restored = .sent body ∧
      IsObject body (leasesMembers leases clients (getConflicts conflicts) restored) ∧
        ∀ l ∈ leases, ∃ name,
          IsObject (leaseText clients (getConflicts conflicts) l)
              (leaseMembers clients (getConflicts conflicts) l) ∧
            Names (leaseMembers clients (getConflicts conflicts) l) (ascii "mac")
              (macText l.mac) ∧
            Names (leaseMembers clients (getConflicts conflicts) l) (ascii "name") name ∧
            (name = [] ∨ ∃ hostname, Asked es l.mac hostname ∧
              name = hostname.take (nameMaxLen - 1)) := by
  intro r leases clients restored
  have hinv : r.bridge.dhcp.Inv :=
    Router.run_inv (.powerOn fun _ hbuf => absurd hbuf (by simp)) es
  have hnamed : TableNamed es r.bridge.table := ((Track.Named.powerOn []).run es).table
  have hutf8 : ∀ l ∈ leases, IsUtf8 (shownName clients l.mac) := fun l _ =>
    (bare_hostChars (shownName_named hnamed l.mac).1).utf8
  refine ⟨_, leasesGet_fits (Dhcp.getLeases_nodup hinv.table.mac) (getLeases_length _ now)
    (getSnapshot_names _) (getConflicts_length conflicts) restored,
    leasesText_isObject hutf8, fun l hl => ?_⟩
  obtain ⟨hmac, hname⟩ := leaseMembers_names clients (getConflicts conflicts) l
  exact ⟨_, leaseText_isObject (hutf8 l hl), hmac, hname, (shownName_named hnamed l.mac).2⟩

end Web
end Wt32Router
