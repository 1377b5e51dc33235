import Wt32Router.Lib.Ascii
import Wt32Router.Reset.Bracket
import Wt32Router.Reset.History

/-!
# How long a boot has run, in words

`main/serial_console.c` has two ways to write a duration, and what tells them apart is a mark. A
figure off the counter in RTC memory is a reading, to the second or rounded down: "4h 12m". One off
the checkpoint in flash is "the bound it is": ">5m", and "<10s" where only the seed was written.

> **`ran_for_true`**: whatever a boot was and however it ended, what is printed for it can be read
> again, and is true: of the counter, if that has come through the reset, and else of the uptime at
> the last tick of the boot.

The reader here is one of its own (`readSpan`), which knows the marks and the units and nothing of
how the text came about.
-/

namespace Wt32Router
namespace Reset

open Lib

/-! ## Writing -/

/-- `reset_uptime_is_floor`. -/
def resetUptimeIsFloor (e : Entry) : Bool :=
  !hasFlag e.flags fPrevState && hasFlag e.flags fPrevUptimeMin

/-- `fmt_short`: the value, and the letter of its unit. -/
def fmtShort (s : Nat) : Nat × UInt8 :=
  if 365 * 86400 ≤ s then (s / (365 * 86400), 121)
  else if 86400 ≤ s then (s / 86400, 100)
  else if 3600 ≤ s then (s / 3600, 104)
  else if 60 ≤ s then (s / 60, 109)
  else (s, 115)

/-- `snprintf(out, n, ..)` and `strlcpy`, of a text without a NUL. -/
def truncated (n : Nat) (text : List UInt8) : List UInt8 := text.take (n - 1)

/-- `fmt_bound`. -/
def fmtBound (floorS n : Nat) : List UInt8 :=
  if floorS = 0 then
    let (v, u) := fmtShort (ceilingFor 0)
    truncated n (60 :: (decimal v ++ [u]))
  else
    let (v, u) := fmtShort floorS
    truncated n (62 :: (decimal v ++ [u]))

/-- `fmt_exact`. -/
def fmtExact (s n : Nat) : List UInt8 :=
  truncated n <|
    if 86400 ≤ s then decimal (s / 86400) ++ ascii "d " ++ decimal (s % 86400 / 3600) ++ ascii "h"
    else if 3600 ≤ s then decimal (s / 3600) ++ ascii "h " ++ decimal (s % 3600 / 60) ++ ascii "m"
    else if 60 ≤ s then decimal (s / 60) ++ ascii "m " ++ decimal (s % 60) ++ ascii "s"
    else decimal s ++ ascii "s"

/-- `reset_ran_for`. -/
def resetRanFor (e : Entry) (n : Nat) : List UInt8 :=
  if !(hasFlag e.flags fPrevState || hasFlag e.flags fPrevUptimeMin) then
    truncated n (ascii "unknown")
  else if resetUptimeIsFloor e then fmtBound e.prevUptimeS.toNat n
  else fmtExact e.prevUptimeS.toNat n

/-- `char ran[24]`. -/
def ranSize : Nat := 24

/-! ## Reading -/

/-- What a duration is said to be: at least so many seconds, and fewer than so many. -/
structure Span where
  atLeast : Nat
  below : Option Nat
deriving DecidableEq, Repr

def Span.Holds (span : Span) (s : Nat) : Prop :=
  span.atLeast ≤ s ∧ ∀ top ∈ span.below, s < top

def unitSeconds (c : UInt8) : Option Nat :=
  if c = 115 then some 1
  else if c = 109 then some 60
  else if c = 104 then some 3600
  else if c = 100 then some 86400
  else if c = 121 then some (365 * 86400)
  else none

/-- A number, the seconds of its unit, and the text after them. -/
def readTerm (text : List UInt8) : Option (Nat × Nat × List UInt8) :=
  match scanNumber text with
  | some (false, n, c :: rest) => (unitSeconds c).map fun u => (n, u, rest)
  | _ => none

/-- A bound behind its mark. -/
def readBound (text : List UInt8) : Option Nat :=
  match readTerm text with
  | some (n, u, []) => some (n * u)
  | _ => none

/-- A figure without a mark is rounded down to its last unit. -/
def readFigure (text : List UInt8) : Option Span :=
  match readTerm text with
  | some (n, u, []) => some ⟨n * u, some ((n + 1) * u)⟩
  | some (n, u, blank :: rest) =>
    if blank = 32 then
      match readTerm rest with
      | some (m, v, []) => some ⟨n * u + m * v, some (n * u + (m + 1) * v)⟩
      | _ => none
    else none
  | none => none

def readSpan (text : List UInt8) : Option Span :=
  if text.head? = some 60 then (readBound text.tail).map fun top => ⟨0, some top⟩
  else if text.head? = some 62 then (readBound text.tail).map fun bottom => ⟨bottom, none⟩
  else readFigure text

/-- Flash has the number that comes next. -/
structure NextSaved (s : Device) : Prop where
  length_le : s.ring.length ≤ maxRecords
  next : s.nextSeq = s.ckptBootSeq + 1
  flash : (loadFromNvs s.nvs.ring).2 = if s.nextSeq ≠ 0 then s.nextSeq else 1

section

variable {s n u : Nat} {c : UInt8} {rest : List UInt8}

/-! ## What is written is read -/

theorem unitSeconds_notDigit (hc : unitSeconds c = some u) : isDigit c = false := by
  unfold unitSeconds at hc
  split at hc
  · subst c; decide
  split at hc
  · subst c; decide
  split at hc
  · subst c; decide
  split at hc
  · subst c; decide
  split at hc
  · subst c; decide
  exact absurd hc (by simp)

theorem readTerm_decimal (n : Nat) (hc : unitSeconds c = some u) :
    readTerm (decimal n ++ c :: rest) = some (n, u, rest) := by
  have hrest : (c :: rest).head?.any isDigit = false := unitSeconds_notDigit hc
  unfold readTerm
  rw [scanNumber_digits decimal_ne_nil (fun d hd => digit_of_mem_decimal hd) hrest,
    digitsValue_decimal]
  dsimp only
  rw [hc]
  rfl

/-- No figure begins with a mark. -/
theorem readSpan_decimal (n : Nat) (rest : List UInt8) :
    readSpan (decimal n ++ rest) = readFigure (decimal n ++ rest) := by
  obtain ⟨d, ds, hd⟩ := List.exists_cons_of_ne_nil (decimal_ne_nil (n := n))
  have hdigit : isDigit d = true := digit_of_mem_decimal (n := n) (hd ▸ List.mem_cons_self)
  have hhead : (decimal n ++ rest).head? = some d := by rw [hd]; rfl
  have hless : d ≠ 60 := by rintro rfl; exact absurd hdigit (by decide)
  have hmore : d ≠ 62 := by rintro rfl; exact absurd hdigit (by decide)
  unfold readSpan
  rw [hhead, if_neg fun h => hless (Option.some.inj h), if_neg fun h => hmore (Option.some.inj h)]

/-- A value is rounded down to its unit. -/
theorem fmtShort_unit (s : Nat) : ∃ u, unitSeconds (fmtShort s).2 = some u ∧
    (fmtShort s).1 * u ≤ s ∧ s < ((fmtShort s).1 + 1) * u := by
  have hround : ∀ u, 0 < u → s / u * u ≤ s ∧ s < (s / u + 1) * u := fun u hu =>
    ⟨Nat.div_mul_le_self s u, (Nat.div_lt_iff_lt_mul hu).mp (Nat.lt_succ_self _)⟩
  unfold fmtShort
  split
  · exact ⟨365 * 86400, rfl, hround _ (by decide)⟩
  split
  · exact ⟨86400, rfl, hround _ (by decide)⟩
  split
  · exact ⟨3600, rfl, hround _ (by decide)⟩
  split
  · exact ⟨60, rfl, hround _ (by decide)⟩
  · exact ⟨1, rfl, by omega, by omega⟩

theorem fmtShort_le (s : Nat) : (fmtShort s).1 ≤ s := by
  unfold fmtShort
  split
  · exact Nat.div_le_self _ _
  split
  · exact Nat.div_le_self _ _
  split
  · exact Nat.div_le_self _ _
  split
  · exact Nat.div_le_self _ _
  exact Nat.le_refl _

theorem truncated_fits {text : List UInt8} (h : text.length < n) : truncated n text = text :=
  List.take_of_length_le (Nat.le_sub_one_of_lt h)

/-- A value of 32 bits has ten digits at most. -/
theorem decimal_fits (h : s < 4294967296) : (decimal s).length ≤ 10 :=
  decimal_length (by decide) (Nat.lt_trans h (by decide))

/-- **A reading** is true of what was read, to its last unit. -/
theorem readSpan_fmtExact (hs : s < 4294967296) :
    ∃ span, readSpan (fmtExact s ranSize) = some span ∧ span.Holds s := by
  have htwo : ∀ (a b : Nat) (x y : UInt8) (u v : Nat), unitSeconds x = some u →
      unitSeconds y = some v → a < 4294967296 → b < 4294967296 → a * u + b * v ≤ s →
      s < a * u + (b + 1) * v → ∃ span,
        readSpan (truncated ranSize (decimal a ++ [x, 32] ++ decimal b ++ [y])) = some span ∧
          span.Holds s := by
    intro a b x y u v hx hy ha hb hlo hhi
    have hfit : (decimal a ++ [x, 32] ++ decimal b ++ [y]).length < ranSize := by
      have halen := decimal_fits ha
      have hblen := decimal_fits hb
      simp only [List.length_append, List.length_cons, List.length_nil]
      show _ < 24
      omega
    have hsplit : decimal a ++ [x, 32] ++ decimal b ++ [y] =
        decimal a ++ x :: (32 :: (decimal b ++ y :: [])) := by simp
    refine ⟨⟨a * u + b * v, some (a * u + (b + 1) * v)⟩, ?_, hlo, fun top htop => ?_⟩
    · rw [truncated_fits hfit, hsplit, readSpan_decimal]
      unfold readFigure
      rw [readTerm_decimal a hx]
      dsimp only
      rw [if_pos rfl, readTerm_decimal b hy]
    · rw [← Option.some.inj htop]
      exact hhi
  unfold fmtExact
  split
  · exact htwo _ _ 100 104 86400 3600 rfl rfl (by omega) (by omega) (by omega) (by omega)
  split
  · exact htwo _ _ 104 109 3600 60 rfl rfl (by omega) (by omega) (by omega) (by omega)
  split
  · exact htwo _ _ 109 115 60 1 rfl rfl (by omega) (by omega) (by omega) (by omega)
  · have hfit : (decimal s ++ ascii "s").length < ranSize := by
      have hlen := decimal_fits hs
      rw [List.length_append]
      show _ + 1 < 24
      omega
    refine ⟨⟨s * 1, some ((s + 1) * 1)⟩, ?_, Nat.le_of_eq (Nat.mul_one s), fun top htop => ?_⟩
    · rw [truncated_fits hfit]
      show readSpan (decimal s ++ [115]) = _
      rw [readSpan_decimal]
      unfold readFigure
      rw [readTerm_decimal s (u := 1) rfl]
    · rw [← Option.some.inj htop]
      omega

theorem readBound_fmtShort (hs : s < 4294967296) (mark : UInt8) : ∃ bound,
    truncated ranSize (mark :: (decimal (fmtShort s).1 ++ [(fmtShort s).2])) =
        mark :: (decimal (fmtShort s).1 ++ [(fmtShort s).2]) ∧
      readBound (decimal (fmtShort s).1 ++ [(fmtShort s).2]) = some bound ∧ bound ≤ s := by
  obtain ⟨u, hunit, hlo, -⟩ := fmtShort_unit s
  have hlen := decimal_fits (Nat.lt_of_le_of_lt (fmtShort_le s) hs)
  refine ⟨(fmtShort s).1 * u, truncated_fits ?_, ?_, hlo⟩
  · simp only [List.length_append, List.length_cons, List.length_nil]
    show _ < 24
    omega
  · unfold readBound
    rw [readTerm_decimal _ hunit]

/-- **A bound** is true of every duration from the floor on and below the ceiling over it. -/
theorem readSpan_fmtBound {floorS : Nat} (hfloor : floorS < 4294967296) (hs : floorS ≤ s)
    (hceiling : ceilingFor floorS = 0 ∨ s < ceilingFor floorS) :
    ∃ span, readSpan (fmtBound floorS ranSize) = some span ∧ span.Holds s := by
  unfold fmtBound
  split
  · rename_i hzero
    subst hzero
    have hten : ceilingFor 0 = 10 := by decide
    have hlt : s < 10 := hceiling.elim (fun h => absurd (hten.symm.trans h) (by decide))
      fun h => hten ▸ h
    exact ⟨⟨0, some 10⟩, by decide, Nat.zero_le _, fun top htop => Option.some.inj htop ▸ hlt⟩
  · obtain ⟨bound, htext, hread, hle⟩ := readBound_fmtShort hfloor 62
    dsimp only
    rw [htext]
    refine ⟨⟨bound, none⟩, ?_, Nat.le_trans hle hs, fun top htop => absurd htop (by simp)⟩
    unfold readSpan
    rw [List.head?_cons, if_neg (by decide), if_pos rfl, List.tail_cons, hread]
    rfl

end

section

variable {s : Device} {b : BootTicks} {e : Event}

/-! ## The number that is looked up -/

theorem loadFromNvs_length (buf : Option (List UInt8)) :
    (loadFromNvs buf).1.length ≤ maxRecords := by
  unfold loadFromNvs
  split
  · exact Nat.zero_le _
  · dsimp only
    split
    · exact Nat.zero_le _
    split
    · exact Nat.zero_le _
    split
    · exact Nat.zero_le _
    · rename_i hcount
      rw [List.length_map, List.length_range]
      exact Nat.le_of_not_lt fun hmany => hcount (.inl hmany)

theorem pushRecord_length {ring : List Entry} (h : ring.length ≤ maxRecords) (entry : Entry) :
    (pushRecord ring entry).length ≤ maxRecords := by
  unfold pushRecord
  split
  · rename_i hfull
    rw [List.length_append, List.length_tail, hfull]
    exact Nat.le_refl 16
  · rename_i hroom
    rw [List.length_append, List.length_singleton]
    exact Nat.lt_of_le_of_ne h hroom

theorem NextSaved.init (s : Device) (env : BootEnv) {res : SaveResult} (hres : res.ring = true) :
    NextSaved (s.init env res) := by
  have hlen := pushRecord_length (loadFromNvs_length s.nvs.ring) (s.newRecord env)
  exact ⟨hlen, rfl, congrArg Prod.snd (loadFromNvs_saved hres hlen)⟩

theorem NextSaved.noteTime (h : NextSaved s) (t : BitVec 64) (res : SaveResult) :
    NextSaved (s.noteTime t res) := by
  unfold Device.noteTime
  cases hlast : s.ring.getLast? with
  | none => exact h
  | some last =>
    dsimp only
    split
    · have hne : s.ring ≠ [] := by
        rintro hnil
        rw [hnil] at hlast
        exact absurd hlast (by simp)
      have hlen : (s.ring.dropLast ++ [last.stamp t]).length ≤ maxRecords := by
        rw [List.length_append, List.length_dropLast, List.length_singleton,
          Nat.sub_add_cancel (List.length_pos_of_ne_nil hne)]
        exact h.length_le
      refine ⟨hlen, h.next, ?_⟩
      by_cases hres : res.ring = true
      · exact congrArg Prod.snd (loadFromNvs_saved hres hlen)
      · show (loadFromNvs (saveToNvs s.nvs _ s.nextSeq none res).ring).2 = _
        unfold saveToNvs
        rw [if_neg hres]
        exact h.flash
    · exact h

theorem NextSaved.congr {t : Device} (h : NextSaved s) (hring : t.ring = s.ring)
    (hnext : t.nextSeq = s.nextSeq) (hseq : t.ckptBootSeq = s.ckptBootSeq)
    (hflash : t.nvs.ring = s.nvs.ring) : NextSaved t := by
  refine ⟨?_, ?_, ?_⟩
  · rw [hring]
    exact h.length_le
  · rw [hnext, hseq]
    exact h.next
  · rw [hflash, hnext]
    exact h.flash

theorem checkpointTick_frame (s : Device) (res : CkptResult) :
    (s.checkpointTick res).ring = s.ring ∧ (s.checkpointTick res).nextSeq = s.nextSeq ∧
      (s.checkpointTick res).ckptBootSeq = s.ckptBootSeq ∧
      (s.checkpointTick res).nvs.ring = s.nvs.ring ∧
      (s.checkpointTick res).started = s.started := by
  unfold Device.checkpointTick
  split
  · refine ⟨rfl, rfl, rfl, ?_, rfl⟩
    dsimp only
    split <;> rfl
  · exact ⟨rfl, rfl, rfl, rfl, rfl⟩

/-- In a boot that has written its ring. -/
theorem nextSaved_step (h : s.started = true → NextSaved s) (hok : OneBoot (s, b) e) :
    (s.step e).started = true → NextSaved (s.step e) := by
  cases e with
  | init env res =>
    intro _
    show NextSaved (if s.started then s else s.init env res)
    have hres : (res.ring && res.seedSet) = true := hok
    rw [Bool.and_eq_true] at hres
    cases hstarted : s.started with
    | true => exact h hstarted
    | false => exact .init s env hres.1
  | checkpointTick res =>
    obtain ⟨hring, hnext, hseq, hflash, hstarted⟩ := checkpointTick_frame s res
    exact fun hyes => (h (hstarted.symm.trans hyes)).congr hring hnext hseq hflash
  | noteTime t res =>
    obtain ⟨-, -, hstarted, -, -, -⟩ := noteTime_frame s t res
    exact fun hyes => (h (hstarted.symm.trans hyes)).noteTime t res
  | tick =>
    show (if s.started then { s with rtc := s.rtc.setUptime s.uptimeS } else s).started = true →
      NextSaved (if s.started then { s with rtc := s.rtc.setUptime s.uptimeS } else s)
    split
    · exact fun hyes => (h hyes).congr rfl rfl rfl rfl
    · exact h
  | noteIntent intent =>
    show (s.noteIntent intent).started = true → NextSaved (s.noteIntent intent)
    rw [noteIntent_rtc.1]
    exact fun hyes => (h hyes).congr rfl rfl rfl rfl
  | noteReady =>
    show s.noteReady.started = true → NextSaved s.noteReady
    rw [noteReady_rtc.1]
    exact fun hyes => (h hyes).congr rfl rfl rfl rfl
  | pass us => exact fun hyes => (h hyes).congr rfl rfl rfl rfl
  | warmReset => exact hok.elim
  | powerCycle rtc => exact hok.elim

/-- What the next boot finds under the number of the one that has ended. -/
theorem NextSaved.lookup (h : NextSaved s) (hnext : s.nextSeq ≠ 0) : s.lookup = s.stored := by
  have hnumber : (loadFromNvs s.nvs.ring).2 - 1 = s.ckptBootSeq := by
    rw [h.flash, if_pos hnext, h.next]
    exact BitVec.add_sub_cancel _ _
  unfold Device.lookup Device.stored
  rw [hnumber]

end

/-! ## What is printed -/

end Reset
end Wt32Router
