import Mathlib.Tactic.IntervalCases
import Wt32Router.Lib.Seqlock
import Wt32Router.Track.Conflicts

/-!
# Whom the wrappers cut off

`mac_is_quarantined` runs once a frame on both cores and takes no lock. It reads a table of four
MACs, two words each, that `quarantine_publish` rewrites once a second, and checks the
generation only after a hit: "a hit read across a rewrite may be an address that was never in
the table at all". Two modules of one vendor's batch share their first four octets, so such an
address "is very likely a real third device on this bridge".

Every load and every store is a step here. The table lies within the library's sequence lock,
and `s_q_any` outside it.

> **`mac_is_quarantined_answers`**: whatever the interleaving, a call that answers yes has read
> one published set, complete while it was read, with its MAC in it, if fewer than `2 ^ 31`
> publishes overlapped it; and a call that none overlapped answers for the last set exactly.
-/

namespace Wt32Router
namespace Track

open Lib Lib.Seqlock
open Lib.DoubleBuffer (writeAll writeAll_append writeAll_map)
open Dhcp (Mac)

/-- `QUARANTINE_MAX`. -/
def quarantineMax : Nat := maxConflicts

/-! ## A MAC as two words -/

/-- `mac[i]`. -/
def macByte (mac : Mac) (i : Nat) : BitVec 8 := (mac >>> (40 - 8 * i)).setWidth 8

def macLo (mac : Mac) : BitVec 32 :=
  (macByte mac 0).setWidth 32 ||| (macByte mac 1).setWidth 32 <<< 8 |||
    (macByte mac 2).setWidth 32 <<< 16 ||| (macByte mac 3).setWidth 32 <<< 24

/-- `Q_SLOT_LIVE`. -/
def qSlotLive : BitVec 32 := 0x80000000

def macHi (mac : Mac) : BitVec 32 :=
  ((macByte mac 4).setWidth 32 ||| (macByte mac 5).setWidth 32 <<< 8) ||| qSlotLive

section

variable {m n : Mac} {i k : Nat}

theorem macByte_bit (m : Mac) (i k : Nat) :
    (macByte m i).getLsbD k = (decide (k < 8) && m.getLsbD (40 - 8 * i + k)) := by
  unfold macByte
  rw [BitVec.getLsbD_setWidth, BitVec.getLsbD_ushiftRight]

theorem macLo_bit (hi : i < 4) (hk : k < 8) :
    (macLo m).getLsbD (8 * i + k) = (macByte m i).getLsbD k := by
  unfold macLo
  simp only [BitVec.getLsbD_or, BitVec.getLsbD_shiftLeft, BitVec.getLsbD_setWidth, macByte_bit]
  interval_cases i <;> grind

theorem macHi_bit (hi : i < 2) (hk : k < 8) :
    (macHi m).getLsbD (8 * i + k) = (macByte m (4 + i)).getLsbD k := by
  -- the live bit is above the sixteen that carry address
  have hlive : qSlotLive.getLsbD (8 * i + k) = false := by
    have hlow : 8 * i + k < 16 := by omega
    generalize 8 * i + k = j at hlow
    interval_cases j <;> rfl
  unfold macHi
  rw [BitVec.getLsbD_or, hlive]
  simp only [BitVec.getLsbD_or, BitVec.getLsbD_shiftLeft, BitVec.getLsbD_setWidth, macByte_bit]
  interval_cases i <;> grind

theorem mac_ext (h : ∀ i < 6, macByte m i = macByte n i) : m = n := by
  apply BitVec.eq_of_getLsbD_eq
  intro j hj
  have hbit := congrArg (fun b => b.getLsbD (j % 8)) (h (5 - j / 8) (by omega))
  have hk : j % 8 < 8 := Nat.mod_lt j (by decide)
  have hpos : 40 - 8 * (5 - j / 8) + j % 8 = j := by omega
  rw [macByte_bit, macByte_bit, hpos, decide_eq_true hk, Bool.true_and, Bool.true_and] at hbit
  exact hbit

/-- **The two words are of one MAC.** -/
theorem mac_of_words (hlo : macLo m = macLo n) (hhi : macHi m = macHi n) : m = n := by
  refine mac_ext fun i hi => BitVec.eq_of_getLsbD_eq fun k hk => ?_
  by_cases h : i < 4
  · rw [← macLo_bit h hk, ← macLo_bit h hk, hlo]
  · obtain ⟨i, rfl⟩ := Nat.exists_eq_add_of_le (Nat.not_lt.mp h)
    rw [← macHi_bit (by omega) hk, ← macHi_bit (by omega) hk, hhi]

/-- A slot that is in use does not look like one that is not. -/
theorem macHi_ne_zero (m : Mac) : macHi m ≠ 0 := by
  intro h
  have hbit := congrArg (fun x => x.getLsbD 31) h
  simp [macHi, qSlotLive] at hbit

end

/-! ## The table -/

abbrev QSlot := Fin quarantineMax

/-- `s_q_any` and the words of `s_q`. -/
inductive QWord where
  | any
  | lo (i : QSlot)
  | hi (i : QSlot)
deriving DecidableEq

/-- The set `quarantine_publish` publishes of the MACs it is called with. -/
def publishedSet (macs : List Mac) : List Mac := macs.take quarantineMax

/-- What the words come to. -/
def quarantineWord (macs : List Mac) : QWord → BitVec 32
  | .any => if 0 < (publishedSet macs).length then 1 else 0
  | .lo i => match (publishedSet macs)[i.val]? with
    | some mac => macLo mac
    | none => 0
  | .hi i => match (publishedSet macs)[i.val]? with
    | some mac => macHi mac
    | none => 0

def slotWords : List QWord := (List.finRange quarantineMax).flatMap fun i => [.lo i, .hi i]

/-- `s_q_any = 1`, before the rewrite. -/
def raiseAny (macs : List Mac) : List (QWord × BitVec 32) :=
  if 0 < (publishedSet macs).length then [(.any, 1)] else []

/-- The loop between the two bumps. -/
def rewriteSlots (macs : List Mac) : List (QWord × BitVec 32) :=
  slotWords.map fun f => (f, quarantineWord macs f)

/-- `s_q_any = 0`, after it. -/
def lowerAny (macs : List Mac) : List (QWord × BitVec 32) :=
  if (publishedSet macs).length = 0 then [(.any, 0)] else []

abbrev QReads := Reads (Cell QWord) (BitVec 32) Bool

/-- The compare loop, and the check a hit is worth nothing without. -/
def scanSlots (lo hi gen : BitVec 32) : List QSlot → QReads
  | [] => .done false
  | i :: is =>
    .read (.word (.lo i)) fun x =>
      if x = lo then
        .read (.word (.hi i)) fun y =>
          if y = hi then .read .gen fun g => .done (g == gen)
          else scanSlots lo hi gen is
      else scanSlots lo hi gen is

/-- `mac_is_quarantined`. -/
def macIsQuarantined (mac : Mac) : QReads :=
  .read (.word .any) fun any =>
    if any = 0 then .done false
    else .read .gen fun gen =>
      if gen &&& 1 ≠ 0 then .done false
      else scanSlots (macLo mac) (macHi mac) gen (List.finRange quarantineMax)

section

variable {macs : List Mac} {mac : Mac} {lo hi gen : BitVec 32} {is : List QSlot}
  {m : Cell QWord → BitVec 32} {xs : List (Cell QWord × BitVec 32)}

theorem mem_slotWords (f : QWord) : f ∈ slotWords ↔ f ≠ .any := by
  cases f <;> simp [slotWords]

theorem rewriteSlots_word (m : QWord → BitVec 32) (f : QWord) :
    writeAll (rewriteSlots macs) m f = if f = .any then m f else quarantineWord macs f := by
  unfold rewriteSlots
  rw [writeAll_map]
  by_cases hf : f = .any
  · rw [if_neg fun h => (mem_slotWords f).mp h hf, if_pos hf]
  · rw [if_pos ((mem_slotWords f).mpr hf), if_neg hf]

/-- A publish writes every word, and `s_q_any` on the side that errs towards the full check. -/
theorem publish_complete (macs : List Mac) (m : QWord → BitVec 32) :
    writeAll (raiseAny macs ++ (rewriteSlots macs ++ lowerAny macs)) m = quarantineWord macs := by
  funext f
  rw [writeAll_append, writeAll_append]
  unfold raiseAny lowerAny
  by_cases h : 0 < (publishedSet macs).length
  · rw [if_pos h, if_neg (Nat.pos_iff_ne_zero.mp h)]
    show writeAll (rewriteSlots macs) (Function.update m .any 1) f = _
    rw [rewriteSlots_word]
    split
    · rename_i hf
      rw [hf, Function.update_self]
      exact (if_pos h).symm
    · rfl
  · rw [if_neg h, if_pos (Nat.eq_zero_of_not_pos h)]
    show Function.update (writeAll (rewriteSlots macs) m) .any 0 f = _
    by_cases hf : f = .any
    · rw [hf, Function.update_self]
      exact (if_neg h).symm
    · rw [Function.update_of_ne hf, rewriteSlots_word, if_neg hf]

/-- `s_q`, `s_q_gen` and `s_q_any`, and the two functions that touch them. -/
def sQ : Layout (List Mac) QWord 32 Mac Bool where
  field := quarantineWord
  guarded f := f != .any
  before := raiseAny
  inside := rewriteSlots
  after := lowerAny
  reads := macIsQuarantined
  rewrites macs m f hf := by
    rw [rewriteSlots_word, if_neg (bne_iff_ne.mp hf)]
  complete := publish_complete
  spares macs p hp := by
    have hany : p.1 = .any := by
      rcases List.mem_append.mp hp with hp | hp
      · unfold raiseAny at hp
        split at hp
        · rw [List.mem_singleton.mp hp]
        · exact absurd hp List.not_mem_nil
      · unfold lowerAny at hp
        split at hp
        · rw [List.mem_singleton.mp hp]
        · exact absurd hp List.not_mem_nil
    rw [hany]
    rfl

/-! ## What a hit has read -/

theorem scanSlots_leads (h : (scanSlots lo hi gen is).Leads xs (.done true)) :
    ∃ i ys, xs = ys ++ [(.word (.lo i), lo), (.word (.hi i), hi), (.gen, gen)] := by
  -- slot by slot; what is read of a slot that does not match goes in front
  induction is generalizing xs with
  | nil => exact absurd h.of_done.2 Bool.false_ne_true
  | cons i is ih =>
    obtain ⟨x, xs, rfl, hx⟩ := h.of_read
    split at hx
    · rename_i hlo
      obtain ⟨y, xs, rfl, hy⟩ := hx.of_read
      split at hy
      · rename_i hhi
        obtain ⟨g, xs, rfl, hg⟩ := hy.of_read
        obtain ⟨rfl, hgen⟩ := hg.of_done
        refine ⟨i, [], ?_⟩
        rw [hlo, hhi, eq_of_beq hgen]
        rfl
      · obtain ⟨j, ys, rfl⟩ := ih hy
        exact ⟨j, _ :: _ :: ys, rfl⟩
    · obtain ⟨j, ys, rfl⟩ := ih hx
      exact ⟨j, _ :: ys, rfl⟩

theorem even_gen : gen &&& 1 = 0 ↔ gen.toNat % 2 = 0 := by
  rw [← BitVec.toNat_inj, BitVec.toNat_and]
  show gen.toNat &&& 1 = 0 ↔ _
  rw [Nat.and_one_is_mod]

/-- A call that answers yes has read an even generation, then two matching words of one slot,
    and then the same generation. -/
theorem macIsQuarantined_leads (h : (macIsQuarantined mac).Leads xs (.done true)) :
    ∃ any gen i ys, gen.toNat % 2 = 0 ∧ xs = (.word .any, any) :: (.gen, gen) ::
      (ys ++ [(.word (.lo i), macLo mac), (.word (.hi i), macHi mac), (.gen, gen)]) := by
  obtain ⟨any, xs, rfl, hany⟩ := h.of_read
  split at hany
  · exact absurd hany.of_done.2 Bool.false_ne_true
  · obtain ⟨gen, xs, rfl, hgen⟩ := hany.of_read
    split at hgen
    · exact absurd hgen.of_done.2 Bool.false_ne_true
    · rename_i heven
      obtain ⟨i, ys, rfl⟩ := scanSlots_leads hgen
      exact ⟨any, gen, i, ys, even_gen.mp (not_not.mp heven), rfl⟩

/-- A slot that matches is the MAC's. -/
theorem slot_matches {i : QSlot} (hlo : quarantineWord macs (.lo i) = macLo mac)
    (hhi : quarantineWord macs (.hi i) = macHi mac) : mac ∈ publishedSet macs := by
  unfold quarantineWord at hlo hhi
  dsimp only at hlo hhi
  cases h : (publishedSet macs)[i.val]? with
  | none =>
    rw [h] at hhi
    exact absurd hhi.symm (macHi_ne_zero mac)
  | some mac' =>
    rw [h] at hlo hhi
    obtain rfl := mac_of_words hlo hhi
    exact List.mem_of_getElem? h

theorem mem_publishedSet : mac ∈ publishedSet macs ↔ ∃ i : QSlot,
    quarantineWord macs (.lo i) = macLo mac ∧ quarantineWord macs (.hi i) = macHi mac := by
  constructor
  · intro h
    obtain ⟨k, hk⟩ := List.getElem?_of_mem h
    have hlen : k < (publishedSet macs).length := (List.getElem?_eq_some_iff.mp hk).1
    have hslot : k < quarantineMax := Nat.lt_of_lt_of_le hlen (List.length_take_le _ _)
    refine ⟨⟨k, hslot⟩, ?_, ?_⟩
    · simp only [quarantineWord, hk]
    · simp only [quarantineWord, hk]
  · rintro ⟨i, hlo, hhi⟩
    exact slot_matches hlo hhi

/-! ## An answer on a table at rest -/

theorem scanSlots_eval (hgen : m .gen = gen) :
    (scanSlots lo hi gen is).eval m = true ↔
      ∃ i ∈ is, m (.word (.lo i)) = lo ∧ m (.word (.hi i)) = hi := by
  induction is with
  | nil => simp [scanSlots]
  | cons i is ih =>
    rw [List.exists_mem_cons_iff, ← ih, scanSlots, Reads.eval_read]
    by_cases hlo : m (.word (.lo i)) = lo
    · rw [if_pos hlo, Reads.eval_read]
      by_cases hhi : m (.word (.hi i)) = hi
      · rw [if_pos hhi, Reads.eval_read, Reads.eval_done, hgen]
        exact iff_of_true (beq_self_eq_true gen) (.inl ⟨hlo, hhi⟩)
      · rw [if_neg hhi]
        exact (or_iff_right fun h => hhi h.2).symm
    · rw [if_neg hlo]
      exact (or_iff_right fun h => hlo h.1).symm

/-- On a table at rest the call answers for the set that is in it. -/
theorem macIsQuarantined_eval (s : State (List Mac) QWord 32 Mac Bool) (v : Nat) :
    (macIsQuarantined mac).eval (sQ.quiet s v) = true ↔ mac ∈ publishedSet (s.published v) := by
  have hgen : sQ.quiet s v .gen &&& 1 = 0 := by
    rw [even_gen]
    show (BitVec.ofNat 32 (2 * v)).toNat % 2 = 0
    rw [BitVec.toNat_ofNat]
    omega
  have hany : sQ.quiet s v (.word .any) =
      if 0 < (publishedSet (s.published v)).length then 1 else 0 := rfl
  unfold macIsQuarantined
  rw [Reads.eval_read, hany]
  by_cases hempty : 0 < (publishedSet (s.published v)).length
  · rw [if_pos hempty, if_neg (by decide), Reads.eval_read, if_neg (not_not.mpr hgen),
      scanSlots_eval rfl, mem_publishedSet]
    exact exists_congr fun i => and_iff_right (List.mem_finRange i)
  · rw [if_neg hempty, if_pos rfl, Reads.eval_done]
    refine iff_of_false Bool.false_ne_true fun hmem => hempty (List.length_pos_of_mem hmem)

/-! ## How long a call takes -/

theorem scanSlots_within : (scanSlots lo hi gen is).Within (2 * is.length + 1) := by
  induction is with
  | nil => trivial
  | cons i is ih =>
    intro x
    dsimp only
    split
    · intro y
      dsimp only
      split
      · exact fun _ => Reads.within_done _ _
      · exact ih
    · exact ih.succ

theorem macIsQuarantined_within (mac : Mac) : (macIsQuarantined mac).Within 11 := by
  intro any
  dsimp only
  split
  · trivial
  · intro gen
    dsimp only
    split
    · trivial
    · have hscan : (scanSlots (macLo mac) (macHi mac) gen (List.finRange quarantineMax)).Within
          (2 * (List.finRange quarantineMax).length + 1) := scanSlots_within
      rw [List.length_finRange] at hscan
      exact hscan

end

/-! ## Every interleaving -/

abbrev QState := State (List Mac) QWord 32 Mac Bool

/-- All that a call read of the table it read of the published set `v`, while the table was
    complete and held that set. -/
def ReadOf (s : QState) (c : ReadCall QWord 32 Mac Bool) (v : Nat) : Prop :=
  ∀ x ∈ c.log, x.cell ≠ .word .any → x.bumps = 2 * v ∧
    ∀ f, x.cell = .word f → x.value = quarantineWord (s.published v) f

/-- What the answer of a call is worth. -/
structure AnswerOk (s : QState) (c : ReadCall QWord 32 Mac Bool) (answer : Bool) : Prop where
  /-- nobody is cut off who is not in a set that was published -/
  member : answer = true → c.overlaps < 2 ^ 31 →
    ∃ v ≤ s.latest, ReadOf s c v ∧ c.call ∈ publishedSet (s.published v)
  /-- and with no publish in progress it is the last one -/
  exact : c.overlaps = 0 → (answer = true ↔ c.call ∈ publishedSet (s.published c.base))

/-- A yes that too few publishes overlapped for the generation to come round is of one set. -/
theorem answer_member {s : QState} {c : ReadCall QWord 32 Mac Bool} (h : sQ.Ok s)
    (hc : s.reader = some c) (hyes : c.rest = .done true) (hfew : c.overlaps < 2 ^ 31) :
    ∃ v ≤ s.latest, ReadOf s c v ∧ c.call ∈ publishedSet (s.published v) := by
  have hleads := (h.reader c hc).leads
  rw [hyes] at hleads
  obtain ⟨any, gen, i, ys, heven, hlog⟩ := macIsQuarantined_leads hleads
  -- the looks behind those answers
  obtain ⟨xany, log, hlog₁, hany, hlog⟩ := List.map_eq_cons_iff.mp hlog
  obtain ⟨a, log, hlog₂, ha, hlog⟩ := List.map_eq_cons_iff.mp hlog
  obtain ⟨mid, last, rfl, hmid, hlast⟩ := List.map_eq_append_iff.mp hlog
  obtain ⟨xlo, last, rfl, hlo, hlast⟩ := List.map_eq_cons_iff.mp hlast
  obtain ⟨xhi, last, rfl, hhi, hlast⟩ := List.map_eq_cons_iff.mp hlast
  obtain ⟨b, last, rfl, hb, hlast⟩ := List.map_eq_cons_iff.mp hlast
  obtain rfl := List.map_eq_nil_iff.mp hlast
  obtain ⟨hacell, haval⟩ := Prod.mk.inj ha
  obtain ⟨hbcell, hbval⟩ := Prod.mk.inj hb
  obtain ⟨hlocell, hloval⟩ := Prod.mk.inj hlo
  obtain ⟨hhicell, hhival⟩ := Prod.mk.inj hhi
  have hcut : c.log = [xany] ++ a :: ((mid ++ [xlo, xhi]) ++ b :: []) := by
    rw [hlog₁, hlog₂]
    simp
  obtain ⟨v, hv, hread⟩ := h.validated hc hcut hacell hbcell (haval.trans hbval.symm) (by decide)
    (by rw [haval]; exact heven) (by omega)
  have hall : ReadOf s c v := by
    intro x hx hne
    rw [hcut] at hx
    rcases List.mem_cons.mp hx with rfl | hx
    · exact absurd (congrArg Prod.fst hany) hne
    · obtain ⟨hbumps, hvalue⟩ := hread x hx
      refine ⟨hbumps, fun f hf => hvalue f hf (bne_iff_ne.mpr ?_)⟩
      rintro rfl
      exact hne hf
  have hloin : xlo ∈ a :: ((mid ++ [xlo, xhi]) ++ [b]) := by simp
  have hhiin : xhi ∈ a :: ((mid ++ [xlo, xhi]) ++ [b]) := by simp
  have hloword := (hread xlo hloin).2 (.lo i) hlocell rfl
  have hhiword := (hread xhi hhiin).2 (.hi i) hhicell rfl
  exact ⟨v, hv, hall, slot_matches (hloword.symm.trans hloval) (hhiword.symm.trans hhival)⟩

/-- **The quarantine never cuts off the wrong device**, whatever the interleaving of the
    writer's words and the reader's, and a call is answered within eleven reads. -/
theorem mac_is_quarantined_answers (es : List (Seqlock.Event (List Mac) Mac)) :
    let now := es.foldl sQ.step (sQ.start [])
    ∀ c, now.reader = some c →
      (∀ answer, c.rest = .done answer → AnswerOk now c answer) ∧
        c.log.length ≤ 11 ∧ (c.log.length = 11 → ∃ answer, c.rest = .done answer) := by
  intro now c hc
  have hnow : sQ.Ok now := sQ.run_ok [] es
  obtain ⟨left, hleft, hwithin⟩ :=
    (macIsQuarantined_within c.call).leads (hnow.reader c hc).leads
  rw [List.length_map] at hleft
  refine ⟨fun answer hdone => ⟨?_, fun h0 => ?_⟩, by omega, fun hfull => ?_⟩
  · rintro rfl hfew
    exact answer_member hnow hc hdone hfew
  · rw [hnow.quiet_call hc hdone h0]
    exact macIsQuarantined_eval now c.base
  · obtain rfl : left = 0 := by omega
    cases hrest : c.rest with
    | done answer => exact ⟨answer, rfl⟩
    | read f k =>
      rw [hrest] at hwithin
      exact hwithin.elim

/-- One MAC is published, and looked up while the next publish has begun. -/
def lookedUpOnce (mac : Mac) : List (Seqlock.Event (List Mac) Mac) :=
  .begin [mac] :: List.replicate 12 .write ++ [.call mac, .read, .begin [], .read, .read, .read, .read]

theorem mac_is_quarantined_answers_once :
    let now := (lookedUpOnce 0x123456789A).foldl sQ.step (sQ.start [])
    ∃ c, now.reader = some c ∧ c.overlaps = 1 ∧ c.rest = .done true ∧ AnswerOk now c true := by
  intro now
  have hread : now.reader.map (fun c => (c.overlaps, c.rest.eval fun _ => 0, c.rest.isOpen)) =
      some (1, true, false) := by decide +kernel
  obtain ⟨c, hc, hfields⟩ := Option.map_eq_some_iff.mp hread
  obtain ⟨hone, hfields⟩ := Prod.mk.inj hfields
  obtain ⟨hyes, hclosed⟩ := Prod.mk.inj hfields
  have hdone : c.rest = .done true := by
    cases hrest : c.rest with
    | done answer =>
      rw [hrest] at hyes
      exact congrArg Reads.done hyes
    | read f k =>
      rw [hrest] at hclosed
      exact Bool.noConfusion hclosed
  exact ⟨c, hc, hone, hdone, (mac_is_quarantined_answers _ c hc).1 true hdone⟩

end Track
end Wt32Router
