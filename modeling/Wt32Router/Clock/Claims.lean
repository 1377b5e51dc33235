import Wt32Router.Clock.Dating

/-!
# What the device says about its clock

`clock_time_now`, `clock_time_stale` and `clock_time_source`, which every surface asks before it
shows a time.

> **`clock_claims`**: while no reset lands in the middle of a sync, they say what there is to say
> of the clock: there is a time exactly if it has been set since power-on, it is stale exactly if
> that was more than a day ago, and it is carried exactly if it was not in this boot.

> **`boot_dated`**: wherever resets land, a boot that has had a sync has its record dated behind
> the next tick, and no tick after that writes to flash.
-/

namespace Wt32Router
namespace Clock

open Lib (Along watch)
open Reset (BootEnv Device Entry SaveResult fBootTime hasFlag loadFromNvs pushRecord)

/-- The seconds of the clock have 63 bits. -/
def Clocked.InRange (s : Clocked) : Prop := s.wall < 9223372036854775808 * 1000000

/-- No reset lands in the middle of a sync, servers tell a time after 1970, and no block that
    passes for one a sync has written comes up from a power cycle. -/
def Uncut (_ : Clocked × Truth) : Event → Prop
  | .sync wall => 0 ≤ wall
  | .cutSync _ _ _ => False
  | .powerCycle _ clk _ _ => clk.isSynced = false
  | _ => True

instance (s : Clocked × Truth) : ∀ e, Decidable (Uncut s e)
  | .sync _ => inferInstanceAs (Decidable (_ ≤ _))
  | .cutSync _ _ _ => isFalse id
  | .powerCycle _ _ _ _ => inferInstanceAs (Decidable (_ = _))
  | .pass _ | .resetLogInit _ _ | .clockTimeInit | .clockTimeTick _ | .wanUp _ | .wanDown
  | .tickCb | .noteIntent _ | .noteReady | .checkpointTick _ | .cutInit _ _ | .warmReset _ =>
      isTrue trivial

instance (s : Clocked) : Decidable s.InRange := inferInstanceAs (Decidable (_ < _))

/-- The block is that of the last sync since power-on, which the clock is not behind. -/
structure Kept (s : Clocked × Truth) : Prop where
  synced : s.1.rtc.isSynced = s.2.synced.isSome
  last : ∀ w ∈ s.2.synced, s.1.rtc.lastSync = timeT w ∧ 0 ≤ w ∧ w ≤ s.1.wall

section

variable {s : Clocked} {t : Truth} {e : Event} {w : Int}

/-! ## Times -/

theorem timeT_toInt {us : Int} (hpos : 0 ≤ us) (hlt : us < 9223372036854775808 * 1000000) :
    (timeT us).toInt = us / 1000000 := by
  unfold timeT
  rw [BitVec.toInt_ofInt]
  exact Int.bmod_eq_of_le (by omega) (by omega)

/-- A clock that is not behind its last sync is believed. -/
theorem now_of_last (hsynced : s.rtc.isSynced = true) (hlast : s.rtc.lastSync = timeT w)
    (hpos : 0 ≤ w) (hle : w ≤ s.wall) (hrange : s.InRange) : s.now = some (timeT s.wall) := by
  have hlt : s.wall < 9223372036854775808 * 1000000 := hrange
  have hbehind : (timeT s.wall).slt (timeT w) = false := by
    rw [BitVec.slt_eq_decide, timeT_toInt (Int.le_trans hpos hle) hlt,
      timeT_toInt hpos (Int.lt_of_le_of_lt hle hlt)]
    exact decide_eq_false (by omega)
  unfold Clocked.now
  rw [hsynced, hlast]
  dsimp only
  rw [hbehind]
  simp

/-! ## The block -/

/-- A step that leaves the block, with the clock where it was or further on. -/
theorem Kept.frame (h : Kept (s, t)) {s' : Clocked} {t' : Truth} (hrtc : s'.rtc = s.rtc)
    (hwall : s.wall ≤ s'.wall) (hsynced : t'.synced = t.synced) : Kept (s', t') := by
  refine ⟨?_, fun w hw => ?_⟩
  · show s'.rtc.isSynced = t'.synced.isSome
    rw [hrtc, hsynced]
    exact h.synced
  · obtain ⟨hlast, hpos, hle⟩ := h.last w (hsynced ▸ hw)
    refine ⟨?_, hpos, Int.le_trans hle hwall⟩
    show s'.rtc.lastSync = timeT w
    rw [hrtc]
    exact hlast

/-- An initialised block is as good as it was, and with it the clock it goes with. -/
theorem Kept.initCut (h : Kept (s, t)) (stores : Nat) {s' : Clocked} {t' : Truth}
    (hrtc : s'.rtc = s.rtc.initCut stores) (hwall : s.wall ≤ s'.wall)
    (hsynced : t'.synced = t.synced) : Kept (s', t') := by
  cases hmade : (s.rtc.initCut stores).isSynced with
  | true => exact h.frame (hrtc.trans (initCut_isSynced s.rtc stores hmade)) hwall hsynced
  | false =>
    have hnone : t.synced.isSome = false := by
      cases hsome : t.synced.isSome with
      | false => rfl
      | true =>
        -- a good block is left as it is
        have hgood : s.rtc.isSynced = true := h.synced.trans hsome
        have hvalid : s.rtc.valid = true := (Bool.and_eq_true_iff.mp hgood).1
        rw [Rtc.initCut, if_pos hvalid] at hmade
        exact absurd (hmade.symm.trans hgood) Bool.false_ne_true
    have hnone' : t'.synced = none :=
      hsynced.trans (Option.isNone_iff_eq_none.mp (Option.isSome_eq_false_iff.mp hnone))
    refine ⟨?_, fun w hw => ?_⟩
    · show s'.rtc.isSynced = t'.synced.isSome
      rw [hrtc, hmade, hnone']
      rfl
    · have hw : w ∈ t'.synced := hw
      rw [hnone'] at hw
      exact absurd hw (by simp)

theorem tick_frame (s : Clocked) (res : SaveResult) :
    (s.tick res).rtc = s.rtc ∧ (s.tick res).wall = s.wall ∧
      (s.tick res).syncedThisBoot = s.syncedThisBoot := by
  unfold Clocked.tick
  dsimp only
  split <;> exact ⟨rfl, rfl, rfl⟩

theorem wanUp_frame (s : Clocked) (ok : Bool) :
    (s.wanUp ok).rtc = s.rtc ∧ (s.wanUp ok).wall = s.wall ∧
      (s.wanUp ok).syncedThisBoot = s.syncedThisBoot ∧ (s.wanUp ok).dev = s.dev ∧
      (s.wanUp ok).backfilled = s.backfilled := by
  unfold Clocked.wanUp
  split <;> exact ⟨rfl, rfl, rfl, rfl, rfl⟩

theorem Kept.step (h : Kept (s, t)) (huncut : Uncut (s, t) e) :
    Kept (watch Clocked.step truth (s, t) e) := by
  have hlater : ∀ us : Nat, s.wall ≤ s.wall + us := fun us => by omega
  cases e with
  | pass us => exact h.frame rfl (hlater us) rfl
  | resetLogInit env res =>
    refine h.frame rfl (Int.le_refl _) ?_
    show (if s.dev.started then t else _).synced = t.synced
    split <;> rfl
  | clockTimeInit => exact h.initCut 5 rfl (Int.le_refl _) rfl
  | sync wall =>
    obtain ⟨hsynced, hlast⟩ := cut_all s.rtc (timeT wall)
    refine ⟨hsynced, fun w hw => ?_⟩
    obtain rfl := Option.some.inj hw
    exact ⟨hlast, huncut, Int.le_refl _⟩
  | clockTimeTick res =>
    obtain ⟨hrtc, hwall, -⟩ := tick_frame s res
    refine h.frame hrtc (Int.le_of_eq hwall.symm) ?_
    show (if (s.tick res).dev.nvs = s.dev.nvs then t else _).synced = t.synced
    split <;> rfl
  | wanUp ok =>
    obtain ⟨hrtc, hwall, -⟩ := wanUp_frame s ok
    exact h.frame hrtc (Int.le_of_eq hwall.symm) rfl
  | wanDown => exact h.frame rfl (Int.le_refl _) rfl
  | tickCb => exact h.frame rfl (Int.le_refl _) rfl
  | noteIntent intent => exact h.frame rfl (Int.le_refl _) rfl
  | noteReady => exact h.frame rfl (Int.le_refl _) rfl
  | checkpointTick res => exact h.frame rfl (Int.le_refl _) rfl
  | cutInit stores us => exact h.initCut stores rfl (hlater us) rfl
  | cutSync wall stores us => exact huncut.elim
  | warmReset us => exact h.frame rfl (hlater us) rfl
  | powerCycle rtc clk wall us =>
    have hclk : clk.isSynced = false := huncut
    exact ⟨hclk, fun w hw => absurd hw (by simp [watch, truth])⟩

/-- **What the clock's three questions are answered with.** -/
structure ClockClaims (s : Clocked) (synced : Option Int) : Prop where
  now : s.now = synced.map fun _ => timeT s.wall
  stale : s.stale = true ↔ ∃ w ∈ synced, 1000000 ≤ w ∧
    clockStaleAfterS < s.wall / 1000000 - w / 1000000
  source : s.source =
    if synced.isNone then .none else if s.syncedThisBoot then .ntp else .carried

theorem Kept.claims (h : Kept (s, t)) (hrange : s.InRange) : ClockClaims s t.synced := by
  cases hsynced : t.synced with
  | none =>
    have hblock : s.rtc.isSynced = false := by
      have := h.synced
      dsimp only at this
      rw [this, hsynced]
      rfl
    have hnow : s.now = none := by
      unfold Clocked.now
      rw [hblock]
      rfl
    refine ⟨hnow, ?_, ?_⟩
    · unfold Clocked.stale
      rw [hnow]
      simp
    · unfold Clocked.source
      rw [hblock]
      rfl
  | some w =>
    have hblock : s.rtc.isSynced = true := by
      have := h.synced
      dsimp only at this
      rw [this, hsynced]
      rfl
    obtain ⟨hlast, hpos, hle⟩ := h.last w hsynced
    dsimp only at hlast hle
    have hlt : s.wall < 9223372036854775808 * 1000000 := hrange
    have hnow := now_of_last hblock hlast hpos hle hrange
    refine ⟨hnow, ?_, ?_⟩
    · -- both times have 63 bits, and so has their difference
      have hsub : (timeT s.wall - timeT w).toInt = s.wall / 1000000 - w / 1000000 := by
        rw [BitVec.toInt_sub, timeT_toInt (Int.le_trans hpos hle) hlt,
          timeT_toInt hpos (Int.lt_of_le_of_lt hle hlt)]
        exact Int.bmod_eq_of_le (by omega) (by omega)
      have hzero : timeT w ≠ 0 ↔ 1000000 ≤ w := by
        have htoInt := timeT_toInt hpos (Int.lt_of_le_of_lt hle hlt)
        rw [ne_eq, ← BitVec.toInt_inj, htoInt]
        show ¬w / 1000000 = 0 ↔ _
        omega
      unfold Clocked.stale
      rw [hnow, hlast]
      dsimp only
      rw [Bool.and_eq_true, bne_iff_ne, decide_eq_true_iff, hsub, hzero]
      simp
    · unfold Clocked.source
      rw [hblock]
      rfl

/-- A sync, a crash, and two days without a server. -/
def twoDays : List Event :=
  [.clockTimeInit, .pass 5000000, .sync 1700000000000000, .warmReset 800000, .clockTimeInit,
    .pass 172800000000]

/-- The last record has a date. -/
def Stamped (dev : Device) : Prop :=
  ∃ last ∈ dev.ring.getLast?, hasFlag last.flags fBootTime = true

/-- The clock's seconds have 63 bits, and servers tell a time after 1970. -/
def Timely (s : Clocked) : Event → Prop
  | .sync wall => s.InRange ∧ 0 ≤ wall
  | _ => s.InRange

instance (s : Clocked) : ∀ e, Decidable (Timely s e)
  | .sync _ => inferInstanceAs (Decidable (_ ∧ _))
  | .cutSync _ _ _ | .powerCycle _ _ _ _ | .pass _ | .resetLogInit _ _ | .clockTimeInit
  | .clockTimeTick _ | .wanUp _ | .wanDown | .tickCb | .noteIntent _ | .noteReady
  | .checkpointTick _ | .cutInit _ _ | .warmReset _ => inferInstanceAs (Decidable s.InRange)

/-- A tick of a boot that has had a sync leaves its record with a date; and one that comes behind
    such a tick leaves all as it is. -/
def BootDated (s : Clocked) : Event → Prop
  | .clockTimeTick res =>
      (s.syncedThisBoot = true → s.dev.started = true → Stamped (s.tick res).dev) ∧
        (s.backfilled = true → (s.tick res).dev = s.dev)
  | _ => True

/-- A boot that has had a sync has a clock, one that has noted the time a record with a date, and
    one that has begun a record. -/
structure Settling (s : Clocked) : Prop where
  last : s.syncedThisBoot = true →
    s.rtc.isSynced = true ∧ ∃ w, s.rtc.lastSync = timeT w ∧ 0 ≤ w ∧ w ≤ s.wall
  noted : s.backfilled = true →
    s.syncedThisBoot = true ∧ (s.dev.started = true → Stamped s.dev)
  current : s.dev.started = true → s.dev.haveCurrent = true ∧ s.dev.ring ≠ []

theorem Settling.now (h : Settling s) (hsynced : s.syncedThisBoot = true) (hrange : s.InRange) :
    s.now = some (timeT s.wall) := by
  obtain ⟨hblock, w, hlast, hpos, hle⟩ := h.last hsynced
  exact now_of_last hblock hlast hpos hle hrange

/-- A step that leaves the block, the ring and what this boot has done, with the clock where it
    was or further on. -/
theorem Settling.frame (h : Settling s) {s' : Clocked} (hrtc : s'.rtc = s.rtc)
    (hwall : s.wall ≤ s'.wall) (hsynced : s'.syncedThisBoot = s.syncedThisBoot)
    (hnoted : s'.backfilled = s.backfilled) (hstarted : s'.dev.started = s.dev.started)
    (hcur : s'.dev.haveCurrent = s.dev.haveCurrent) (hring : s'.dev.ring = s.dev.ring) :
    Settling s' := by
  refine ⟨fun hs => ?_, fun hs => ?_, fun hs => ?_⟩
  · obtain ⟨hblock, w, hlast, hpos, hle⟩ := h.last (hsynced ▸ hs)
    exact ⟨hrtc ▸ hblock, w, hrtc ▸ hlast, hpos, Int.le_trans hle hwall⟩
  · obtain ⟨hthis, hstamped⟩ := h.noted (hnoted ▸ hs)
    refine ⟨hsynced.trans hthis, fun hs => ?_⟩
    unfold Stamped
    rw [hring]
    exact hstamped (hstarted ▸ hs)
  · rw [hcur, hring]
    exact h.current (hstarted ▸ hs)

/-- A boot that ends leaves nothing undone. -/
theorem reboot_settling (s : Clocked) (rtc : Reset.Rtc) (clk : Rtc) (wall : Int) :
    Settling (s.reboot rtc clk wall) :=
  ⟨fun hs => absurd hs Bool.false_ne_true, fun hs => absurd hs Bool.false_ne_true,
    fun hs => absurd hs Bool.false_ne_true⟩

/-- `reset_log_note_time` leaves the newest record with a date. -/
theorem noteTime_stamped {dev : Device} (hstarted : dev.started = true)
    (hcur : dev.haveCurrent = true) (hring : dev.ring ≠ []) (epoch : BitVec 64)
    (res : SaveResult) : Stamped (dev.noteTime epoch res) := by
  obtain ⟨older, last, hlast⟩ := (List.eq_nil_or_concat dev.ring).resolve_left hring
  rw [List.concat_eq_append] at hlast
  rw [Reset.noteTime_last hlast, hstarted, hcur]
  cases hflag : hasFlag last.flags fBootTime with
  | true =>
    refine ⟨last, ?_, hflag⟩
    show dev.ring.getLast? = some last
    rw [hlast, List.getLast?_concat]
  | false =>
    refine ⟨last.stamp epoch, ?_, Reset.hasFlag_stamp⟩
    show (older ++ [last.stamp epoch]).getLast? = _
    rw [List.getLast?_concat]

theorem noteTime_statics (dev : Device) (epoch : BitVec 64) (res : SaveResult) :
    (dev.noteTime epoch res).started = dev.started ∧
      (dev.noteTime epoch res).haveCurrent = dev.haveCurrent := by
  rcases noteTime_cases dev epoch res with h | ⟨older, last, -, -, h⟩ <;> rw [h] <;>
    exact ⟨rfl, rfl⟩

/-- What a tick does with the record: nothing, once it has or while there was no sync, and else
    it notes the time. -/
theorem tick_dev (h : Settling s) (hrange : s.InRange) (res : SaveResult) :
    (s.backfilled = true ∨ s.syncedThisBoot = false) ∧ (s.tick res).dev = s.dev ∧
        (s.tick res).backfilled = s.backfilled ∨
      s.backfilled = false ∧ s.syncedThisBoot = true ∧ (s.tick res).backfilled = true ∧
        ∃ epoch, (s.tick res).dev = s.dev.noteTime epoch res := by
  cases hepoch : s.bootStartedAt with
  | none =>
    rw [tick_none hepoch]
    refine .inl ⟨?_, rfl, rfl⟩
    by_contra hdue
    obtain ⟨hnoted, hsynced⟩ := not_or.mp hdue
    have hsynced : s.syncedThisBoot = true := Bool.eq_true_of_not_eq_false hsynced
    rw [Clocked.bootStartedAt, Bool.eq_false_of_not_eq_true hnoted, hsynced, h.now hsynced hrange]
      at hepoch
    exact absurd hepoch (by simp)
  | some epoch =>
    obtain ⟨hnoted, hsynced, -⟩ := bootStartedAt_some hepoch
    rw [tick_some hepoch]
    exact .inr ⟨hnoted, hsynced, rfl, epoch, rfl⟩

theorem Settling.tick (h : Settling s) (hrange : s.InRange) (res : SaveResult) :
    Settling (s.tick res) ∧ BootDated s (.clockTimeTick res) := by
  obtain ⟨hrtc, hwall, hthis⟩ := tick_frame s res
  rcases tick_dev h hrange res with ⟨hidle, hdev, hnoted⟩ |
    ⟨hbefore, hsynced, hnoted, epoch, hdev⟩
  · refine ⟨h.frame hrtc (Int.le_of_eq hwall.symm) hthis hnoted (by rw [hdev]) (by rw [hdev])
      (by rw [hdev]), fun hsynced hstarted => ?_, fun _ => hdev⟩
    rcases hidle with hdone | hnone
    · rw [hdev]
      exact (h.noted hdone).2 hstarted
    · exact absurd (hnone.symm.trans hsynced) Bool.false_ne_true
  · obtain ⟨hstarted, hcur⟩ := noteTime_statics s.dev epoch res
    have hstamped : s.dev.started = true → Stamped (s.tick res).dev := fun hs => by
      rw [hdev]
      exact noteTime_stamped hs (h.current hs).1 (h.current hs).2 epoch res
    refine ⟨⟨fun _ => ?_, fun _ => ⟨hthis.trans hsynced, fun hs => ?_⟩, fun hs => ?_⟩,
      fun _ => hstamped, fun hdone => ?_⟩
    · rw [hrtc, hwall]
      exact h.last hsynced
    · rw [hdev, hstarted] at hs
      exact hstamped hs
    · rw [hdev, hstarted] at hs
      refine ⟨by rw [hdev, hcur]; exact (h.current hs).1, fun hnil => ?_⟩
      obtain ⟨last, hlast, -⟩ := hstamped hs
      rw [hnil] at hlast
      exact absurd hlast (by simp)
    · exact absurd (hbefore.symm.trans hdone) Bool.false_ne_true

theorem Settling.resetLogInit (h : Settling s) (hrange : s.InRange) (env : BootEnv)
    (res : SaveResult) : Settling (s.step (.resetLogInit env res)) := by
  let env' := { env with now := s.now }
  show Settling { s with dev := if s.dev.started then s.dev else s.dev.init env' res }
  split
  · exact h
  refine ⟨h.last, fun hs => ⟨(h.noted hs).1, fun _ => ?_⟩, fun _ => ⟨rfl, ?_⟩⟩
  · -- the clock this boot has got dates the record at once
    have hnow := h.now (h.noted hs).1 hrange
    refine ⟨s.dev.newRecord env', ?_, ?_⟩
    · exact List.getLast?_concat
    · have hsome : env'.now.isSome = true := congrArg Option.isSome hnow
      exact (newRecord_bootTime s.dev env').trans hsome
  · exact List.concat_ne_nil _ _

theorem Settling.step (h : Settling s) (htimely : Timely s e) :
    BootDated s e ∧ Settling (s.step e) := by
  have hlater : ∀ us : Nat, s.wall ≤ s.wall + us := fun us => by omega
  have hrefl : s.wall ≤ s.wall := Int.le_refl _
  cases e with
  | pass us => exact ⟨trivial, h.frame rfl (hlater us) rfl rfl rfl rfl rfl⟩
  | resetLogInit env res => exact ⟨trivial, h.resetLogInit htimely env res⟩
  | clockTimeInit =>
    refine ⟨trivial, fun hs => ?_, h.noted, h.current⟩
    -- a block that a sync of this boot has written is left as it is
    have hvalid : s.rtc.valid = true := (Bool.and_eq_true_iff.mp (h.last hs).1).1
    have hsame : (s.step .clockTimeInit).rtc = s.rtc := if_pos hvalid
    rw [hsame]
    exact h.last hs
  | sync wall =>
    obtain ⟨hblock, hlast⟩ := cut_all s.rtc (timeT wall)
    exact ⟨trivial, fun _ => ⟨hblock, wall, hlast, htimely.2, Int.le_refl _⟩,
      fun hs => ⟨rfl, (h.noted hs).2⟩, h.current⟩
  | clockTimeTick res => exact (h.tick htimely res).symm
  | wanUp ok =>
    obtain ⟨hrtc, hwall, hsynced, hdev, hnoted⟩ := wanUp_frame s ok
    refine ⟨trivial, h.frame hrtc (Int.le_of_eq hwall.symm) hsynced hnoted ?_ ?_ ?_⟩ <;>
      exact congrArg _ hdev
  | wanDown => exact ⟨trivial, h.frame rfl hrefl rfl rfl rfl rfl rfl⟩
  | tickCb =>
    refine ⟨trivial, h.frame rfl hrefl rfl rfl ?_ ?_ ?_⟩ <;>
      (show _ = _; unfold Clocked.step Device.step; dsimp only; split <;> rfl)
  | noteIntent intent =>
    refine ⟨trivial, h.frame rfl hrefl rfl rfl ?_ ?_ ?_⟩ <;>
      (unfold Clocked.step Device.step Device.noteIntent; dsimp only; split <;> rfl)
  | noteReady =>
    refine ⟨trivial, h.frame rfl hrefl rfl rfl ?_ ?_ ?_⟩ <;>
      (unfold Clocked.step Device.step Device.noteReady; dsimp only; split <;> rfl)
  | checkpointTick res =>
    refine ⟨trivial, h.frame rfl hrefl rfl rfl ?_ ?_ ?_⟩ <;>
      (unfold Clocked.step Device.step Device.checkpointTick; dsimp only; split <;> rfl)
  | cutInit stores us => exact ⟨trivial, reboot_settling s _ _ _⟩
  | cutSync wall stores us => exact ⟨trivial, reboot_settling s _ _ _⟩
  | warmReset us => exact ⟨trivial, reboot_settling s _ _ _⟩
  | powerCycle rtc clk wall us => exact ⟨trivial, reboot_settling s _ _ _⟩

/-- **A boot that has had a sync is dated by the next tick**, in every run, and no tick behind that
    touches the record or the flash. -/
theorem boot_dated (rtc : Reset.Rtc) (clk : Rtc) (wall : Int) (es : List Event)
    (hes : Along Clocked.step Timely (Clocked.blank rtc clk wall) es) :
    Along Clocked.step BootDated (Clocked.blank rtc clk wall) es := by
  have hstart : Settling (Clocked.blank rtc clk wall) :=
    ⟨fun hs => absurd hs Bool.false_ne_true, fun hs => absurd hs Bool.false_ne_true,
      fun hs => absurd hs Bool.false_ne_true⟩
  exact hes.of_invariant hstart fun _ _ hI hok => hI.step hok

/-- A tick before the sync, one behind it, and one an hour later. -/
def threeTicks : List Event :=
  [.resetLogInit Reset.plainEnv {}, .clockTimeInit, .pass 1000000, .clockTimeTick {},
    .sync 1700000000000000, .clockTimeTick {}, .pass 3600000000, .clockTimeTick {}]

theorem boot_dated_threeTicks :
    let start := Clocked.blank ⟨0, 0, 0, 0, 0, 0, 0⟩ ⟨0, 0, 0, 0, 0, 0, 0⟩ 0
    Along Clocked.step BootDated start threeTicks ∧
      (threeTicks.foldl Clocked.step start).dev.ring.map (·.bootEpoch) = [1699999999] :=
  ⟨boot_dated _ _ _ threeTicks (by decide +kernel), by decide +kernel⟩

end

end Clock
end Wt32Router
