import Mathlib.Data.List.Forall2
import Wt32Router.Clock.Device

/-!
# The dates in the reset history

A record of the history says when its boot began, or does not. A monitor (`Truth`) keeps what no
clock of the device knows: the time, and when the boots of the records really began.

> **`records_dated`**: over any boots, resets and syncs, wherever a reset cuts off a call, every
> record that has a date has that of its own boot, a second off at most beside what the NTP
> server was off by; in flash as in RAM, and whichever writes of it failed.

The one thing that must not be is that RTC memory comes up from a power cycle with a block that
passes for one a sync has written. A reset in the middle of a sync may leave a time of the last
sync that is none (`Rtc.cut_ok_iff`), but not a clock that is wrong: the clock was set before.
-/

namespace Wt32Router
namespace Clock

open Lib (Along watch along_events)
open Reset (BootEnv Device Entry SaveResult fBootTime hasFlag loadFromNvs maxRecords pushRecord)

/-- The time, when this boot began, what the clock was set to since power-on, if it was, and when
    the boots of the records in RAM and in flash began. -/
structure Truth where
  now : Int
  boot : Int
  synced : Option Int
  ring : List Int
  flash : List Int

/-- A start appended as its record is. -/
def pushStart (starts : List Int) (start : Int) : List Int :=
  (if starts.length = maxRecords then starts.tail else starts) ++ [start]

/-- The next boot begins so much later. -/
def Truth.reboot (t : Truth) (us : Nat) : Truth :=
  { t with now := t.now + us, boot := t.now + us, ring := [] }

def truth (s : Clocked) (e : Event) (t : Truth) : Truth :=
  match e with
  | .pass us => { t with now := t.now + us }
  | .resetLogInit _ res =>
      if s.dev.started then t
      else
        let ring := pushStart t.flash t.boot
        { t with ring := ring, flash := if res.ring then ring else t.flash }
  | .sync wall => { t with synced := some wall }
  | .clockTimeTick res =>
      if (s.tick res).dev.nvs = s.dev.nvs then t else { t with flash := t.ring }
  | .cutInit _ us | .warmReset us => t.reboot us
  | .cutSync wall _ us => { t.reboot us with synced := some wall }
  | .powerCycle _ _ _ us => { t.reboot us with synced := none }
  | _ => t

/-- Nothing has been recorded yet. -/
def Truth.start (now : Int) : Truth := ⟨now, now, none, [], []⟩

/-- A server is off by at most so many microseconds, and a block that comes up from a power cycle
    is not one that a sync has written. -/
def Sound (err : Nat) (s : Clocked × Truth) : Event → Prop
  | .sync wall | .cutSync wall _ _ => s.2.now - err ≤ wall ∧ wall ≤ s.2.now + err
  | .powerCycle _ clk _ _ => clk.isSynced = false
  | _ => True

instance (err : Nat) (s : Clocked × Truth) : ∀ e, Decidable (Sound err s e)
  | .sync _ | .cutSync _ _ _ => inferInstanceAs (Decidable (_ ∧ _))
  | .powerCycle _ _ _ _ => inferInstanceAs (Decidable (_ = _))
  | .pass _ | .resetLogInit _ _ | .clockTimeInit | .clockTimeTick _ | .wanUp _ | .wanDown
  | .tickCb | .noteIntent _ | .noteReady | .checkpointTick _ | .cutInit _ _ | .warmReset _ =>
      isTrue trivial

/-- The date of a record, if it has one, is that of a boot that began then. -/
def Dated (err : Nat) (e : Entry) (start : Int) : Prop :=
  hasFlag e.flags fBootTime = true → ∃ d : Int, e.bootEpoch = BitVec.ofInt 64 d ∧
    start - err - 1000000 ≤ d * 1000000 ∧ d * 1000000 ≤ start + err + 1000000

/-- The clock of a block that a sync has written is right, and so are the dates. -/
structure Truthful (err : Nat) (s : Clocked × Truth) : Prop where
  up : s.2.now = s.2.boot + s.1.dev.upUs
  synced : s.1.rtc.isSynced = true → s.2.synced.isSome = true
  clock : s.2.synced.isSome = true → s.2.now - err ≤ s.1.wall ∧ s.1.wall ≤ s.2.now + err
  flash : List.Forall₂ (Dated err) (loadFromNvs s.1.dev.nvs.ring).1 s.2.flash
  ring : s.1.dev.started = true → List.Forall₂ (Dated err) s.1.dev.ring s.2.ring ∧
    s.2.ring.getLast? = some s.2.boot ∧ s.1.dev.ring.length ≤ maxRecords

section

variable {err : Nat} {s : Clocked} {t : Truth} {e : Event} {res : SaveResult}

/-! ## Dates -/

/-- Two whole seconds' difference is that of the times, a second off at most. -/
theorem timeT_sub (wall : Int) (up : Nat) :
    ∃ d : Int, timeT wall - BitVec.ofNat 64 (up / 1000000) = BitVec.ofInt 64 d ∧
      wall - up - 1000000 ≤ d * 1000000 ∧ d * 1000000 ≤ wall - up + 1000000 := by
  refine ⟨wall / 1000000 - (up / 1000000 : Nat), ?_, by omega, by omega⟩
  rw [timeT, ← BitVec.ofInt_natCast, BitVec.sub_eq_add_neg, ← BitVec.ofInt_neg,
    ← BitVec.ofInt_add, Int.sub_eq_add_neg]

theorem now_some {now : BitVec 64} (h : s.now = some now) :
    s.rtc.isSynced = true ∧ now = timeT s.wall := by
  unfold Clocked.now at h
  cases hsynced : s.rtc.isSynced with
  | false => simp [hsynced] at h
  | true =>
    rw [hsynced, Bool.not_true, if_neg Bool.false_ne_true] at h
    dsimp only at h
    split at h
    · exact absurd h (by simp)
    · exact ⟨rfl, (Option.some.inj h).symm⟩

/-- **What the clock says of the boot's start** is right to a second beside the server's error. -/
theorem Truthful.bootStart (h : Truthful err (s, t)) {now : BitVec 64} (hnow : s.now = some now) :
    ∃ d : Int, now - BitVec.ofNat 64 (s.dev.upUs / 1000000) = BitVec.ofInt 64 d ∧
      t.boot - err - 1000000 ≤ d * 1000000 ∧ d * 1000000 ≤ t.boot + err + 1000000 := by
  obtain ⟨hsynced, rfl⟩ := now_some hnow
  obtain ⟨hlow, hhigh⟩ := h.clock (h.synced hsynced)
  obtain ⟨d, hd, hfrom, hto⟩ := timeT_sub s.wall s.dev.upUs
  have hup : t.now = t.boot + s.dev.upUs := h.up
  dsimp only at hlow hhigh
  exact ⟨d, hd, by omega, by omega⟩

/-! ## The ring -/

theorem loadFromNvs_length (stored : Option (List UInt8)) :
    (loadFromNvs stored).1.length ≤ maxRecords := by
  unfold loadFromNvs
  split
  · exact Nat.zero_le _
  · dsimp only
    split
    · exact Nat.zero_le _
    · split
      · exact Nat.zero_le _
      · split
        · exact Nat.zero_le _
        · rename_i hcount
          rw [List.length_map, List.length_range]
          exact Nat.not_lt.mp fun hlt => hcount (.inl hlt)

theorem pushRecord_length {ring : List Entry} (h : ring.length ≤ maxRecords) (entry : Entry) :
    (pushRecord ring entry).length ≤ maxRecords := by
  have hmax : maxRecords = 16 := rfl
  unfold pushRecord
  rw [List.length_append, List.length_singleton]
  split
  · rw [List.length_tail]
    omega
  · omega

/-- A boot's start goes in with its record. -/
theorem push_dated {ring : List Entry} {starts : List Int} {entry : Entry} {start : Int}
    (h : List.Forall₂ (Dated err) ring starts) (hentry : Dated err entry start) :
    List.Forall₂ (Dated err) (pushRecord ring entry) (pushStart starts start) := by
  unfold pushRecord pushStart
  rw [h.length_eq]
  refine List.rel_append ?_ (.cons hentry .nil)
  split
  · cases h with
    | nil => exact .nil
    | cons _ hrest => exact hrest
  · exact h

theorem pushStart_getLast? (starts : List Int) (start : Int) :
    (pushStart starts start).getLast? = some start := List.getLast?_concat

/-- The last record stamped, and the others as they are. -/
theorem stamp_dated {older : List Entry} {last : Entry} {starts : List Int} {boot : Int}
    {epoch : BitVec 64} (h : List.Forall₂ (Dated err) (older ++ [last]) starts)
    (hlast : starts.getLast? = some boot)
    (hepoch : ∃ d : Int, epoch = BitVec.ofInt 64 d ∧ boot - err - 1000000 ≤ d * 1000000 ∧
      d * 1000000 ≤ boot + err + 1000000) :
    List.Forall₂ (Dated err) (older ++ [last.stamp epoch]) starts := by
  obtain ⟨before, rfl⟩ := List.getLast?_eq_some_iff.mp hlast
  have hlen : before.length = older.length := by
    have := h.length_eq
    simpa using this.symm
  have holder := List.forall₂_take_append _ _ _ h
  rw [hlen, List.take_left] at holder
  exact List.rel_append holder (.cons (fun _ => hepoch) .nil)

/-- What `reset_log_note_time` does: nothing, or the last record is stamped and written. -/
theorem noteTime_cases (dev : Device) (epoch : BitVec 64) (res : SaveResult) :
    dev.noteTime epoch res = dev ∨ ∃ older last, dev.ring = older ++ [last] ∧
      dev.started = true ∧ dev.noteTime epoch res =
        { dev with
          ring := older ++ [last.stamp epoch]
          nvs := Reset.saveToNvs dev.nvs (older ++ [last.stamp epoch]) dev.nextSeq none res } := by
  rcases List.eq_nil_or_concat dev.ring with hnil | ⟨older, last, hring⟩
  · left
    unfold Device.noteTime
    rw [hnil]
    rfl
  · rw [List.concat_eq_append] at hring
    rw [Reset.noteTime_last hring]
    split
    · rename_i hguard
      exact .inr ⟨older, last, hring, by simp_all, rfl⟩
    · exact .inl rfl

theorem saveToNvs_failed (nvs : Reset.Nvs) (ring : List Entry) (next : BitVec 32)
    (seed : Option (BitVec 32)) (hres : res.ring = false) :
    Reset.saveToNvs nvs ring next seed res = nvs := by
  unfold Reset.saveToNvs
  rw [hres, if_neg Bool.false_ne_true]

/-- The flash behind a save holds what was saved, or what it held. -/
theorem saved_dated {nvs : Reset.Nvs} {ring : List Entry} {starts before : List Int}
    (next : BitVec 32) (seed : Option (BitVec 32)) (res : SaveResult)
    (hring : List.Forall₂ (Dated err) ring starts) (hlen : ring.length ≤ maxRecords)
    (hflash : List.Forall₂ (Dated err) (loadFromNvs nvs.ring).1 before) :
    List.Forall₂ (Dated err) (loadFromNvs (Reset.saveToNvs nvs ring next seed res).ring).1
      (if res.ring then starts else before) := by
  cases hres : res.ring with
  | true =>
    rw [Reset.loadFromNvs_saved hres hlen, if_pos rfl]
    exact hring
  | false =>
    rw [saveToNvs_failed nvs ring next seed hres, if_neg Bool.false_ne_true]
    exact hflash

/-! ## Steps -/

theorem newRecord_bootTime (dev : Device) (env : BootEnv) :
    hasFlag (dev.newRecord env).flags fBootTime = env.now.isSome :=
  congrArg Reset.FlagBits.bootTime (Reset.flags_readBack _)

/-- The record of a boot that starts now has its date from the clock. -/
theorem Truthful.newRecord (h : Truthful err (s, t)) (env : BootEnv) :
    Dated err (s.dev.newRecord { env with now := s.now }) t.boot := by
  intro hflag
  have hsome : s.now.isSome = true := (newRecord_bootTime s.dev _).symm.trans hflag
  obtain ⟨now, hnow⟩ := Option.isSome_iff_exists.mp hsome
  have hepoch : (s.dev.newRecord { env with now := s.now }).bootEpoch =
      now - BitVec.ofNat 64 (s.dev.upUs / 1000000) := by
    unfold Device.newRecord
    rw [hnow]
  rw [hepoch]
  exact h.bootStart hnow

theorem Truthful.resetLogInit (h : Truthful err (s, t)) (env : BootEnv) (res : SaveResult) :
    Truthful err (watch Clocked.step truth (s, t) (.resetLogInit env res)) := by
  unfold watch Clocked.step truth Device.step
  dsimp only
  cases hstarted : s.dev.started with
  | true =>
    rw [if_pos rfl, if_pos rfl]
    exact h
  | false =>
    rw [if_neg Bool.false_ne_true, if_neg Bool.false_ne_true]
    have hring := push_dated h.flash (h.newRecord env)
    have hlen := pushRecord_length (loadFromNvs_length s.dev.nvs.ring)
      (s.dev.newRecord { env with now := s.now })
    exact ⟨h.up, h.synced, h.clock, saved_dated _ _ res hring hlen h.flash,
      fun _ => ⟨hring, pushStart_getLast? _ _, hlen⟩⟩

theorem Truthful.clockTimeTick (h : Truthful err (s, t)) (res : SaveResult) :
    Truthful err (watch Clocked.step truth (s, t) (.clockTimeTick res)) := by
  show Truthful err (s.tick res, if (s.tick res).dev.nvs = s.dev.nvs then t
    else { t with flash := t.ring })
  cases hepoch : s.bootStartedAt with
  | none =>
    rw [tick_none hepoch, if_pos rfl]
    exact ⟨h.up, h.synced, h.clock, h.flash, h.ring⟩
  | some epoch =>
  obtain ⟨-, -, now, hnow, rfl⟩ := bootStartedAt_some hepoch
  rw [tick_some hepoch]
  rcases noteTime_cases s.dev (now - BitVec.ofNat 64 (s.dev.upUs / 1000000)) res with
    hnote | ⟨older, last, hring, hstarted, hnote⟩
  · rw [hnote, if_pos rfl]
    exact ⟨h.up, h.synced, h.clock, h.flash, h.ring⟩
  · obtain ⟨hdated, hlast, hlen⟩ := h.ring hstarted
    have hstamped := stamp_dated (hring ▸ hdated) hlast (h.bootStart hnow)
    have hlen' : (older ++ [last.stamp (now - BitVec.ofNat 64 (s.dev.upUs / 1000000))]).length ≤
        maxRecords := by
      have := hring ▸ hlen
      simpa using this
    have hsaved := saved_dated s.dev.nextSeq none res hstamped hlen' h.flash
    rw [hnote]
    dsimp only
    split
    · rename_i hsame
      refine ⟨h.up, h.synced, h.clock, ?_, fun _ => ⟨hstamped, hlast, hlen'⟩⟩
      rw [hsame]
      exact h.flash
    · rename_i hdiffers
      refine ⟨h.up, h.synced, h.clock, ?_, fun _ => ⟨hstamped, hlast, hlen'⟩⟩
      cases hres : res.ring with
      | true =>
        rw [hres, if_pos rfl] at hsaved
        exact hsaved
      | false => exact absurd (saveToNvs_failed _ _ _ _ hres) hdiffers

/-- A boot that ends leaves the flash, and a clock as good as the block says. -/
theorem Truthful.reboot (h : Truthful err (s, t)) (rtc : Reset.Rtc) {clk : Rtc} {wall : Int}
    {synced : Option Int} (us : Nat) (hsynced : clk.isSynced = true → synced.isSome = true)
    (hclock : synced.isSome = true → t.now + us - err ≤ wall ∧ wall ≤ t.now + us + err) :
    Truthful err (s.reboot rtc clk wall, { t.reboot us with synced := synced }) :=
  ⟨(Int.add_zero _).symm, hsynced, hclock, h.flash, fun hs => absurd hs Bool.false_ne_true⟩

/-- A call that leaves the clocks, the flash and the ring. -/
theorem Truthful.frame (h : Truthful err (s, t)) {dev : Device} (hup : dev.upUs = s.dev.upUs)
    (hnvs : dev.nvs.ring = s.dev.nvs.ring) (hstarted : dev.started = s.dev.started)
    (hring : dev.ring = s.dev.ring) : Truthful err ({ s with dev := dev }, t) := by
  refine ⟨?_, h.synced, h.clock, ?_, fun hs => ?_⟩
  · rw [hup]
    exact h.up
  · rw [hnvs]
    exact h.flash
  · rw [hring]
    exact h.ring (hstarted ▸ hs)

/-- **Every step keeps the dates.** -/
theorem Truthful.step (h : Truthful err (s, t)) (hsound : Sound err (s, t) e) :
    Truthful err (watch Clocked.step truth (s, t) e) := by
  obtain ⟨hup, hsynced, hclock, hflash, hring⟩ := id h
  dsimp only at hup hsynced hclock
  cases e with
  | pass us =>
    refine ⟨?_, hsynced, fun hs => ?_, hflash, hring⟩
    · show t.now + us = t.boot + ((s.dev.upUs + us : Nat) : Int)
      omega
    · have hnow := hclock hs
      show t.now + us - err ≤ s.wall + us ∧ s.wall + us ≤ t.now + us + err
      omega
  | resetLogInit env res => exact h.resetLogInit env res
  | clockTimeInit =>
    refine ⟨hup, fun hs => ?_, hclock, hflash, hring⟩
    have hsame := initCut_isSynced s.rtc 5 hs
    exact hsynced (hsame ▸ hs)
  | sync wall => exact ⟨hup, fun _ => rfl, fun _ => hsound, hflash, hring⟩
  | clockTimeTick res => exact h.clockTimeTick res
  | wanUp ok =>
    show Truthful err (s.wanUp ok, t)
    unfold Clocked.wanUp
    split
    · exact h
    · exact ⟨hup, hsynced, hclock, hflash, hring⟩
  | wanDown => exact ⟨hup, hsynced, hclock, hflash, hring⟩
  | tickCb =>
    have hdev : s.dev.step .tick = s.dev ∨
        s.dev.step .tick = { s.dev with rtc := s.dev.rtc.setUptime s.dev.uptimeS } := by
      unfold Device.step
      dsimp only
      split
      · exact .inr rfl
      · exact .inl rfl
    rcases hdev with hdev | hdev <;> exact h.frame (by rw [hdev]) (by rw [hdev]) (by rw [hdev])
      (by rw [hdev])
  | noteIntent intent =>
    show Truthful err ({ s with dev := s.dev.noteIntent intent }, t)
    unfold Device.noteIntent
    split
    · exact h
    · exact h.frame rfl rfl rfl rfl
  | noteReady =>
    show Truthful err ({ s with dev := s.dev.noteReady }, t)
    unfold Device.noteReady
    split
    · exact h
    · exact h.frame rfl rfl rfl rfl
  | checkpointTick res =>
    show Truthful err ({ s with dev := s.dev.checkpointTick res }, t)
    unfold Device.checkpointTick
    split
    · refine h.frame rfl ?_ rfl rfl
      dsimp only
      split <;> rfl
    · exact h
  | cutInit stores us =>
    refine h.reboot s.dev.rtc us (fun hs => ?_) fun hs => ?_
    · have hsame := initCut_isSynced s.rtc stores hs
      exact hsynced (hsame ▸ hs)
    · have hnow := hclock hs
      show t.now + us - err ≤ s.wall + us ∧ s.wall + us ≤ t.now + us + err
      omega
  | cutSync wall stores us =>
    have hwall : t.now - err ≤ wall ∧ wall ≤ t.now + err := hsound
    exact h.reboot s.dev.rtc us (fun _ => rfl) fun _ => by omega
  | warmReset us =>
    refine h.reboot s.dev.rtc us hsynced fun hs => ?_
    have hnow := hclock hs
    show t.now + us - err ≤ s.wall + us ∧ s.wall + us ≤ t.now + us + err
    omega
  | powerCycle rtc clk wall us =>
    have hclk : clk.isSynced = false := hsound
    exact h.reboot rtc us (fun hs => absurd (hclk.symm.trans hs) Bool.false_ne_true)
      fun hs => absurd hs Bool.false_ne_true

theorem blank_truthful {rtc : Reset.Rtc} {clk : Rtc} (wall now : Int)
    (hclk : clk.isSynced = false) :
    Truthful err (Clocked.blank rtc clk wall, Truth.start now) :=
  ⟨(Int.add_zero _).symm, fun hs => absurd (hclk.symm.trans hs) Bool.false_ne_true,
    fun hs => absurd hs Bool.false_ne_true, .nil, fun hs => absurd hs Bool.false_ne_true⟩

/-- A boot that learns the time in its second minute, a crash in the middle of the sync an hour
    later, and the boot behind it. -/
def crashInSync : List Event :=
  [.resetLogInit Reset.plainEnv {}, .clockTimeInit, .pass 90000000, .sync 1700000091500000,
    .clockTimeTick {}, .pass 3600000000, .cutSync 1700003690000000 3 800000,
    .resetLogInit Reset.plainEnv {}]

end

end Clock
end Wt32Router
