import Wt32Router.Clock.Sync
import Wt32Router.Reset.History

/-!
# The clock of a device that keeps being reset

The rest of `main/clock_time.c`, over many boots and together with the reset history it dates. The
wall clock is a register that goes on through every reset but a power cycle; whether it means
anything is what the block of `Clock/Sync.lean` says, which goes on as long. A boot dates its own
record as it begins, where the clock is good by then, and else once, when it has become so.

Times are in microseconds. All clocks of the device run at the rate of the true time, as the
drift of the oscillator is no part of the program; what an NTP server is off by is part of the
event. A sync sets the wall clock before it calls `on_sync`.

What is left out of `on_sync`, `clock_time_wan_up` and `clock_time_wan_down` is what they log, and
`resolve_task`, which only logs.
-/

namespace Wt32Router
namespace Clock

open Reset (BootEnv CkptResult Device Entry SaveResult)

/-! ## The block -/

/-- `clock_time_synced`. -/
def Rtc.isSynced (r : Rtc) : Bool := r.valid && r.synced != 0

/-- What `clock_time_init` stores, where the block is not valid. -/
def rtcInit : List (Rtc → Rtc) :=
  [fun _ => ⟨0, 0, 0, 0, 0, 0, 0⟩,
    fun r => { r with syncedInv := ~~~r.synced },
    fun r => { r with syncLoInv := ~~~r.syncLo },
    fun r => { r with syncHiInv := ~~~r.syncHi },
    fun r => { r with magic := rtcMagic }]

/-- What so many of these leave. -/
def Rtc.initCut (r : Rtc) (stores : Nat) : Rtc :=
  if r.valid then r else (rtcInit.take stores).foldl (fun r store => store r) r

/-! ## The clock -/

/-- The `time_t` of a time in microseconds. -/
def timeT (us : Int) : BitVec 64 := BitVec.ofInt 64 (us / 1000000)

/-- `CLOCK_STALE_AFTER_S`. -/
def clockStaleAfterS : Int := 24 * 60 * 60

/-- `SYNC_WARN_AFTER_S`. -/
def syncWarnAfterS : Nat := 90

/-- What `clock_time_source` names. -/
inductive Source where
  | none
  | ntp
  | carried
deriving DecidableEq, Repr

/-- The device of `reset_log.c`, the block, the system's clock, and the statics of
    `clock_time.c`. -/
structure Clocked where
  dev : Device
  rtc : Rtc
  wall : Int
  syncedThisBoot : Bool
  backfilled : Bool
  started : Bool
  startedAtUs : Nat
  warnedUnsynced : Bool

namespace Clocked

/-- `clock_time_now`. -/
def now (s : Clocked) : Option (BitVec 64) :=
  if !s.rtc.isSynced then none
  else
    let last := s.rtc.lastSync
    if last ≠ 0 ∧ (timeT s.wall).slt last then none else some (timeT s.wall)

/-- `clock_time_stale`. -/
def stale (s : Clocked) : Bool :=
  let last := s.rtc.lastSync
  match s.now with
  | none => false
  | some now => last != 0 && decide (clockStaleAfterS < (now - last).toInt)

/-- `clock_time_source`. -/
def source (s : Clocked) : Source :=
  if !s.rtc.isSynced then .none else if s.syncedThisBoot then .ntp else .carried

/-- `on_sync`, of a clock that has been set to this time. -/
def onSync (s : Clocked) (wall : Int) : Clocked :=
  { s with wall := wall, rtc := s.rtc.cut (timeT wall) 7, syncedThisBoot := true }

/-- `clock_time_wan_up`; the client starts or cannot be started. -/
def wanUp (s : Clocked) (ok : Bool) : Clocked :=
  if s.started || !ok then s
  else { s with started := true, startedAtUs := s.dev.upUs, warnedUnsynced := false }

/-- `clock_time_wan_down`. -/
def wanDown (s : Clocked) : Clocked := { s with started := false }

/-- The first part of `clock_time_tick`: no server has answered for long. -/
def unanswered (s : Clocked) : Bool :=
  s.started && !s.syncedThisBoot && !s.warnedUnsynced &&
    decide (syncWarnAfterS * 1000000 < s.dev.upUs - s.startedAtUs)

/-- The time `clock_time_tick` has for `reset_log_note_time`, if it calls it. -/
def bootStartedAt (s : Clocked) : Option (BitVec 64) :=
  if s.backfilled || !s.syncedThisBoot then none
  else s.now.map fun now => now - BitVec.ofNat 64 (s.dev.upUs / 1000000)

/-- `clock_time_tick`. -/
def tick (s : Clocked) (res : SaveResult) : Clocked :=
  let s := { s with warnedUnsynced := s.warnedUnsynced || s.unanswered }
  match s.bootStartedAt with
  | none => s
  | some t => { s with dev := s.dev.noteTime t res, backfilled := true }

/-- The statics of the next boot, with what is in the block and the clock then. -/
def reboot (s : Clocked) (rtc : Reset.Rtc) (clk : Rtc) (wall : Int) : Clocked where
  dev := s.dev.reboot rtc
  rtc := clk
  wall := wall
  syncedThisBoot := false
  backfilled := false
  started := false
  startedAtUs := 0
  warnedUnsynced := false

/-- A device out of the box. -/
def blank (rtc : Reset.Rtc) (clk : Rtc) (wall : Int) : Clocked where
  dev := Device.blank rtc
  rtc := clk
  wall := wall
  syncedThisBoot := false
  backfilled := false
  started := false
  startedAtUs := 0
  warnedUnsynced := false

end Clocked

/-! ## The machine -/

inductive Event where
  /-- so many microseconds pass -/
  | pass (us : Nat)
  /-- `reset_log_init`, which asks for the time itself -/
  | resetLogInit (env : BootEnv) (res : SaveResult)
  /-- `clock_time_init` -/
  | clockTimeInit
  /-- the clock is set, and `on_sync` called -/
  | sync (wall : Int)
  | clockTimeTick (res : SaveResult)
  | wanUp (ok : Bool)
  | wanDown
  /-- the other calls of `reset_log.c` -/
  | tickCb
  | noteIntent (intent : BitVec 32)
  | noteReady
  | checkpointTick (res : CkptResult)
  /-- the boot ends within `clock_time_init`, and the next begins so many microseconds later -/
  | cutInit (stores us : Nat)
  /-- within `on_sync` -/
  | cutSync (wall : Int) (stores us : Nat)
  | warmReset (us : Nat)
  /-- the supply goes, and comes back with anything in RTC memory and in the clock -/
  | powerCycle (rtc : Reset.Rtc) (clk : Rtc) (wall : Int) (us : Nat)

def Clocked.step (s : Clocked) : Event → Clocked
  | .pass us => { s with dev := s.dev.step (.pass us), wall := s.wall + us }
  | .resetLogInit env res => { s with dev := s.dev.step (.init { env with now := s.now } res) }
  | .clockTimeInit => { s with rtc := s.rtc.initCut 5 }
  | .sync wall => s.onSync wall
  | .clockTimeTick res => s.tick res
  | .wanUp ok => s.wanUp ok
  | .wanDown => s.wanDown
  | .tickCb => { s with dev := s.dev.step .tick }
  | .noteIntent intent => { s with dev := s.dev.step (.noteIntent intent) }
  | .noteReady => { s with dev := s.dev.step .noteReady }
  | .checkpointTick res => { s with dev := s.dev.step (.checkpointTick res) }
  | .cutInit stores us => s.reboot s.dev.rtc (s.rtc.initCut stores) (s.wall + us)
  | .cutSync wall stores us => s.reboot s.dev.rtc (s.rtc.cut (timeT wall) stores) (wall + us)
  | .warmReset us => s.reboot s.dev.rtc s.rtc (s.wall + us)
  | .powerCycle rtc clk wall _ => s.reboot rtc clk wall

section

variable {s : Clocked}

/-! ## The tick -/

theorem tick_none (h : s.bootStartedAt = none) (res : SaveResult) :
    s.tick res = { s with warnedUnsynced := s.warnedUnsynced || s.unanswered } := by
  have hsame : ({ s with warnedUnsynced := s.warnedUnsynced || s.unanswered } :
      Clocked).bootStartedAt = none := h
  unfold Clocked.tick
  dsimp only
  rw [hsame]

theorem tick_some {t : BitVec 64} (h : s.bootStartedAt = some t) (res : SaveResult) :
    s.tick res = { s with
      warnedUnsynced := s.warnedUnsynced || s.unanswered
      dev := s.dev.noteTime t res
      backfilled := true } := by
  have hsame : ({ s with warnedUnsynced := s.warnedUnsynced || s.unanswered } :
      Clocked).bootStartedAt = some t := h
  unfold Clocked.tick
  dsimp only
  rw [hsame]

/-- The tick has a time to note where there has been a sync, the clock is believed, and no tick
    of this boot has noted one. -/
theorem bootStartedAt_some {t : BitVec 64} (h : s.bootStartedAt = some t) :
    s.backfilled = false ∧ s.syncedThisBoot = true ∧ ∃ now, s.now = some now ∧
      t = now - BitVec.ofNat 64 (s.dev.upUs / 1000000) := by
  unfold Clocked.bootStartedAt at h
  cases hnoted : s.backfilled with
  | true => simp [hnoted] at h
  | false =>
    cases hsynced : s.syncedThisBoot with
    | false => simp [hnoted, hsynced] at h
    | true =>
      rw [hnoted, hsynced, Bool.not_true, Bool.or_false, if_neg Bool.false_ne_true] at h
      obtain ⟨now, hnow, rfl⟩ := Option.map_eq_some_iff.mp h
      exact ⟨rfl, rfl, now, hnow, rfl⟩

/-! ## The block's spec -/

/-- A block is not made a good one by initialising it. -/
theorem initCut_isSynced (r : Rtc) (stores : Nat) :
    (r.initCut stores).isSynced = true → (r.initCut stores) = r := by
  intro h
  unfold Rtc.initCut at h ⊢
  split
  · rfl
  · rename_i hvalid
    rw [if_neg hvalid] at h
    match stores with
    | 0 => rfl
    | n + 1 =>
      -- the first store clears the mark, and the others leave it
      have hkeep : ∀ store ∈ rtcInit.tail, ∀ r : Rtc, (store r).synced = r.synced := by
        intro store hstore r
        simp only [rtcInit, List.tail_cons, List.mem_cons, List.not_mem_nil, or_false] at hstore
        rcases hstore with rfl | rfl | rfl | rfl <;> rfl
      have hzero : (((rtcInit.take (n + 1)).foldl (fun r store => store r) r)).synced = 0 := by
        have hlist : rtcInit.take (n + 1) =
            (fun _ => (⟨0, 0, 0, 0, 0, 0, 0⟩ : Rtc)) :: rtcInit.tail.take n := rfl
        rw [hlist, List.foldl_cons]
        refine List.foldlRecOn (motive := fun r : Rtc => r.synced = 0) _ _ rfl ?_
        intro r hr store hstore
        rw [hkeep store (List.mem_of_mem_take hstore)]
        exact hr
      rw [Rtc.isSynced, hzero] at h
      exact absurd h (by simp)

/-- **All stores of a sync** make a block that is read back as that sync. -/
theorem cut_all (r : Rtc) (w : BitVec 64) :
    (r.cut w 7).isSynced = true ∧ (r.cut w 7).lastSync = w := by
  have hpair : ∀ x : BitVec 32, (x == ~~~(~~~x)) = true := fun x => by simp
  have hcut : r.cut w 7 =
      ⟨rtcMagic, 1, ~~~1, loWord w, ~~~loWord w, hiWord w, ~~~hiWord w⟩ := rfl
  have hvalid : (r.cut w 7).valid = true := by
    rw [hcut]
    simp only [Rtc.valid, hpair, beq_self_eq_true, Bool.and_true]
  have hone : (r.cut w 7).synced = 1 := rfl
  refine ⟨?_, ?_⟩
  · rw [Rtc.isSynced, hvalid, hone]
    rfl
  · rw [Rtc.lastSync, hvalid, hone, hcut]
    exact join_words w

end

end Clock
end Wt32Router
