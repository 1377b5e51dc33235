import Wt32Router.Reset.Record
import Wt32Router.Lib.Runs

/-!
# A device that keeps being reset

`main/reset_log.c` over many boots. What outlives a boot is flash and, unless the supply went,
a block of RTC memory; everything else starts from its initialiser again. So the machine's
state is both, and its events are the calls of one boot, the passing of time, and the two ways
a boot ends.

NVS keeps the last value set for each key, so whether the commit after it succeeds is not
modelled. Each `nvs_open` and each `nvs_set` can fail (`SaveResult`, `CkptResult`).

`reset_log_init`'s early returns, for a mutex or a timer that cannot be had, are left out: the
first is a boot that ends before it calls `reset_log_init`, which any boot here may.
-/

namespace Wt32Router
namespace Reset

/-! ## RTC memory -/

/-- `RESET_LOG_RTC_MAGIC`. -/
def rtcMagic : BitVec 32 := 0x52534C31

/-- `reset_log_rtc_t`. -/
structure Rtc where
  magic : BitVec 32
  uptimeS : BitVec 32
  uptimeSInv : BitVec 32
  intent : BitVec 32
  intentInv : BitVec 32
  reachedReady : BitVec 32
  reachedReadyInv : BitVec 32
deriving DecidableEq, Repr

/-- `prev_valid`. -/
def Rtc.valid (r : Rtc) : Bool :=
  r.magic == rtcMagic && r.uptimeS == ~~~r.uptimeSInv && r.intent == ~~~r.intentInv &&
    r.reachedReady == ~~~r.reachedReadyInv

/-- What `rtc_seed` leaves. -/
def Rtc.seed : Rtc := ⟨rtcMagic, 0, ~~~0, 0, ~~~0, 0, ~~~0⟩

def Rtc.setUptime (r : Rtc) (up : BitVec 32) : Rtc := { r with uptimeS := up, uptimeSInv := ~~~up }

/-! ## Flash -/

/-- The two keys of the namespace. -/
structure Nvs where
  ring : Option (List UInt8)
  upck : Option (BitVec 64)
deriving DecidableEq

/-- The value `set_checkpoint` packs. -/
def packCheckpoint (bootSeq uptimeS : BitVec 32) : BitVec 64 :=
  (bootSeq.setWidth 64 <<< 32) ||| uptimeS.setWidth 64

def loadCheckpoint (upck : Option (BitVec 64)) (wantSeq : BitVec 32) : Option (BitVec 32) :=
  match upck with
  | none => none
  | some packed =>
    if (packed >>> 32).setWidth 32 ≠ wantSeq then none else some (packed.setWidth 32)

/-- How the NVS calls of a `save_to_nvs` turn out. -/
structure SaveResult where
  opened : Bool := true
  ringSet : Bool := true
  seedSet : Bool := true
deriving DecidableEq, Repr

def SaveResult.ring (r : SaveResult) : Bool := r.opened && r.ringSet

/-- How those of a `save_checkpoint` do. -/
structure CkptResult where
  opened : Bool := true
  set : Bool := true
deriving DecidableEq, Repr

/-- `save_to_nvs`; `seed` is the boot whose checkpoint is to be seeded, if it is. -/
def saveToNvs (nvs : Nvs) (ring : List Entry) (nextSeq : BitVec 32) (seed : Option (BitVec 32))
    (res : SaveResult) : Nvs :=
  if res.ring then
    { ring := some (saveBlob ring nextSeq)
      upck := match seed with
        | some bootSeq => if res.seedSet then some (packCheckpoint bootSeq 0) else nvs.upck
        | none => nvs.upck }
  else nvs

/-! ## The schedule of checkpoints -/

/-- `k_ckpt_times`, in seconds. -/
def kCkptTimes : List Nat :=
  [10, 20, 30, 40, 50, 60, 120, 180, 240, 300, 600, 900, 1800, 2700, 3600, 7200, 10800, 14400,
    28800, 43200, 64800, 86400, 172800, 259200, 345600, 691200, 1382400, 2764800, 5529600,
    11059200, 22118400, 31536000]

/-- The `while` of `reset_log_checkpoint_tick`: past every time already reached. -/
def skipPassed (next up : Nat) : Nat := next + ((kCkptTimes.drop next).takeWhile (· ≤ up)).length

/-! ## The machine -/

/-- `reset_rail_t`. -/
inductive Rail where
  | unknown
  | held
  | dropped
deriving DecidableEq, Repr

/-- The running partition, whether its image is on trial, and whether the bootloader gave up on
    the image of the other one. -/
structure Running where
  label : List UInt8
  pendingVerify : Bool
  otherAborted : Bool
deriving DecidableEq, Repr

/-- What `reset_log_init` asks of others: `esp_reset_reason`, `clock_time_now`, the rail, the
    application's version and the partition it runs from. -/
structure BootEnv where
  reason : UInt8
  now : Option (BitVec 64) := none
  rail : Rail := .unknown
  appVersion : List UInt8 := []
  running : Option Running := none
deriving DecidableEq, Repr

/-- Flash, RTC memory, the statics of `reset_log.c`, and `esp_timer_get_time`. -/
structure Device where
  nvs : Nvs
  rtc : Rtc
  /-- `s_mutex` exists: `reset_log_init` has run -/
  started : Bool
  ring : List Entry
  nextSeq : BitVec 32
  haveCurrent : Bool
  ckptBootSeq : BitVec 32
  ckptNext : Nat
  upUs : Nat

inductive Event where
  | init (env : BootEnv) (res : SaveResult)
  /-- so many microseconds pass -/
  | pass (us : Nat)
  /-- `tick_cb` -/
  | tick
  | noteIntent (intent : BitVec 32)
  | noteReady
  | checkpointTick (res : CkptResult)
  | noteTime (bootStartedAt : BitVec 64) (res : SaveResult)
  /-- the boot ends and RTC memory stays -/
  | warmReset
  /-- the boot ends, and RTC memory comes up with anything in it -/
  | powerCycle (rtc : Rtc)

/-- `(uint32_t)(esp_timer_get_time() / 1000000)`. -/
def Device.uptimeS (s : Device) : BitVec 32 := BitVec.ofNat 32 (s.upUs / 1000000)

/-- The bits a record's `flags` are put together from. -/
structure FlagBits where
  prevState : Bool
  reachedReady : Bool
  otaPending : Bool
  rollback : Bool
  prevUptimeMin : Bool
  railKnown : Bool
  railHeld : Bool
  bootTime : Bool
deriving DecidableEq

def FlagBits.byte (b : FlagBits) : UInt8 :=
  (if b.bootTime then fBootTime else 0) ||| (if b.prevState then fPrevState else 0) |||
    (if b.reachedReady then fReachedReady else 0) |||
    (if b.prevUptimeMin then fPrevUptimeMin else 0) ||| (if b.railKnown then fRailKnown else 0) |||
    (if b.railHeld then fRailHeld else 0) ||| (if b.otaPending then fOtaPending else 0) |||
    (if b.rollback then fRollback else 0)

/-- The checkpoint `reset_log_init` takes a floor from: none, where RTC memory was standing. -/
def Device.floor (s : Device) : Option (BitVec 32) :=
  if s.rtc.valid then none
  else loadCheckpoint s.nvs.upck ((loadFromNvs s.nvs.ring).2 - 1)

/-- The test for a rollback: the newest record was of a trial image on another partition. -/
def rolledBack (ring : List Entry) (run : Running) : Bool :=
  match ring.getLast? with
  | none => false
  | some last =>
    run.otherAborted && hasFlag last.flags fOtaPending && !sameString last.part.chars run.label

/-- The record `reset_log_init` puts together. -/
def Device.newRecord (s : Device) (env : BootEnv) : Entry :=
  let ring := (loadFromNvs s.nvs.ring).1
  let bits : FlagBits :=
    { prevState := s.rtc.valid
      reachedReady := s.rtc.valid && s.rtc.reachedReady != 0
      otaPending := env.running.any (·.pendingVerify)
      rollback := env.running.any (rolledBack ring)
      prevUptimeMin := s.floor.isSome
      railKnown := env.rail != .unknown
      railHeld := env.rail == .held
      bootTime := env.now.isSome }
  { bootSeq := (loadFromNvs s.nvs.ring).2
    prevUptimeS := if s.rtc.valid then s.rtc.uptimeS else s.floor.getD 0
    bootEpoch := match env.now with
      | some now => now - BitVec.ofNat 64 (s.upUs / 1000000)
      | none => 0
    reason := env.reason
    intent := if s.rtc.valid then UInt8.ofBitVec (s.rtc.intent.setWidth 8) else 0
    flags := bits.byte
    version := Text.strlcpy env.appVersion
    part := match env.running with
      | some run => Text.strlcpy run.label
      | none => Text.ofBytes [] }

/-- A record appended to the ring, the oldest one making room. -/
def pushRecord (ring : List Entry) (entry : Entry) : List Entry :=
  (if ring.length = maxRecords then ring.tail else ring) ++ [entry]

/-- `reset_log_init`. -/
def Device.init (s : Device) (env : BootEnv) (res : SaveResult) : Device :=
  let entry := s.newRecord env
  let ring := pushRecord (loadFromNvs s.nvs.ring).1 entry
  let nextSeq := (loadFromNvs s.nvs.ring).2 + 1
  { s with
    nvs := saveToNvs s.nvs ring nextSeq (some entry.bootSeq) res
    rtc := Rtc.seed
    started := true
    ring := ring
    nextSeq := nextSeq
    haveCurrent := true
    ckptBootSeq := entry.bootSeq }

/-- `reset_log_note_intent`. -/
def Device.noteIntent (s : Device) (intent : BitVec 32) : Device :=
  if s.rtc.magic ≠ rtcMagic then s
  else { s with
    rtc := { s.rtc.setUptime s.uptimeS with intent := intent, intentInv := ~~~intent } }

/-- `reset_log_note_ready`. -/
def Device.noteReady (s : Device) : Device :=
  if s.rtc.magic ≠ rtcMagic then s
  else { s with rtc := { s.rtc with reachedReady := 1, reachedReadyInv := ~~~1 } }

def Device.ckptDue (s : Device) : Bool :=
  s.ckptBootSeq != 0 &&
    match kCkptTimes[s.ckptNext]? with
    | some time => decide (time ≤ s.uptimeS.toNat)
    | none => false

/-- `reset_log_checkpoint_tick`. -/
def Device.checkpointTick (s : Device) (res : CkptResult) : Device :=
  if s.ckptDue then
    { s with
      ckptNext := skipPassed s.ckptNext s.uptimeS.toNat
      nvs := if res.opened && res.set then
          { s.nvs with upck := some (packCheckpoint s.ckptBootSeq s.uptimeS) }
        else s.nvs }
  else s

def Entry.stamp (e : Entry) (bootStartedAt : BitVec 64) : Entry :=
  { e with bootEpoch := bootStartedAt, flags := e.flags ||| fBootTime }

/-- `reset_log_note_time`. -/
def Device.noteTime (s : Device) (bootStartedAt : BitVec 64) (res : SaveResult) : Device :=
  match s.ring.getLast? with
  | none => s
  | some last =>
    if s.started && s.haveCurrent && !hasFlag last.flags fBootTime then
      let ring := s.ring.dropLast ++ [last.stamp bootStartedAt]
      { s with ring := ring, nvs := saveToNvs s.nvs ring s.nextSeq none res }
    else s

/-- The statics of the next boot, before anything has run. -/
def Device.reboot (s : Device) (rtc : Rtc) : Device where
  nvs := s.nvs
  rtc := rtc
  started := false
  ring := []
  nextSeq := 1
  haveCurrent := false
  ckptBootSeq := 0
  ckptNext := 0
  upUs := 0

/-- One step. A call that needs `reset_log_init` to have run does nothing before it, and
    `reset_log_init` runs once in a boot. -/
def Device.step (s : Device) : Event → Device
  | .init env res => if s.started then s else s.init env res
  | .pass us => { s with upUs := s.upUs + us }
  | .tick => if s.started then { s with rtc := s.rtc.setUptime s.uptimeS } else s
  | .noteIntent intent => s.noteIntent intent
  | .noteReady => s.noteReady
  | .checkpointTick res => s.checkpointTick res
  | .noteTime t res => s.noteTime t res
  | .warmReset => s.reboot s.rtc
  | .powerCycle rtc => s.reboot rtc

/-- A device out of the box: no history, and anything in RTC memory. -/
def Device.blank (rtc : Rtc) : Device where
  nvs := ⟨none, none⟩
  rtc := rtc
  started := false
  ring := []
  nextSeq := 1
  haveCurrent := false
  ckptBootSeq := 0
  ckptNext := 0
  upUs := 0

def Event.ends : Event → Bool
  | .warmReset | .powerCycle _ => true
  | _ => false

section

variable {s : Device} {env : BootEnv} {res : SaveResult} {bits : FlagBits}

/-! ## What a record says -/

/-- Each flag has a bit of its own. -/
theorem flags_readBack (bits : FlagBits) :
    (⟨hasFlag bits.byte fPrevState, hasFlag bits.byte fReachedReady,
      hasFlag bits.byte fOtaPending, hasFlag bits.byte fRollback,
      hasFlag bits.byte fPrevUptimeMin, hasFlag bits.byte fRailKnown,
      hasFlag bits.byte fRailHeld, hasFlag bits.byte fBootTime⟩ : FlagBits) = bits := by
  obtain ⟨a, b, c, d, e, f, g, h⟩ := bits
  revert a b c d e f g h
  decide +kernel

theorem hasFlag_prevState : hasFlag bits.byte fPrevState = bits.prevState :=
  congrArg FlagBits.prevState (flags_readBack bits)

theorem hasFlag_reachedReady : hasFlag bits.byte fReachedReady = bits.reachedReady :=
  congrArg FlagBits.reachedReady (flags_readBack bits)

theorem hasFlag_prevUptimeMin : hasFlag bits.byte fPrevUptimeMin = bits.prevUptimeMin :=
  congrArg FlagBits.prevUptimeMin (flags_readBack bits)

/-- **A record says floor exactly if there was one**, and the floor is its duration. -/
theorem newRecord_floor (h : hasFlag (s.newRecord env).flags fPrevUptimeMin = true) :
    s.rtc.valid = false ∧
      loadCheckpoint s.nvs.upck ((loadFromNvs s.nvs.ring).2 - 1) =
        some (s.newRecord env).prevUptimeS := by
  unfold Device.newRecord at h ⊢
  dsimp only at h ⊢
  rw [hasFlag_prevUptimeMin] at h
  obtain ⟨floor, hfloor⟩ := Option.isSome_iff_exists.mp h
  cases hrtc : s.rtc.valid with
  | true => simp [Device.floor, hrtc] at hfloor
  | false =>
    refine ⟨rfl, ?_⟩
    rw [if_neg Bool.false_ne_true, hfloor, Option.getD_some, ← hfloor, Device.floor, hrtc,
      if_neg Bool.false_ne_true]

end

end Reset
end Wt32Router
