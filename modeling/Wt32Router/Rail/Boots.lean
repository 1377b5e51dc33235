import Wt32Router.Rail.Probe

/-!
# What the rail witness says, boot after boot

`rail_witness_arm` and `rail_witness_tick` put a pattern in a register of the PHY, and the probe of
the next boot looks whether it is still there. "On an EN reset the 3.3V rail never drops", so the
register outlives it; it does not outlive a drop of the supply, nor the reset of the PHY that
comes with its driver.

Which bits of the register hold a value "is a property of the die rather than of the datasheet":
they are a mask here.

> **`rail_verdicts`**: behind an EN reset the verdict is HELD exactly if a pattern that all holds
> has been written since the PHY last lost its registers, and DROPPED exactly if nothing that
> holds has.

So DROPPED does not say that the rail did. It is also the verdict behind a boot that ended between
the driver's reset and the arming, and behind every EN reset of a board whose PHY holds none of
the bits, of which the header has it that "every later probe will read UNKNOWN".
-/

namespace Wt32Router
namespace Rail

open Lib (Along watch)
open Lib.Mdio (Phase Station)

/-- What is outside the firmware: the bits of the register that can be written, and the address
    that the configuration gives. -/
structure Chip where
  mask : BitVec 16
  phyAddr : BitVec 8

/-- The PHY, the statics of `rail_witness.c`, and `esp_timer_get_time`. -/
structure Board where
  station : Station
  /-- `s_pattern` -/
  pattern : BitVec 16
  /-- `s_eth_handle` is set -/
  handle : Bool
  lastRewriteUs : Nat
  nowUs : Nat
  /-- what the probe of this boot has found -/
  rail : RailWitness

def rewriteIntervalUs : Nat := 30 * 1000 * 1000

/-- The register of the witness as a station numbers it. -/
def imr : BitVec 5 := 0x1E

def Board.setImr (b : Board) (value : BitVec 16) : Board :=
  { b with station := { b.station with regs := Function.update b.station.regs imr value } }

@[simp] theorem Board.setImr_regs (b : Board) (value : BitVec 16) :
    (b.setImr value).station.regs imr = value := by
  simp [Board.setImr]

/-! ## Arming -/

/-- How the four ioctls of `rail_witness_arm` turn out. -/
structure ArmIo where
  write1 : Bool := true
  read1 : Bool := true
  write2 : Bool := true
  read2 : Bool := true
deriving DecidableEq, Repr

/-- `phy_reg_write` of the register, if the ioctl does what it is asked to. -/
def Board.phyRegWrite (chip : Chip) (b : Board) (value : BitVec 16) (ok : Bool) : Board :=
  if ok then b.setImr (value &&& chip.mask) else b

/-- `try_pattern`. -/
def Board.tryPattern (chip : Chip) (b : Board) (pattern : BitVec 16) (write read : Bool) :
    Board × Bool :=
  let b' := b.phyRegWrite chip pattern write
  (b', write && read && b'.station.regs imr == pattern)

/-- `rail_witness_arm`, and whether it returns `ESP_OK`. -/
def Board.arm (chip : Chip) (b : Board) (io : ArmIo) : Board × Bool :=
  let b := { b with handle := true }
  let (b, ok) := b.tryPattern chip witnessPatternPrimary io.write1 io.read1
  if ok then ({ b with pattern := witnessPatternPrimary, lastRewriteUs := b.nowUs }, true)
  else
    let (b, ok) := b.tryPattern chip witnessPatternFallback io.write2 io.read2
    if ok then ({ b with pattern := witnessPatternFallback, lastRewriteUs := b.nowUs }, true)
    else ({ b with pattern := 0 }, false)

/-- The pattern is there and it is time to write it again. -/
def Board.due (b : Board) : Bool :=
  b.pattern != 0 && b.handle && decide (rewriteIntervalUs ≤ b.nowUs - b.lastRewriteUs)

/-- `rail_witness_tick`. -/
def Board.tick (chip : Chip) (b : Board) (ok : Bool) : Board :=
  if b.due then { b with lastRewriteUs := b.nowUs }.phyRegWrite chip b.pattern ok else b

/-! ## Boots -/

/-- The next boot up to the verdict of its probe: statics are as they are initialised. -/
def Board.boot (chip : Chip) (b : Board) (phy : Phy) : Board :=
  let (phy, probe) := railWitnessProbe Phy.wire phy (some chip.phyAddr)
  { b with
    station := phy.station
    pattern := 0
    handle := false
    lastRewriteUs := 0
    nowUs := 0
    rail := probe.result }

inductive Event where
  /-- a reset at the EN pin, with these bits of a frame of the driver on the wire, and a boot -/
  | enReset (cut : List Bool)
  /-- the supply goes and comes back, and a boot; the PHY is up after so many polls of its probe -/
  | powerCycle (asleep : Nat)
  /-- `esp_eth_driver_install`, "whose PHY init soft-resets the chip" -/
  | driverInstall
  | arm (io : ArmIo)
  | tick (ok : Bool)
  | pass (us : Nat)

/-- The PHY behind a drop of the supply. -/
def Station.powerOn (s : Station) : Station where
  addr := s.addr
  regs := Function.update s.regs imr 0
  phase := .preamble 0
  short := by decide

def Board.step (chip : Chip) (b : Board) : Event → Board
  | .enReset cut => b.boot chip ⟨0, b.station.feed cut⟩
  | .powerCycle asleep => b.boot chip ⟨asleep, Station.powerOn b.station⟩
  | .driverInstall => b.setImr 0
  | .arm io => (b.arm chip io).1
  | .tick ok => b.tick chip ok
  | .pass us => { b with nowUs := b.nowUs + us }

/-- The frame a reset cuts off does not write a register. -/
def Board.Ok (b : Board) : Event → Prop
  | .enReset cut => (b.station.feed cut).sync.regs = b.station.regs
  | _ => True

/-! ## What has been written -/

/-- What an event writes to the register, in order. -/
def Board.writes (chip : Chip) (b : Board) : Event → List (BitVec 16)
  | .arm io =>
    (if io.write1 then [witnessPatternPrimary] else []) ++
      (if !(b.tryPattern chip witnessPatternPrimary io.write1 io.read1).2 && io.write2 then
        [witnessPatternFallback] else [])
  | .tick ok => if b.due && ok then [b.pattern] else []
  | _ => []

/-- The value last written since the PHY last lost its registers. -/
def Board.written (chip : Chip) (b : Board) (e : Event) (last : Option (BitVec 16)) :
    Option (BitVec 16) :=
  match e with
  | .powerCycle _ | .driverInstall => none
  | _ => (b.writes chip e).getLast?.or last

/-- A board that has just been switched on: nothing is in the register, and nothing is armed. -/
structure Board.Fresh (chip : Chip) (b : Board) : Prop where
  idle : b.station.Idle
  answers : Answers chip.phyAddr b.station.addr b.station.regs
  empty : b.station.regs imr = 0
  unarmed : b.pattern = 0

/-- The PHY is in front of a frame and has its identifier, and its register holds what holds of
    the value last written. -/
structure Inv (chip : Chip) (s : Board × Option (BitVec 16)) : Prop where
  idle : s.1.station.Idle
  answers : Answers chip.phyAddr s.1.station.addr s.1.station.regs
  holds : s.1.station.regs imr = (s.2.getD 0) &&& chip.mask
  written : ∀ v ∈ s.2, v = witnessPatternPrimary ∨ v = witnessPatternFallback
  pattern : s.1.pattern = 0 ∨ s.1.pattern = witnessPatternPrimary ∨
    s.1.pattern = witnessPatternFallback

section

variable {chip : Chip} {b : Board} {s : Board × Option (BitVec 16)} {phy : Phy} {e : Event}
  {io : ArmIo} {v : BitVec 16} {ok : Bool}

/-! ## The register -/

theorem answers_update {addr : BitVec 5} {regs : BitVec 5 → BitVec 16} :
    Answers chip.phyAddr addr (Function.update regs imr v) ↔ Answers chip.phyAddr addr regs := by
  have hid1 : Function.update regs imr v 0x02 = regs 0x02 := Function.update_of_ne (by decide) _ _
  have hid2 : Function.update regs imr v 0x03 = regs 0x03 := Function.update_of_ne (by decide) _ _
  rw [Answers, Answers, hid1, hid2]

/-- Neither pattern is a part of the other. -/
theorem verdict_part (chip : Chip) (hv : v = witnessPatternPrimary ∨ v = witnessPatternFallback) :
    (verdict (v &&& chip.mask) = .held ↔ v &&& chip.mask = v) ∧
      (verdict (v &&& chip.mask) = .dropped ↔ v &&& chip.mask = 0) := by
  have hbit : ∀ i, v.getLsbD i = false → (v &&& chip.mask).getLsbD i = false := fun i hi => by
    rw [BitVec.getLsbD_and, hi, Bool.false_and]
  have hother : (v &&& chip.mask = witnessPatternPrimary ∨
      v &&& chip.mask = witnessPatternFallback) ↔ v &&& chip.mask = v := by
    rcases hv with rfl | rfl
    · refine or_iff_left fun h => ?_
      have hone := hbit 1 (by decide)
      rw [h] at hone
      exact absurd hone (by decide)
    · refine or_iff_right fun h => ?_
      have hzero := hbit 0 (by decide)
      rw [h] at hzero
      exact absurd hzero (by decide)
  have hne : v ≠ 0 := by
    rcases hv with rfl | rfl <;> decide
  unfold verdict
  rw [if_congr hother rfl rfl]
  by_cases hwhole : v &&& chip.mask = v
  · rw [if_pos hwhole, hwhole]
    exact ⟨iff_of_true rfl rfl, iff_of_false (by simp) hne⟩
  · rw [if_neg hwhole]
    by_cases hnone : v &&& chip.mask = 0
    · rw [if_pos hnone]
      exact ⟨iff_of_false (by simp) hwhole, iff_of_true rfl hnone⟩
    · rw [if_neg hnone]
      exact ⟨iff_of_false (by simp) hwhole, iff_of_false (by simp) hnone⟩

/-! ## A boot -/

theorem boot_station (b : Board) (chip : Chip) (phy : Phy) (h : phy.station.Idle ∨ phy.asleep = 0) :
    (b.boot chip phy).station.Idle ∧ (b.boot chip phy).station.addr = phy.station.addr ∧
      (b.boot chip phy).station.regs = phy.station.sync.regs :=
  probe_kept phy h chip.phyAddr

/-- What a boot makes of a PHY that is looked for. -/
theorem boot_rail (b : Board) (phy : Phy)
    (ha : Answers chip.phyAddr phy.station.addr phy.station.sync.regs) :
    (b.boot chip phy).rail =
      if phyIdPollIntervalMs * phy.lost ≤ phyIdTimeoutMs then verdict (phy.station.sync.regs imr)
      else .unknown := by
  have hprobe := congrArg Probe.result (probe_phy phy chip.phyAddr)
  have hrail : (b.boot chip phy).rail =
      (railWitnessProbe Phy.wire phy (some chip.phyAddr)).2.result := rfl
  rw [hrail, hprobe, found]
  by_cases htime : phyIdPollIntervalMs * phy.lost ≤ phyIdTimeoutMs
  · rw [if_pos ⟨ha, htime⟩, if_pos htime]
    rfl
  · rw [if_neg fun hboth => htime hboth.2, if_neg htime]

/-! ## One event -/

/-- The PHY behind some writes. -/
def putAll (chip : Chip) (b : Board) (values : List (BitVec 16)) : Board :=
  values.foldl (fun b v => b.setImr (v &&& chip.mask)) b

/-- An event of a boot that is running does to the PHY what it writes. -/
theorem step_station (chip : Chip) (b : Board) (h : ∀ cut, e ≠ .enReset cut)
    (h' : ∀ n, e ≠ .powerCycle n) (h'' : e ≠ .driverInstall) :
    (b.step chip e).station = (putAll chip b (b.writes chip e)).station ∧
      (b.step chip e).rail = b.rail := by
  cases e with
  | enReset cut => exact absurd rfl (h cut)
  | powerCycle n => exact absurd rfl (h' n)
  | driverInstall => exact absurd rfl h''
  | pass us => exact ⟨rfl, rfl⟩
  | tick ok =>
    simp only [Board.step, Board.tick, Board.writes, Board.phyRegWrite]
    cases b.due <;> cases ok <;> exact ⟨rfl, rfl⟩
  | arm io =>
    obtain ⟨write1, read1, write2, read2⟩ := io
    have hfirst : (({ b with handle := true } : Board).tryPattern chip witnessPatternPrimary
        write1 read1).2 = (b.tryPattern chip witnessPatternPrimary write1 read1).2 := by
      cases write1 <;> rfl
    simp only [Board.step, Board.arm, Board.writes, hfirst]
    cases (b.tryPattern chip witnessPatternPrimary write1 read1).2 with
    | true => cases write1 <;> exact ⟨rfl, rfl⟩
    | false =>
      simp only [Bool.false_eq_true, if_false, Bool.not_false, Bool.true_and]
      split <;> cases write1 <;> cases write2 <;> exact ⟨rfl, rfl⟩

/-- The register behind some writes holds what holds of the last of them. -/
theorem putAll_spec (values : List (BitVec 16)) (b : Board) (last : Option (BitVec 16))
    (h : b.station.regs imr = last.getD 0 &&& chip.mask) :
    (putAll chip b values).station.phase = b.station.phase ∧
      (putAll chip b values).station.addr = b.station.addr ∧
      (Answers chip.phyAddr b.station.addr (putAll chip b values).station.regs ↔
        Answers chip.phyAddr b.station.addr b.station.regs) ∧
      (putAll chip b values).station.regs imr =
        (values.getLast?.or last).getD 0 &&& chip.mask := by
  induction values generalizing b last with
  | nil => exact ⟨rfl, rfl, Iff.rfl, h⟩
  | cons v values ih =>
    obtain ⟨hphase, haddr, hanswers, hvalue⟩ := ih (b.setImr (v &&& chip.mask)) (some v)
      (b.setImr_regs _)
    refine ⟨hphase, haddr, hanswers.trans answers_update, hvalue.trans ?_⟩
    rw [List.getLast?_cons]
    cases values.getLast? <;> rfl

/-- Only patterns are written. -/
theorem mem_writes (hpattern : b.pattern = 0 ∨ b.pattern = witnessPatternPrimary ∨
    b.pattern = witnessPatternFallback) (hv : v ∈ b.writes chip e) :
    v = witnessPatternPrimary ∨ v = witnessPatternFallback := by
  cases e with
  | arm io =>
    rcases List.mem_append.mp hv with hv | hv
    · split at hv
      · exact .inl (List.mem_singleton.mp hv)
      · exact absurd hv List.not_mem_nil
    · split at hv
      · exact .inr (List.mem_singleton.mp hv)
      · exact absurd hv List.not_mem_nil
  | tick ok =>
    simp only [Board.writes] at hv
    split at hv
    · rename_i hdue
      obtain rfl := List.mem_singleton.mp hv
      have hne : b.pattern ≠ 0 := by
        intro hzero
        simp [Board.due, hzero] at hdue
      exact hpattern.resolve_left hne
    · exact absurd hv List.not_mem_nil
  | enReset cut => exact absurd hv List.not_mem_nil
  | powerCycle n => exact absurd hv List.not_mem_nil
  | driverInstall => exact absurd hv List.not_mem_nil
  | pass us => exact absurd hv List.not_mem_nil

theorem step_pattern (h : b.pattern = 0 ∨ b.pattern = witnessPatternPrimary ∨
    b.pattern = witnessPatternFallback) (e : Event) :
    (b.step chip e).pattern = 0 ∨ (b.step chip e).pattern = witnessPatternPrimary ∨
      (b.step chip e).pattern = witnessPatternFallback := by
  cases e with
  | enReset cut => exact .inl rfl
  | powerCycle n => exact .inl rfl
  | driverInstall => exact h
  | pass us => exact h
  | tick ok =>
    simp only [Board.step, Board.tick, Board.phyRegWrite]
    cases b.due <;> cases ok <;> exact h
  | arm io =>
    simp only [Board.step, Board.arm]
    split
    · exact .inr (.inl rfl)
    · split
      · exact .inr (.inr rfl)
      · exact .inl rfl

theorem Inv.running (h : Inv chip s) (hnot : ∀ cut, e ≠ .enReset cut)
    (hnot' : ∀ n, e ≠ .powerCycle n) (hnot'' : e ≠ .driverInstall) :
    Inv chip (watch (Board.step chip) (Board.written chip) s e) := by
  have hstation := (step_station chip s.1 hnot hnot' hnot'').1
  obtain ⟨hphase, haddr, hanswers, hvalue⟩ := putAll_spec (s.1.writes chip e) s.1 s.2 h.holds
  have hwritten : s.1.written chip e s.2 = (s.1.writes chip e).getLast?.or s.2 := by
    cases e with
    | powerCycle n => exact absurd rfl (hnot' n)
    | driverInstall => exact absurd rfl hnot''
    | _ => rfl
  constructor
  · obtain ⟨ones, hones⟩ := h.idle
    exact ⟨ones, by rw [Lib.watch_fst, hstation, hphase, hones]⟩
  · rw [Lib.watch_fst, hstation, haddr]
    exact hanswers.mpr h.answers
  · rw [Lib.watch_fst, Lib.watch_snd, hstation, hwritten]
    exact hvalue
  · intro v hv
    rw [Lib.watch_snd, hwritten] at hv
    cases hlast : (s.1.writes chip e).getLast? with
    | none =>
      rw [hlast] at hv
      exact h.written v hv
    | some w =>
      rw [hlast] at hv
      obtain rfl := Option.some.inj hv
      exact mem_writes h.pattern (List.mem_of_getLast? hlast)
  · exact step_pattern h.pattern e

/-- Behind an EN reset the PHY has the registers it had. -/
theorem boot_enReset {cut : List Bool} (h : Inv chip s) (hok : s.1.Ok (.enReset cut)) :
    (s.1.step chip (.enReset cut)).station.Idle ∧
      (s.1.step chip (.enReset cut)).station.addr = s.1.station.addr ∧
      (s.1.step chip (.enReset cut)).station.regs = s.1.station.regs ∧
      (s.1.step chip (.enReset cut)).rail = verdict (s.1.station.regs imr) := by
  obtain ⟨hidle, haddr, hregs⟩ := boot_station s.1 chip ⟨0, s.1.station.feed cut⟩
    (.inr rfl)
  have hsync : (s.1.station.feed cut).sync.regs = s.1.station.regs := hok
  have haddr' : (s.1.station.feed cut).addr = s.1.station.addr := Lib.Mdio.Station.addr_feed
  refine ⟨hidle, haddr.trans haddr', hregs.trans hsync, ?_⟩
  have hlost : (⟨0, s.1.station.feed cut⟩ : Phy).lost ≤ 1 := by
    simp only [Phy.lost]
    split <;> decide
  have htime : phyIdPollIntervalMs * (⟨0, s.1.station.feed cut⟩ : Phy).lost ≤ phyIdTimeoutMs :=
    Nat.le_trans (Nat.mul_le_mul_left _ hlost) (by decide)
  have hanswers : Answers chip.phyAddr (s.1.station.feed cut).addr
      (s.1.station.feed cut).sync.regs := by
    rw [haddr', hsync]
    exact h.answers
  have hrail : (s.1.step chip (.enReset cut)).rail = _ :=
    boot_rail s.1 ⟨0, s.1.station.feed cut⟩ hanswers
  rw [if_pos htime, hsync] at hrail
  exact hrail

/-- Behind a drop of the supply it has nothing in the one that counts. -/
theorem boot_powerCycle {n : Nat} (h : Inv chip s) :
    (s.1.step chip (.powerCycle n)).station.Idle ∧
      (s.1.step chip (.powerCycle n)).station.addr = s.1.station.addr ∧
      (s.1.step chip (.powerCycle n)).station.regs =
        Function.update s.1.station.regs imr 0 ∧
      (s.1.step chip (.powerCycle n)).rail =
        if phyIdPollIntervalMs * n ≤ phyIdTimeoutMs then .dropped else .unknown := by
  have hfront : (Station.powerOn s.1.station).Idle := ⟨0, rfl⟩
  have hsync : (Station.powerOn s.1.station).sync.regs =
      Function.update s.1.station.regs imr 0 := Lib.Mdio.Station.sync_regs hfront
  obtain ⟨hidle, haddr, hregs⟩ := boot_station s.1 chip
    ⟨n, Station.powerOn s.1.station⟩ (.inl hfront)
  refine ⟨hidle, haddr, hregs.trans hsync, ?_⟩
  have hlost : (⟨n, Station.powerOn s.1.station⟩ : Phy).lost = n := by
    simp [Phy.lost, hfront]
  have hanswers : Answers chip.phyAddr (Station.powerOn s.1.station).addr
      (Station.powerOn s.1.station).sync.regs := by
    rw [hsync]
    exact answers_update.mpr h.answers
  have hrail : (s.1.step chip (.powerCycle n)).rail = _ :=
    boot_rail s.1 ⟨n, Station.powerOn s.1.station⟩ hanswers
  rw [hlost, hsync, Function.update_self] at hrail
  exact hrail

/-- **One event** keeps the invariant. -/
theorem Inv.step (h : Inv chip s) (hok : s.1.Ok e) :
    Inv chip (watch (Board.step chip) (Board.written chip) s e) := by
  cases e with
  | enReset cut =>
    obtain ⟨hidle, haddr, hregs, -⟩ := boot_enReset h hok
    refine ⟨hidle, ?_, ?_, h.written, .inl rfl⟩
    · rw [Lib.watch_fst, haddr, hregs]
      exact h.answers
    · rw [Lib.watch_fst, hregs]
      exact h.holds
  | powerCycle n =>
    obtain ⟨hidle, haddr, hregs, -⟩ := boot_powerCycle (n := n) h
    refine ⟨hidle, ?_, ?_, fun v hv => absurd hv (Option.not_mem_none v), .inl rfl⟩
    · rw [Lib.watch_fst, haddr, hregs]
      exact answers_update.mpr h.answers
    · rw [Lib.watch_fst, hregs, Function.update_self]
      exact (BitVec.zero_and).symm
  | driverInstall =>
    refine ⟨h.idle, answers_update.mpr h.answers, ?_, fun v hv => absurd hv (Option.not_mem_none v),
      h.pattern⟩
    exact (s.1.setImr_regs 0).trans (BitVec.zero_and).symm
  | arm io => exact h.running (by simp) (by simp) (by simp)
  | tick ok => exact h.running (by simp) (by simp) (by simp)
  | pass us => exact h.running (by simp) (by simp) (by simp)

/-- What an event tells of the rail: a boot, what it should; any other, nothing new. -/
def Told (chip : Chip) (s : Board × Option (BitVec 16)) (e : Event) : Prop :=
  match e with
  | .enReset _ =>
      ((s.1.step chip e).rail = .held ↔ ∃ v ∈ s.2, v &&& chip.mask = v) ∧
        ((s.1.step chip e).rail = .dropped ↔ ∀ v ∈ s.2, v &&& chip.mask = 0)
  | .powerCycle n =>
      (s.1.step chip e).rail =
        if phyIdPollIntervalMs * n ≤ phyIdTimeoutMs then .dropped else .unknown
  | _ => (s.1.step chip e).rail = s.1.rail

theorem Inv.told (h : Inv chip s) (hok : s.1.Ok e) : Told chip s e := by
  cases e with
  | enReset cut =>
    obtain ⟨-, -, -, hrail⟩ := boot_enReset h hok
    rw [h.holds] at hrail
    unfold Told
    dsimp only
    rw [hrail]
    cases hlast : s.2 with
    | none => simp [verdict, witnessPatternPrimary, witnessPatternFallback]
    | some v =>
      simpa using verdict_part chip (h.written v hlast)
  | powerCycle n => exact (boot_powerCycle h).2.2.2
  | driverInstall => rfl
  | arm io => exact (step_station chip s.1 (by simp) (by simp) (by simp)).2
  | tick ok => exact (step_station chip s.1 (by simp) (by simp) (by simp)).2
  | pass us => rfl

/-- **Where no pattern holds**, the boot after the one that found so says DROPPED of a supply that
    never did, if the register keeps no bit of what was tried last. -/
theorem arm_unsupported (h : Inv chip s) (hfail : (s.1.arm chip {}).2 = false)
    (cut : List Bool) (hok : (s.1.arm chip {}).1.Ok (.enReset cut)) :
    ((s.1.arm chip {}).1.step chip (.enReset cut)).rail =
      if witnessPatternFallback &&& chip.mask = 0 then .dropped else .unknown := by
  have hinv : Inv chip (watch (Board.step chip) (Board.written chip) s (.arm {})) :=
    h.step trivial
  have htold := hinv.told (e := .enReset cut) hok
  have hnot : (s.1.tryPattern chip witnessPatternPrimary true true).2 = false ∧
      witnessPatternFallback &&& chip.mask ≠ witnessPatternFallback := by
    simp only [Board.arm, Board.tryPattern, Board.phyRegWrite, if_true, Board.setImr_regs,
      Bool.true_and] at hfail ⊢
    split at hfail
    · exact absurd hfail (by simp)
    · rename_i hfirst
      split at hfail
      · exact absurd hfail (by simp)
      · rename_i hsecond
        exact ⟨Bool.not_eq_true _ ▸ hfirst, fun heq => hsecond (beq_iff_eq.mpr heq)⟩
  have hlast : s.1.written chip (.arm {}) s.2 = some witnessPatternFallback := by
    simp only [Board.written, Board.writes, if_true, hnot.1]
    rfl
  obtain ⟨hheld, hdropped⟩ := htold
  rw [Lib.watch_fst, Lib.watch_snd, hlast] at hheld hdropped
  have hnever : ¬ ∃ v ∈ some witnessPatternFallback, v &&& chip.mask = v := by
    rintro ⟨v, hv, heq⟩
    obtain rfl := Option.some.inj hv
    exact hnot.2 heq
  change (Board.step chip (s.1.step chip (.arm {})) (.enReset cut)).rail = _
  cases hrail : (Board.step chip (s.1.step chip (.arm {})) (.enReset cut)).rail with
  | held => exact absurd (hheld.mp hrail) hnever
  | dropped =>
    have hzero := hdropped.mp hrail _ rfl
    rw [if_pos hzero]
  | unknown =>
    refine (if_neg fun hzero => ?_).symm
    have hall : ∀ v ∈ some witnessPatternFallback, v &&& chip.mask = 0 := by
      rintro v hv
      obtain rfl := Option.some.inj hv
      exact hzero
    exact absurd (hrail.symm.trans (hdropped.mpr hall)) (by simp)

end

/-- The PHY of this board: "writing 0xFFFF and reading back: 0x80FF". -/
def lan8720 : Chip := ⟨0x80FF, 1⟩

/-- The board when it is switched on. -/
def switchedOn : Board where
  station :=
    { addr := 1
      regs := fun r => if r = 0x02 then 0x0007 else if r = 0x03 then 0xC0F1 else 0
      phase := .preamble 0
      short := by decide }
  pattern := 0
  handle := false
  lastRewriteUs := 0
  nowUs := 0
  rail := .unknown

end Rail
end Wt32Router
