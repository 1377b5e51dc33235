import Wt32Router.Lib.Mdio
import Wt32Router.Reset.Log

/-!
# The probe of the rail witness

`main/rail_witness.c` asks the Ethernet PHY, before its driver resets it, whether a register still
holds what the boot before put there. The frames are made by hand, pulse by pulse, and the module
comes "written to be incapable of aborting": what it cannot establish is `RAIL_WITNESS_UNKNOWN`.

What hangs on the two pins is a `Wire`, of which nothing is assumed. A `Phy` is one: a station
that may still be coming up, and may have been left in the middle of a frame.

> **`mdio_reads`**: a read brings the register, and 0xFFFF from a PHY that is not up or was
> in the middle of a frame.

> **`probe_phy`**: the probe's verdict on a PHY, however long it takes to come up.
-/

namespace Wt32Router
namespace Rail

open Lib.Mdio (Station msbFirst ofBits shiftIn)

/-! ## The source's constants -/

def phyRegIdr1 : BitVec 8 := 0x02
def phyRegIdr2 : BitVec 8 := 0x03
def phyRegImr : BitVec 8 := 0x1E
def phyOuiSmsc : BitVec 32 := 0x1F0
def witnessPatternPrimary : BitVec 16 := 0x8001
def witnessPatternFallback : BitVec 16 := 0x00AA
def phyIdPollIntervalMs : Nat := 10
def phyIdTimeoutMs : Nat := 500

/-- `rail_witness_t`. -/
inductive RailWitness where
  | unknown
  | held
  | dropped
deriving DecidableEq, Repr

/-- What `app_main` hands on to `reset_log_init`. -/
def RailWitness.reset : RailWitness → Reset.Rail
  | .held => .held
  | .dropped => .dropped
  | .unknown => .unknown

/-- Whatever is at the other end of the two pins. -/
structure Wire (σ : Type*) where
  /-- a rising edge of MDC; MDIO is driven with this level, or let go -/
  edge : σ → Option Bool → σ
  /-- what `gpio_get_level` finds on MDIO then -/
  level : σ → Bool
  /-- a `vTaskDelay` of `PHY_ID_POLL_INTERVAL_MS` -/
  wait : σ → σ

/-! ## MDIO by hand

`mdio_drive` and `mdio_release` are in the argument of `edge`: a pulse out drives the line, and a
pulse in does not. -/

section

variable {σ : Type*} (w : Wire σ)

def mdcPulseOut (s : σ) (level : Bool) : σ := w.edge s (some level)

def mdcPulseIn (s : σ) : σ × Bool :=
  let s := w.edge s none
  (s, w.level s)

/-- `mdio_write_bits`: bit `count - 1` comes first. -/
def mdioWriteBits (s : σ) (value : BitVec 32) : Nat → σ
  | 0 => s
  | count + 1 => mdioWriteBits (mdcPulseOut w s (value.getLsbD count)) value count

/-- The loop that reads a value, bit by bit. -/
def mdioReadBits (s : σ) (value : BitVec 16) : Nat → σ × BitVec 16
  | 0 => (s, value)
  | n + 1 =>
    let (s, bit) := mdcPulseIn w s
    mdioReadBits s (shiftIn value bit) n

/-- `mdio_read_reg`. -/
def mdioReadReg (s : σ) (phyAddr regAddr : BitVec 8) : σ × BitVec 16 :=
  let s := mdioWriteBits w s 0xFFFFFFFF 32
  let s := mdioWriteBits w s 0x1 2
  let s := mdioWriteBits w s 0x2 2
  let s := mdioWriteBits w s ((phyAddr &&& 0x1F).setWidth 32) 5
  let s := mdioWriteBits w s ((regAddr &&& 0x1F).setWidth 32) 5
  -- one clock of turnaround, "not two"
  let s := (mdcPulseIn w s).1
  let (s, value) := mdioReadBits w s 0 16
  ((mdcPulseIn w s).1, value)

/-! ## The probe -/

/-- The identifier as the driver of the PHY computes it. -/
def ouiOf (id1 id2 : BitVec 16) : BitVec 32 :=
  (id1.setWidth 32 <<< 6) ||| (id2 >>> 10).setWidth 32

/-- `phy_responds`, with `s_last_id1` and `s_last_id2`. -/
def phyResponds (s : σ) (phyAddr : BitVec 8) : σ × BitVec 16 × BitVec 16 :=
  let (s, id1) := mdioReadReg w s phyAddr phyRegIdr1
  let (s, id2) := mdioReadReg w s phyAddr phyRegIdr2
  (s, id1, id2)

/-- What a value of the register says. -/
def verdict (imr : BitVec 16) : RailWitness :=
  if imr = witnessPatternPrimary ∨ imr = witnessPatternFallback then .held
  else if imr = 0x0000 then .dropped
  else .unknown

/-- What the probe knows when it is done. -/
structure Probe where
  result : RailWitness
  answered : Bool
  imr : BitVec 16
  waited : Nat
deriving DecidableEq, Repr

/-- The loop of `rail_witness_probe`. A pass adds to `waited`, so a `fuel` of as many passes as
    there is time for is never used up. -/
def probeLoop (phyAddr : BitVec 8) : Nat → σ → Nat → σ × Probe
  | 0, s, waited => (s, ⟨.unknown, false, 0, waited⟩)
  | fuel + 1, s, waited =>
    if phyIdTimeoutMs < waited then (s, ⟨.unknown, false, 0, waited⟩)
    else
      let (s, id1, id2) := phyResponds w s phyAddr
      if ouiOf id1 id2 = phyOuiSmsc then
        let (s, imr) := mdioReadReg w s phyAddr phyRegImr
        (s, ⟨verdict imr, true, imr, waited⟩)
      else probeLoop phyAddr fuel (w.wait s) (waited + phyIdPollIntervalMs)

/-- `rail_witness_probe` of a PHY at an address, if there is a configuration. -/
def railWitnessProbe (s : σ) : Option (BitVec 8) → σ × Probe
  | none => (s, ⟨.unknown, false, 0, 0⟩)
  | some phyAddr => probeLoop w phyAddr (phyIdTimeoutMs / phyIdPollIntervalMs + 2) s 0

end

/-! ## A PHY on the wire -/

/-- A PHY: it sleeps through so many polls more, and until then the line is pulled up. -/
structure Phy where
  asleep : Nat
  station : Station

def Phy.wire : Wire Phy where
  edge p drive :=
    if p.asleep = 0 then
      { p with station := p.station.edge (drive.getD p.station.line) }
    else p
  level p := p.asleep != 0 || p.station.line
  wait p := { p with asleep := p.asleep - 1 }

section

variable {s : Station} {phyAddr regAddr : BitVec 8} {n : Nat}

/-! ## Reads -/

theorem mdioWriteBits_awake (s : Station) (value : BitVec 32) (n : Nat) :
    mdioWriteBits Phy.wire ⟨0, s⟩ value n =
      ⟨0, s.feed ((List.range n).reverse.map value.getLsbD)⟩ := by
  induction n generalizing s with
  | zero => rfl
  | succ n ih =>
    have hpulse : mdcPulseOut Phy.wire ⟨0, s⟩ (value.getLsbD n) =
        ⟨0, s.edge (value.getLsbD n)⟩ := rfl
    rw [mdioWriteBits, hpulse, ih, List.range_succ, List.reverse_append, List.reverse_singleton,
      List.singleton_append, List.map_cons, Lib.Mdio.Station.feed_cons]

theorem mdioReadBits_awake (s : Station) (value : BitVec 16) (n : Nat) :
    mdioReadBits Phy.wire ⟨0, s⟩ value n =
      (⟨0, (Station.hear n s).1⟩, (Station.hear n s).2.foldl shiftIn value) := by
  induction n generalizing s value with
  | zero => rfl
  | succ n ih =>
    have hpulse : mdcPulseIn Phy.wire ⟨0, s⟩ = (⟨0, s.listen⟩, s.listen.line) := rfl
    rw [mdioReadBits, hpulse, Lib.Mdio.Station.hear_succ, List.foldl_cons]
    exact ih s.listen _

theorem addr_bits (a : BitVec 8) :
    (List.range 5).reverse.map ((a &&& 0x1F).setWidth 32).getLsbD = msbFirst (a.setWidth 5) := by
  refine List.map_congr_left fun i hi => ?_
  have hlt : i < 5 := by simpa using hi
  have hmask : (0x1F : BitVec 8).getLsbD i = true := by
    have hall : ∀ i : Fin 5, (0x1F : BitVec 8).getLsbD i = true := by decide
    exact hall ⟨i, hlt⟩
  have hwide : i < 32 := by omega
  rw [BitVec.getLsbD_setWidth, BitVec.getLsbD_and, BitVec.getLsbD_setWidth, hmask]
  simp [hlt, hwide]

/-- The pulses of a read are the clocks of a frame, and the value is the bits of the middle. -/
theorem mdioReadReg_frame (s : Station) (phyAddr regAddr : BitVec 8) :
    mdioReadReg Phy.wire ⟨0, s⟩ phyAddr regAddr =
      (⟨0, (s.readFrame (phyAddr.setWidth 5) (regAddr.setWidth 5)).1⟩,
        ofBits 16 (((s.readFrame (phyAddr.setWidth 5) (regAddr.setWidth 5)).2.drop 1).take 16)) := by
  have hones : (List.range 32).reverse.map (0xFFFFFFFF : BitVec 32).getLsbD =
      List.replicate 32 true := by decide
  have hstart : (List.range 2).reverse.map (0x1 : BitVec 32).getLsbD = [false, true] := by decide
  have hop : (List.range 2).reverse.map (0x2 : BitVec 32).getLsbD = [true, false] := by decide
  have hheader : Station.readHeader (phyAddr.setWidth 5) (regAddr.setWidth 5) =
      List.replicate 32 true ++ ([false, true] ++ ([true, false] ++
        (msbFirst (phyAddr.setWidth 5) ++ msbFirst (regAddr.setWidth 5)))) := by
    simp only [Station.readHeader, List.append_assoc, List.cons_append, List.nil_append]
  have hfront : mdioWriteBits Phy.wire (mdioWriteBits Phy.wire (mdioWriteBits Phy.wire
      (mdioWriteBits Phy.wire (mdioWriteBits Phy.wire ⟨0, s⟩ 0xFFFFFFFF 32) 0x1 2) 0x2 2)
        ((phyAddr &&& 0x1F).setWidth 32) 5) ((regAddr &&& 0x1F).setWidth 32) 5 =
      ⟨0, s.feed (Station.readHeader (phyAddr.setWidth 5) (regAddr.setWidth 5))⟩ := by
    rw [mdioWriteBits_awake, mdioWriteBits_awake, mdioWriteBits_awake, mdioWriteBits_awake,
      mdioWriteBits_awake, hones, hstart, hop, addr_bits, addr_bits, hheader,
      Lib.Mdio.Station.feed_append, Lib.Mdio.Station.feed_append, Lib.Mdio.Station.feed_append,
      Lib.Mdio.Station.feed_append]
  unfold mdioReadReg Station.readFrame
  dsimp only
  rw [hfront]
  generalize s.feed (Station.readHeader (phyAddr.setWidth 5) (regAddr.setWidth 5)) = t
  have hpulse : ∀ u : Station, (mdcPulseIn Phy.wire ⟨0, u⟩).1 = ⟨0, u.listen⟩ := fun _ => rfl
  rw [hpulse, mdioReadBits_awake, hpulse, Lib.Mdio.Station.hear_succ 17,
    Lib.Mdio.Station.hear_snoc 16, List.drop_succ_cons, List.drop_zero,
    List.take_left' (Lib.Mdio.Station.length_hear 16 _)]
  rfl

/-- A station that is up and in front of a frame. -/
theorem mdioReadReg_awake (s : Station) (phyAddr regAddr : BitVec 8) :
    (mdioReadReg Phy.wire ⟨0, s⟩ phyAddr regAddr).2 =
        (if s.Idle ∧ phyAddr.setWidth 5 = s.addr then s.regs (regAddr.setWidth 5) else 0xFFFF) ∧
      ∃ t, (mdioReadReg Phy.wire ⟨0, s⟩ phyAddr regAddr).1 = ⟨0, t⟩ ∧ t.Idle ∧
        t.addr = s.addr ∧ t.regs = s.sync.regs := by
  obtain ⟨hbits, hend⟩ := s.readFrame_spec (phyAddr.setWidth 5) (regAddr.setWidth 5)
  rw [mdioReadReg_frame]
  refine ⟨?_, _, rfl, hend⟩
  dsimp only
  rw [hbits]
  split
  · rw [List.drop_succ_cons, List.drop_zero,
      List.take_left' (Lib.Mdio.length_msbFirst _), Lib.Mdio.ofBits_msbFirst]
  · decide

/-- One that is not up leaves the line at 1. -/
theorem mdioReadReg_asleep {p : Phy} (h : p.asleep ≠ 0) (phyAddr regAddr : BitVec 8) :
    mdioReadReg Phy.wire p phyAddr regAddr = (p, 0xFFFF) := by
  have hedge : ∀ drive, Phy.wire.edge p drive = p := fun _ => if_neg h
  have hlevel : Phy.wire.level p = true := by simp [Phy.wire, h]
  have hout : ∀ value n, mdioWriteBits Phy.wire p value n = p := by
    intro value n
    induction n with
    | zero => rfl
    | succ n ih => rw [mdioWriteBits, mdcPulseOut, hedge, ih]
  have hin : mdcPulseIn Phy.wire p = (p, true) := by
    simp only [mdcPulseIn, hedge, hlevel]
  have hbits : ∀ value n, mdioReadBits Phy.wire p value n =
      (p, (List.replicate n true).foldl shiftIn value) := by
    intro value n
    induction n generalizing value with
    | zero => rfl
    | succ n ih =>
      rw [mdioReadBits, hin]
      exact ih _
  unfold mdioReadReg
  dsimp only
  rw [hout, hout, hout, hout, hout, hin]
  dsimp only
  rw [hbits, hin]
  have hones : (List.replicate 16 true).foldl shiftIn 0 = (0xFFFF : BitVec 16) := by decide
  exact Prod.ext rfl hones

/-! ## Reads behind each other -/

/-- Reads, one after the other. -/
def mdioReadRegs {σ : Type*} (w : Wire σ) : σ → List (BitVec 8 × BitVec 8) → List (BitVec 16)
  | _, [] => []
  | s, (phyAddr, regAddr) :: reads =>
    (mdioReadReg w s phyAddr regAddr).2 ::
      mdioReadRegs w (mdioReadReg w s phyAddr regAddr).1 reads

/-- What a station at this address with these registers has to say to a read. -/
def reading (addr : BitVec 5) (regs : BitVec 5 → BitVec 16) (read : BitVec 8 × BitVec 8) :
    BitVec 16 :=
  if read.1.setWidth 5 = addr then regs (read.2.setWidth 5) else 0xFFFF

theorem mdioReadRegs_idle (h : s.Idle) (reads : List (BitVec 8 × BitVec 8)) :
    mdioReadRegs Phy.wire ⟨0, s⟩ reads = reads.map (reading s.addr s.regs) := by
  induction reads generalizing s with
  | nil => rfl
  | cons read reads ih =>
    obtain ⟨phyAddr, regAddr⟩ := read
    obtain ⟨hvalue, t, hphy, hidle, haddr, hregs⟩ := mdioReadReg_awake s phyAddr regAddr
    have hread : (if s.Idle ∧ phyAddr.setWidth 5 = s.addr then s.regs (regAddr.setWidth 5)
        else 0xFFFF) = reading s.addr s.regs (phyAddr, regAddr) := by
      unfold reading
      by_cases ha : phyAddr.setWidth 5 = s.addr
      · rw [if_pos ⟨h, ha⟩, if_pos ha]
      · rw [if_neg fun hboth => ha hboth.2, if_neg ha]
    rw [mdioReadRegs, hphy, ih hidle, hvalue, haddr, hregs, Lib.Mdio.Station.sync_regs h,
      List.map_cons, hread]

/-- **Any reads of a station, wherever in a frame the last reset left it.** Every read but the
    first brings the register that is asked for, and 0xFFFF where no station has that address. The
    first does so too of a station in front of a frame. One in the middle of a frame it brings
    0xFFFF of, and the registers read after it are those the station has when that frame is
    over. -/
theorem mdio_reads (s : Station) (reads : List (BitVec 8 × BitVec 8)) :
    mdioReadRegs Phy.wire ⟨0, s⟩ reads =
      if s.Idle then reads.map (reading s.addr s.regs)
      else (reads.take 1).map (fun _ => 0xFFFF) ++
        (reads.drop 1).map (reading s.addr s.sync.regs) := by
  by_cases h : s.Idle
  · rw [if_pos h, mdioReadRegs_idle h]
  · rw [if_neg h]
    cases reads with
    | nil => rfl
    | cons read reads =>
      obtain ⟨phyAddr, regAddr⟩ := read
      obtain ⟨hvalue, t, hphy, hidle, haddr, hregs⟩ := mdioReadReg_awake s phyAddr regAddr
      rw [mdioReadRegs, hphy, mdioReadRegs_idle hidle, hvalue, if_neg fun hboth => h hboth.1,
        haddr, hregs]
      rfl

/-! ## The probe -/

/-- What a floating line reads as is not the identifier's first half. -/
theorem ouiOf_floating (id2 : BitVec 16) : ouiOf 0xFFFF id2 ≠ phyOuiSmsc := by
  intro h
  have hbit := congrArg (·.getLsbD 21) h
  have hlow : ((id2 >>> 10).setWidth 32).getLsbD 21 = false := by
    rw [BitVec.getLsbD_setWidth, BitVec.getLsbD_ushiftRight]
    simp
  have hhigh : (((0xFFFF : BitVec 16).setWidth 32) <<< 6).getLsbD 21 = true := by decide
  have hnone : phyOuiSmsc.getLsbD 21 = false := by decide
  simp only [ouiOf, BitVec.getLsbD_or, hlow, hhigh, hnone] at hbit
  exact absurd hbit (by decide)

/-- A station at this address with these registers is the PHY that is looked for. -/
def Answers (phyAddr : BitVec 8) (addr : BitVec 5) (regs : BitVec 5 → BitVec 16) : Prop :=
  phyAddr.setWidth 5 = addr ∧ ouiOf (regs 0x02) (regs 0x03) = phyOuiSmsc

instance {addr : BitVec 5} {regs : BitVec 5 → BitVec 16} : Decidable (Answers phyAddr addr regs) :=
  inferInstanceAs (Decidable (_ ∧ _))

/-- `phy_responds` of a station in front of a frame. -/
theorem phyResponds_idle (h : s.Idle) (phyAddr : BitVec 8) :
    (ouiOf (phyResponds Phy.wire ⟨0, s⟩ phyAddr).2.1 (phyResponds Phy.wire ⟨0, s⟩ phyAddr).2.2 =
        phyOuiSmsc ↔ Answers phyAddr s.addr s.regs) ∧
      ∃ t, (phyResponds Phy.wire ⟨0, s⟩ phyAddr).1 = ⟨0, t⟩ ∧ t.Idle ∧ t.addr = s.addr ∧
        t.regs = s.regs := by
  obtain ⟨hid1, t₁, hphy₁, hidle₁, haddr₁, hregs₁⟩ := mdioReadReg_awake s phyAddr phyRegIdr1
  obtain ⟨hid2, t₂, hphy₂, hidle₂, haddr₂, hregs₂⟩ := mdioReadReg_awake t₁ phyAddr phyRegIdr2
  rw [Lib.Mdio.Station.sync_regs h] at hregs₁
  rw [Lib.Mdio.Station.sync_regs hidle₁, hregs₁] at hregs₂
  rw [haddr₁] at haddr₂ hid2
  have hresponds : phyResponds Phy.wire ⟨0, s⟩ phyAddr =
      (⟨0, t₂⟩, (mdioReadReg Phy.wire ⟨0, s⟩ phyAddr phyRegIdr1).2,
        (mdioReadReg Phy.wire ⟨0, t₁⟩ phyAddr phyRegIdr2).2) := by
    unfold phyResponds
    dsimp only
    rw [hphy₁, hphy₂]
  rw [hresponds]
  refine ⟨?_, t₂, rfl, hidle₂, haddr₂, hregs₂⟩
  dsimp only
  rw [hid1, hid2, hregs₁]
  unfold Answers
  by_cases ha : phyAddr.setWidth 5 = s.addr
  · rw [if_pos ⟨h, ha⟩, if_pos ⟨hidle₁, ha⟩]
    exact (and_iff_right ha).symm
  · rw [if_neg fun hboth => ha hboth.2, if_neg fun hboth => ha hboth.2]
    exact iff_of_false (ouiOf_floating _) fun hboth => ha hboth.1

/-- `phy_responds` of a station in the middle of a frame: its first read is lost. -/
theorem phyResponds_cut (h : ¬s.Idle) (phyAddr : BitVec 8) :
    ouiOf (phyResponds Phy.wire ⟨0, s⟩ phyAddr).2.1 (phyResponds Phy.wire ⟨0, s⟩ phyAddr).2.2 ≠
        phyOuiSmsc ∧
      ∃ t, (phyResponds Phy.wire ⟨0, s⟩ phyAddr).1 = ⟨0, t⟩ ∧ t.Idle ∧ t.addr = s.addr ∧
        t.regs = s.sync.regs := by
  obtain ⟨hid1, t₁, hphy₁, hidle₁, haddr₁, hregs₁⟩ := mdioReadReg_awake s phyAddr phyRegIdr1
  obtain ⟨-, t₂, hphy₂, hidle₂, haddr₂, hregs₂⟩ := mdioReadReg_awake t₁ phyAddr phyRegIdr2
  rw [Lib.Mdio.Station.sync_regs hidle₁, hregs₁] at hregs₂
  rw [haddr₁] at haddr₂
  rw [if_neg fun hboth => h hboth.1] at hid1
  have hresponds : phyResponds Phy.wire ⟨0, s⟩ phyAddr =
      (⟨0, t₂⟩, (mdioReadReg Phy.wire ⟨0, s⟩ phyAddr phyRegIdr1).2,
        (mdioReadReg Phy.wire ⟨0, t₁⟩ phyAddr phyRegIdr2).2) := by
    unfold phyResponds
    dsimp only
    rw [hphy₁, hphy₂]
  rw [hresponds]
  refine ⟨?_, t₂, rfl, hidle₂, haddr₂, hregs₂⟩
  dsimp only
  rw [hid1]
  exact ouiOf_floating _

theorem phyResponds_asleep {p : Phy} (h : p.asleep ≠ 0) (phyAddr : BitVec 8) :
    phyResponds Phy.wire p phyAddr = (p, 0xFFFF, 0xFFFF) := by
  unfold phyResponds
  rw [mdioReadReg_asleep h]
  dsimp only
  rw [mdioReadReg_asleep h]

/-- The polls that come too early: until the PHY is up, and one more where it has to get out of
    a frame. -/
def Phy.lost (p : Phy) : Nat := p.asleep + if p.station.Idle then 0 else 1

/-- What the probe finds of a PHY that the first `lost` polls are too early for. -/
def found (phyAddr : BitVec 8) (addr : BitVec 5) (regs : BitVec 5 → BitVec 16) (lost : Nat) :
    Probe :=
  if Answers phyAddr addr regs ∧ phyIdPollIntervalMs * lost ≤ phyIdTimeoutMs then
    ⟨verdict (regs 0x1E), true, regs 0x1E, phyIdPollIntervalMs * lost⟩
  else ⟨.unknown, false, 0, phyIdTimeoutMs + phyIdPollIntervalMs⟩

theorem probeLoop_miss {p p' : Phy} {phyAddr : BitVec 8} {fuel waited : Nat}
    (hwaited : waited ≤ phyIdTimeoutMs) (hphy : (phyResponds Phy.wire p phyAddr).1 = p')
    (hoff : ouiOf (phyResponds Phy.wire p phyAddr).2.1 (phyResponds Phy.wire p phyAddr).2.2 ≠
      phyOuiSmsc) :
    probeLoop Phy.wire phyAddr (fuel + 1) p waited =
      probeLoop Phy.wire phyAddr fuel { p' with asleep := p'.asleep - 1 }
        (waited + phyIdPollIntervalMs) := by
  rw [probeLoop, if_neg (Nat.not_lt.mpr hwaited)]
  dsimp only
  rw [if_neg hoff, hphy]
  rfl

/-- The poll that a station in front of a frame answers. -/
theorem probeLoop_hit {polls fuel : Nat} (htime : phyIdPollIntervalMs * polls ≤ phyIdTimeoutMs)
    (hidle : s.Idle) (ha : Answers phyAddr s.addr s.regs) :
    (probeLoop Phy.wire phyAddr (fuel + 1) ⟨0, s⟩ (phyIdPollIntervalMs * polls)).2 =
      found phyAddr s.addr s.sync.regs (polls + (⟨0, s⟩ : Phy).lost) := by
  obtain ⟨hon, t, hphy, hidle', haddr, hregs⟩ := phyResponds_idle hidle phyAddr
  obtain ⟨himr, -⟩ := mdioReadReg_awake t phyAddr phyRegImr
  rw [if_pos ⟨hidle', ha.1.trans haddr.symm⟩, hregs] at himr
  have hlost : (⟨0, s⟩ : Phy).lost = 0 := by
    simp [Phy.lost, hidle]
  rw [hlost, Nat.add_zero, Lib.Mdio.Station.sync_regs hidle, found, if_pos ⟨ha, htime⟩,
    probeLoop, if_neg (Nat.not_lt.mpr htime)]
  dsimp only
  rw [if_pos (hon.mpr ha), hphy, himr]
  rfl

/-- The passes behind the first `polls`. -/
theorem probeLoop_phy (phyAddr : BitVec 8) (fuel polls : Nat) (p : Phy)
    (h : fuel + polls = 51) :
    (probeLoop Phy.wire phyAddr (fuel + 1) p (phyIdPollIntervalMs * polls)).2 =
      found phyAddr p.station.addr p.station.sync.regs (polls + p.lost) := by
  induction fuel generalizing polls p with
  | zero =>
    obtain rfl : polls = 51 := by omega
    have hlate : ¬(Answers phyAddr p.station.addr p.station.sync.regs ∧
        phyIdPollIntervalMs * (51 + p.lost) ≤ phyIdTimeoutMs) := by
      simp only [phyIdPollIntervalMs, phyIdTimeoutMs]
      omega
    rw [probeLoop, if_pos (by decide), found, if_neg hlate]
    rfl
  | succ fuel ih =>
    have htime : phyIdPollIntervalMs * polls ≤ phyIdTimeoutMs := by
      simp only [phyIdPollIntervalMs, phyIdTimeoutMs]
      omega
    have hnext : phyIdPollIntervalMs * polls + phyIdPollIntervalMs =
        phyIdPollIntervalMs * (polls + 1) := rfl
    have hrest := fun q : Phy => ih (polls + 1) q (by omega)
    obtain ⟨asleep, s⟩ := p
    cases asleep with
    | succ n =>
      have hresponds := phyResponds_asleep (p := ⟨n + 1, s⟩) (Nat.succ_ne_zero n) phyAddr
      rw [probeLoop_miss htime (congrArg Prod.fst hresponds)
        (by rw [hresponds]; exact ouiOf_floating _), hnext, hrest]
      dsimp only
      congr 1
      simp only [Phy.lost]
      omega
    | zero =>
      by_cases hidle : s.Idle
      · obtain ⟨hoff, t, hphy, hidle', haddr, hregs⟩ := phyResponds_idle hidle phyAddr
        have hsync : s.sync.regs = s.regs := Lib.Mdio.Station.sync_regs hidle
        have hlost : ∀ u : Station, u.Idle → (⟨0, u⟩ : Phy).lost = 0 := by
          intro u hu
          simp [Phy.lost, hu]
        by_cases ha : Answers phyAddr s.addr s.regs
        · exact probeLoop_hit htime hidle ha
        · rw [probeLoop_miss htime hphy (fun h => ha (hoff.mp h)), hnext, hrest]
          dsimp only
          rw [haddr, Lib.Mdio.Station.sync_regs hidle', hregs, hsync, found, found,
            if_neg fun hboth => ha hboth.1, if_neg fun hboth => ha hboth.1]
      · obtain ⟨hoff, t, hphy, hidle', haddr, hregs⟩ := phyResponds_cut hidle phyAddr
        rw [probeLoop_miss htime hphy hoff, hnext, hrest]
        dsimp only
        rw [haddr, Lib.Mdio.Station.sync_regs hidle', hregs]
        simp [Phy.lost, hidle, hidle']

/-- **The probe of a PHY**, up or still coming up, in front of a frame or in one that a reset cut
    off. If the PHY is the one that is looked for and no poll of the first half second is too
    late for it, the verdict is what its register says and the wait is that of the polls it lost.
    Otherwise nothing has answered, and that is no reading of the rail. -/
theorem probe_phy (p : Phy) (phyAddr : BitVec 8) :
    (railWitnessProbe Phy.wire p (some phyAddr)).2 =
      found phyAddr p.station.addr p.station.sync.regs p.lost := by
  have h := probeLoop_phy phyAddr 51 0 p rfl
  rw [Nat.zero_add] at h
  exact h

/-! ## What the probe leaves -/

/-- In front of a frame, with the same address and registers. -/
structure Kept (s t : Station) : Prop where
  idle : t.Idle
  addr : t.addr = s.addr
  regs : t.regs = s.regs

theorem Kept.trans {s t u : Station} (h : Kept s t) (h' : Kept t u) : Kept s u :=
  ⟨h'.idle, h'.addr.trans h.addr, h'.regs.trans h.regs⟩

theorem mdioReadReg_kept {p : Phy} (h : p.station.Idle) (phyAddr regAddr : BitVec 8) :
    Kept p.station (mdioReadReg Phy.wire p phyAddr regAddr).1.station := by
  obtain ⟨asleep, s⟩ := p
  cases asleep with
  | zero =>
    obtain ⟨-, t, hphy, hidle, haddr, hregs⟩ := mdioReadReg_awake s phyAddr regAddr
    rw [hphy]
    exact ⟨hidle, haddr, hregs.trans (Lib.Mdio.Station.sync_regs h)⟩
  | succ n =>
    rw [mdioReadReg_asleep (Nat.succ_ne_zero n)]
    exact ⟨h, rfl, rfl⟩

theorem phyResponds_kept {p : Phy} (h : p.station.Idle) (phyAddr : BitVec 8) :
    Kept p.station (phyResponds Phy.wire p phyAddr).1.station := by
  have hfirst := mdioReadReg_kept h phyAddr phyRegIdr1
  unfold phyResponds
  dsimp only
  generalize (mdioReadReg Phy.wire p phyAddr phyRegIdr1).1 = q at hfirst ⊢
  exact hfirst.trans (mdioReadReg_kept hfirst.idle phyAddr phyRegIdr2)

theorem probeLoop_kept {p : Phy} (h : p.station.Idle) (phyAddr : BitVec 8) (fuel waited : Nat) :
    Kept p.station (probeLoop Phy.wire phyAddr fuel p waited).1.station := by
  induction fuel generalizing p waited with
  | zero => exact ⟨h, rfl, rfl⟩
  | succ fuel ih =>
    have hpoll := phyResponds_kept h phyAddr
    rw [probeLoop]
    split
    · exact ⟨h, rfl, rfl⟩
    dsimp only
    generalize phyResponds Phy.wire p phyAddr = r at hpoll ⊢
    split
    · exact hpoll.trans (mdioReadReg_kept hpoll.idle phyAddr phyRegImr)
    · have hwait : Kept r.1.station (Phy.wire.wait r.1).station := ⟨hpoll.idle, rfl, rfl⟩
      exact (hpoll.trans hwait).trans (ih hwait.idle _)

/-- The probe leaves a PHY in front of a frame that was so, or was up. -/
theorem probe_kept (p : Phy) (h : p.station.Idle ∨ p.asleep = 0) (phyAddr : BitVec 8) :
    (railWitnessProbe Phy.wire p (some phyAddr)).1.station.Idle ∧
      (railWitnessProbe Phy.wire p (some phyAddr)).1.station.addr = p.station.addr ∧
      (railWitnessProbe Phy.wire p (some phyAddr)).1.station.regs = p.station.sync.regs := by
  have hfuel : phyIdTimeoutMs / phyIdPollIntervalMs + 2 = 51 + 1 := rfl
  unfold railWitnessProbe
  dsimp only
  rw [hfuel]
  by_cases hidle : p.station.Idle
  · obtain ⟨hend, haddr, hregs⟩ := probeLoop_kept hidle phyAddr (51 + 1) 0
    exact ⟨hend, haddr, hregs.trans (Lib.Mdio.Station.sync_regs hidle).symm⟩
  · obtain ⟨asleep, s⟩ := p
    obtain rfl : asleep = 0 := h.resolve_left hidle
    obtain ⟨hoff, t, hphy, hidle', haddr, hregs⟩ := phyResponds_cut hidle phyAddr
    obtain ⟨hend, haddr', hregs'⟩ := probeLoop_kept (p := ⟨0 - 1, t⟩) hidle' phyAddr 51
      (0 + phyIdPollIntervalMs)
    rw [probeLoop_miss (Nat.zero_le _) hphy hoff]
    exact ⟨hend, haddr'.trans haddr, hregs'.trans hregs⟩

end

end Rail
end Wt32Router
