import Wt32Router.Lib.Ascii
import Wt32Router.Lib.Runs
import Wt32Router.Lib.Throttle

/-!
# The load of the cores

`sys_monitor_tick` of `main/sys_monitor.c` reads the counters of the idle tasks once a second, and
takes what a core has not idled for its load. The counters are microseconds in 32 bits, which run
over every 71 minutes; the cycle counter runs over every 17 seconds.

> **`loads_measured`**: what is shown is the share of the time between the last two readings that a
> core has not been idle, rounded up to percents, and the frequency is the cycles between them, also
> where the counters have run over.

> **`load_le_hundred`**: no reading makes it more than 100.

The product `idle_delta * 100` has 32 bits as well, and runs over from 43 seconds on. Two readings
are that far apart only where forty of the ticks between them have failed, for want of room for the
list of tasks.
-/

namespace Wt32Router
namespace Sys

open Lib

/-! ## The module -/

/-- What `uxTaskGetSystemState` tells of a task. -/
structure TaskStatus where
  name : List UInt8
  runTimeCounter : BitVec 32
deriving DecidableEq, Repr

/-- What a tick reads. The list of tasks is empty where there was no room for it. -/
structure Reading where
  nowUs : Nat
  cycles : BitVec 32
  totalRt : BitVec 32
  tasks : List TaskStatus
deriving DecidableEq, Repr

variable {cores : Nat}

/-- The statics of `sys_monitor.c`, for so many cores. -/
structure SysMonitor (cores : Nat) where
  cpuPct : Fin cores → BitVec 8
  prevIdleRt : Fin cores → BitVec 32
  prevTotalRt : BitVec 32
  havePrev : Bool
  prevCycles : BitVec 32
  prevTimeUs : Nat
  cpuFreqMhz : BitVec 32

def SysMonitor.init : SysMonitor cores := ⟨fun _ => 0, fun _ => 0, 0, false, 0, 0, 0⟩

/-- The task is the idle task of this core: `IDLE` and its digit. -/
def isIdleTask (c : Fin cores) (name : List UInt8) : Bool :=
  name.take 4 == ascii "IDLE" && name.length == 5 && (name.getD 4 0).toNat == 48 + c.val

/-- The loop over the tasks. -/
def idleRt (tasks : List TaskStatus) (c : Fin cores) : BitVec 32 :=
  tasks.foldl (fun rt t => if isIdleTask c t.name then t.runTimeCounter else rt) 0

def loadOf (idleDelta totalDelta : BitVec 32) : BitVec 8 :=
  if totalDelta ≤ idleDelta then 0 else (100 - idleDelta * 100 / totalDelta).setWidth 8

/-- `sys_monitor_tick`. -/
def sysMonitorTick (s : SysMonitor cores) (r : Reading) : SysMonitor cores :=
  if r.tasks.length = 0 then s
  else
    { cpuPct := if s.havePrev ∧ r.totalRt ≠ s.prevTotalRt then fun c =>
          loadOf (idleRt r.tasks c - s.prevIdleRt c) (r.totalRt - s.prevTotalRt)
        else s.cpuPct
      cpuFreqMhz := if s.havePrev ∧ s.prevTimeUs < r.nowUs then
          BitVec.ofNat 32 ((r.cycles - s.prevCycles).toNat / (r.nowUs - s.prevTimeUs))
        else s.cpuFreqMhz
      prevIdleRt := idleRt r.tasks
      prevTotalRt := r.totalRt
      prevCycles := r.cycles
      prevTimeUs := r.nowUs
      havePrev := true }

/-! ## What there is to measure -/

/-- The counters, had they no end. -/
structure Meter (cores : Nat) where
  idle : Fin cores → Nat
  total : Nat
  cycles : Nat

/-- The last reading, and the two that the loads and the frequency are of. -/
structure Window (cores : Nat) where
  last : Option (Meter cores × Nat)
  loads : Option (Meter cores × Meter cores)
  clock : Option ((Meter cores × Nat) × (Meter cores × Nat))

def Window.none : Window cores := ⟨.none, .none, .none⟩

/-- A reading, with the meter it is of. -/
abbrev Tick (cores : Nat) : Type := Reading × Meter cores

def Window.next (_ : SysMonitor cores) (t : Tick cores) (w : Window cores) : Window cores :=
  if t.1.tasks.length = 0 then w
  else
    { last := some (t.2, t.1.nowUs)
      loads := match w.last with
        | some p => if t.2.total ≠ p.1.total then some (p.1, t.2) else w.loads
        | .none => w.loads
      clock := match w.last with
        | some p => if p.2 < t.1.nowUs then some (p, (t.2, t.1.nowUs)) else w.clock
        | .none => w.clock }

/-- The share of the time that a core has not been idle, in percent and rounded up. -/
def busy (w : Option (Meter cores × Meter cores)) (c : Fin cores) : Nat :=
  match w with
  | some (p, m) => 100 - (m.idle c - p.idle c) * 100 / (m.total - p.total)
  | none => 0

/-- The cycles in a microsecond. -/
def megahertz (w : Option ((Meter cores × Nat) × (Meter cores × Nat))) : Nat :=
  match w with
  | some (p, m) => (m.1.cycles - p.1.cycles) / (m.2 - p.2)
  | none => 0

/-- The counters show the meter. -/
structure Shows (r : Reading) (m : Meter cores) : Prop where
  idle : ∀ c : Fin cores, idleRt r.tasks c = Throttle.tickAt (m.idle c)
  total : r.totalRt = Throttle.tickAt m.total
  cycles : r.cycles = Throttle.tickAt m.cycles

/-- None of the counters has run round since, nor does the product of the load run over. -/
structure Follows (p m : Meter cores) : Prop where
  idle : ∀ c, p.idle c ≤ m.idle c ∧ m.idle c - p.idle c < 4294967296
  total : p.total ≤ m.total ∧ (m.total - p.total) * 100 < 4294967296
  cycles : p.cycles ≤ m.cycles ∧ m.cycles - p.cycles < 4294967296

/-- A tick that reads the meter, not too long behind the last one that did. -/
def Timely (s : SysMonitor cores × Window cores) (t : Tick cores) : Prop :=
  t.1.tasks.length ≠ 0 → Shows t.1 t.2 ∧ ∀ p, s.2.last = some p → Follows p.1 t.2

/-- What carries the run. -/
structure Measured (s : SysMonitor cores × Window cores) : Prop where
  have_prev : s.1.havePrev = s.2.last.isSome
  prev : ∀ p, s.2.last = some p → (∀ c, s.1.prevIdleRt c = Throttle.tickAt (p.1.idle c)) ∧
    s.1.prevTotalRt = Throttle.tickAt p.1.total ∧ s.1.prevCycles = Throttle.tickAt p.1.cycles ∧
      s.1.prevTimeUs = p.2
  loads : ∀ c, (s.1.cpuPct c).toNat = busy s.2.loads c
  clock : s.1.cpuFreqMhz.toNat = megahertz s.2.clock

section

variable {s : SysMonitor cores} {w : Window cores} {r : Reading} {p m : Meter cores}

/-! ## One load -/

/-- Where the product runs over, the quotient is too small and not too large. -/
theorem loadOf_le (idleDelta totalDelta : BitVec 32) :
    (loadOf idleDelta totalDelta).toNat ≤ 100 := by
  unfold loadOf
  split
  · exact Nat.zero_le _
  · rename_i hlt
    have hlt : idleDelta.toNat < totalDelta.toNat := Nat.lt_of_not_le hlt
    have hquot : (idleDelta * 100 / totalDelta).toNat ≤ 100 := by
      rw [BitVec.toNat_udiv, BitVec.toNat_mul]
      show idleDelta.toNat * 100 % 4294967296 / totalDelta.toNat ≤ 100
      have hpos : 0 < totalDelta.toNat := by omega
      refine Nat.le_of_lt_succ ((Nat.div_lt_iff_lt_mul hpos).mpr ?_)
      exact Nat.lt_of_le_of_lt (Nat.mod_le _ _) (by omega)
    rw [BitVec.toNat_setWidth, BitVec.toNat_sub]
    have h100 : (100 : BitVec 32).toNat = 100 := rfl
    rw [h100]
    omega

theorem loadOf_exact {idleDelta totalDelta : BitVec 32} (h : totalDelta.toNat * 100 < 4294967296)
    (h0 : totalDelta ≠ 0) :
    (loadOf idleDelta totalDelta).toNat = 100 - idleDelta.toNat * 100 / totalDelta.toNat := by
  have hpos : 0 < totalDelta.toNat := by
    rw [Nat.pos_iff_ne_zero]
    exact fun hz => h0 (BitVec.eq_of_toNat_eq hz)
  unfold loadOf
  split
  · rename_i hle
    have hle : totalDelta.toNat ≤ idleDelta.toNat := hle
    have hquot : 100 ≤ idleDelta.toNat * 100 / totalDelta.toNat :=
      (Nat.le_div_iff_mul_le hpos).mpr (by omega)
    rw [Nat.sub_eq_zero_of_le hquot]
    rfl
  · rename_i hlt
    have hlt : idleDelta.toNat < totalDelta.toNat := Nat.lt_of_not_le hlt
    have hquot : idleDelta.toNat * 100 / totalDelta.toNat < 100 :=
      (Nat.div_lt_iff_lt_mul hpos).mpr (by omega)
    have hprod : (idleDelta * 100 / totalDelta).toNat =
        idleDelta.toNat * 100 / totalDelta.toNat := by
      have hsmall : idleDelta.toNat * 100 < 4294967296 := by omega
      rw [BitVec.toNat_udiv, BitVec.toNat_mul]
      exact congrArg (· / totalDelta.toNat) (Nat.mod_eq_of_lt hsmall)
    rw [BitVec.toNat_setWidth, BitVec.toNat_sub, hprod]
    have h100 : (100 : BitVec 32).toNat = 100 := rfl
    rw [h100]
    omega

/-! ## One tick -/

theorem Measured.tick (h : Measured (s, w)) {t : Tick cores} (ht : Timely (s, w) t) :
    Measured (watch (fun s (t : Tick cores) => sysMonitorTick s t.1) Window.next (s, w) t) := by
  obtain ⟨r, m⟩ := t
  unfold watch sysMonitorTick Window.next
  dsimp only
  by_cases hn : r.tasks.length = 0
  · rw [if_pos hn, if_pos hn]
    exact h
  · rw [if_neg hn, if_neg hn]
    obtain ⟨hshows, hfollows⟩ := ht hn
    have hprev : ∀ p, some (m, r.nowUs) = some p →
        (∀ c, idleRt r.tasks c = Throttle.tickAt (p.1.idle c)) ∧
          r.totalRt = Throttle.tickAt p.1.total ∧ r.cycles = Throttle.tickAt p.1.cycles ∧
            r.nowUs = p.2 := by
      rintro p hp
      obtain rfl := Option.some.inj hp
      exact ⟨hshows.idle, hshows.total, hshows.cycles, rfl⟩
    have hhave := h.have_prev
    cases hlast : w.last with
    | none =>
      have hno : s.havePrev = false := hhave.trans (by rw [hlast]; rfl)
      refine ⟨rfl, hprev, fun c => ?_, ?_⟩
      · dsimp only
        rw [if_neg (by simp [hno])]
        exact h.loads c
      · dsimp only
        rw [if_neg (by simp [hno])]
        exact h.clock
    | some p =>
      have hyes : s.havePrev = true := hhave.trans (by rw [hlast]; rfl)
      obtain ⟨hidle, htotal, hcycles, htime⟩ := h.prev p hlast
      have hf := hfollows p hlast
      have hload : (m.total - p.1.total) * 100 < 4294967296 := hf.total.2
      have hwindow : m.total - p.1.total < 4294967296 := by omega
      have hdelta : (r.totalRt - s.prevTotalRt).toNat = m.total - p.1.total := by
        rw [hshows.total, htotal, Throttle.tickAt_sub hf.total.1 hwindow]
      refine ⟨rfl, hprev, fun c => ?_, ?_⟩
      · dsimp only
        by_cases hmoved : m.total = p.1.total
        · rw [if_neg (not_not_intro hmoved), if_neg fun hne =>
            hne.2 (by rw [hshows.total, htotal, hmoved])]
          exact h.loads c
        · have hne : r.totalRt ≠ s.prevTotalRt := fun heq => by
            rw [hshows.total, htotal] at heq
            exact hmoved ((Throttle.tickAt_inj hf.total.1 hwindow).mp heq)
          have hne0 : r.totalRt - s.prevTotalRt ≠ 0 := fun hz => by
            rw [hz] at hdelta
            exact hmoved (Nat.le_antisymm (Nat.le_of_sub_eq_zero hdelta.symm) hf.total.1)
          rw [if_pos hmoved, if_pos ⟨hyes, hne⟩, loadOf_exact (hdelta ▸ hload) hne0,
            hdelta, hshows.idle, hidle, Throttle.tickAt_sub (hf.idle c).1 (hf.idle c).2]
          rfl
      · dsimp only
        rw [htime]
        by_cases hmoved : p.2 < r.nowUs
        · have hcyc : (r.cycles - s.prevCycles).toNat = m.cycles - p.1.cycles := by
            rw [hshows.cycles, hcycles, Throttle.tickAt_sub hf.cycles.1 hf.cycles.2]
          have hsmall : (m.cycles - p.1.cycles) / (r.nowUs - p.2) < 4294967296 :=
            Nat.lt_of_le_of_lt (Nat.div_le_self _ _) hf.cycles.2
          rw [if_pos hmoved, if_pos ⟨hyes, hmoved⟩, hcyc, BitVec.toNat_ofNat,
            Nat.mod_eq_of_lt hsmall]
          rfl
        · rw [if_neg hmoved, if_neg fun hboth => hmoved hboth.2]
          exact h.clock

end

/-! ## Runs -/

/-- **No load is above 100**, whatever is read. -/
theorem load_le_hundred (rs : List Reading) (c : Fin cores) :
    ((rs.foldl sysMonitorTick SysMonitor.init).cpuPct c).toNat ≤ 100 := by
  refine List.foldlRecOn rs sysMonitorTick
    (motive := fun s : SysMonitor cores => (s.cpuPct c).toNat ≤ 100) (Nat.zero_le _) fun s h r _ => ?_
  unfold sysMonitorTick
  split
  · exact h
  · dsimp only
    split
    · exact loadOf_le _ _
    · exact h

/-- **The loads and the frequency are those between the last two readings.** -/
theorem loads_measured {ts : List (Tick cores)}
    (hts : Along (watch (fun s (t : Tick cores) => sysMonitorTick s t.1) Window.next) Timely
      (SysMonitor.init, Window.none) ts) :
    let s := ts.foldl (watch (fun s (t : Tick cores) => sysMonitorTick s t.1) Window.next)
      (SysMonitor.init, Window.none)
    (∀ c, (s.1.cpuPct c).toNat = busy s.2.loads c) ∧
      s.1.cpuFreqMhz.toNat = megahertz s.2.clock := by
  intro s
  have hinit : Measured ((SysMonitor.init, Window.none) : SysMonitor cores × Window cores) :=
    ⟨rfl, fun p hp => absurd hp (by simp [Window.none]), fun _ => rfl, rfl⟩
  have hrun : Measured s := hts.invariant hinit fun s t h ht => h.tick ht
  exact ⟨hrun.loads, hrun.clock⟩

/-- Two cores, over a second in which the counter of the time runs over. -/
theorem loads_measured_wrapped :
    let idle : Fin 2 → Nat := fun c => if c = 0 then 4294966500 else 100
    let idle' : Fin 2 → Nat := fun c => if c = 0 then 4295466500 else 1000100
    let first : Tick 2 := (⟨7000000, 300, 4294967000,
      [⟨ascii "IDLE1", 100⟩, ⟨ascii "main", 7⟩, ⟨ascii "IDLE0", 4294966500⟩]⟩,
      ⟨idle, 4294967000, 300⟩)
    let second : Tick 2 := (⟨8000000, 240000300, 999704,
      [⟨ascii "IDLE0", 499204⟩, ⟨ascii "IDLE1", 1000100⟩]⟩, ⟨idle', 4295967000, 240000300⟩)
    let s := [first, second].foldl
      (watch (fun s (t : Tick 2) => sysMonitorTick s t.1) Window.next) (SysMonitor.init, Window.none)
    (busy s.2.loads 0 = 50 ∧ busy s.2.loads 1 = 0 ∧ megahertz s.2.clock = 240) ∧
      (∀ c, (s.1.cpuPct c).toNat = busy s.2.loads c) ∧
        s.1.cpuFreqMhz.toNat = megahertz s.2.clock := by
  intro idle idle' first second s
  refine ⟨by decide +kernel, loads_measured ⟨fun _ => ⟨?_, ?_⟩,
    fun _ => ⟨?_, ?_⟩, trivial⟩⟩
  · exact ⟨by decide +kernel, by decide, by decide⟩
  · exact fun p hp => absurd hp (by simp [Window.none])
  · exact ⟨by decide +kernel, by decide, by decide⟩
  · intro p hp
    obtain rfl := Option.some.inj hp
    exact ⟨by decide +kernel, by decide, by decide⟩

end Sys
end Wt32Router
