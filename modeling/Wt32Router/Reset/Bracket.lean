import Mathlib.Data.List.TakeWhile
import Wt32Router.Reset.Floor

/-!
# The bracket around an uptime

A floor says how long a boot ran at least. `ceiling_for` says how long at most: the first time of
the schedule above the floor, or nothing where the schedule has no more. It is derived from the
floor and not stored, "see the header for why". So the reader takes for granted that the writer
would have written at that time, had the boot reached it, whatever the floor in flash is: and
that is not a time of the schedule but what the clock said, at a tick that may have come late and
stepped over several of them.

> **`Device.bracketed`**: at any ticks of one boot, what is stored is at most the uptime of the
> last tick, and that is below the ceiling.

The two agree because the index that the writer keeps is the one the reader finds
(`Ticked.next`): every time before it is at most the stored value, and the one at it is above
the last tick. That the schedule is in order is not needed.
-/

namespace Wt32Router
namespace Reset

open Lib

/-- `ceiling_for`. -/
def ceilingFor (floorS : Nat) : Nat := (kCkptTimes.find? (decide <| floorS < ·)).getD 0

/-- What flash has under the number of the boot that is running. -/
def Device.stored (s : Device) : Option (BitVec 32) := loadCheckpoint s.nvs.upck s.ckptBootSeq

/-- The uptime at the last `reset_log_checkpoint_tick`, and how many of them wrote. -/
structure BootTicks where
  last : Nat
  writes : Nat
deriving DecidableEq

def bootTicks (s : Device) (e : Event) (b : BootTicks) : BootTicks :=
  match e with
  | .checkpointTick _ =>
    if s.started then ⟨s.uptimeS.toNat, b.writes + if s.ckptDue then 1 else 0⟩ else b
  | _ => b

/-- A step of one boot in which the seed and the checkpoints are written and the clock that a tick
    reads does not go back. The clock has 32 bits of seconds. -/
def OneBoot (s : Device × BootTicks) : Event → Prop
  | .init _ res => (res.ring && res.seedSet) = true
  | .checkpointTick res => (res.opened && res.set) = true ∧ s.2.last ≤ s.1.uptimeS.toNat
  | .warmReset | .powerCycle _ => False
  | _ => True

instance (s : Device × BootTicks) (e : Event) : Decidable (OneBoot s e) := by
  cases e <;> unfold OneBoot <;> infer_instance

/-- The stored value `v` and the ceiling over it hold the uptime of the last tick between them;
    the next scheduled write is the first time above `v`; and no time is written for twice. -/
structure Bracketed (s : Device) (b : BootTicks) (v : BitVec 32) : Prop where
  stored : s.stored = some v
  floor : v.toNat ≤ b.last
  ceiling : ceilingFor v.toNat = 0 ∨ b.last < ceilingFor v.toNat
  next : s.ckptNext = kCkptTimes.findIdx (decide <| v.toNat < ·)
  writes : b.writes ≤ kCkptTimes.length

/-- What carries the run: before `reset_log_init` nothing has been counted, and after it the index
    is the one that the stored value gives and what it points at is still to come. -/
structure Ticked (s : Device) (b : BootTicks) : Prop where
  unstarted : s.started = false → s.ckptBootSeq = 0 ∧ s.ckptNext = 0 ∧ b = ⟨0, 0⟩
  numbered : s.started = true → s.ckptBootSeq ≠ 0
  next : s.started = true → ∃ v : BitVec 32, s.stored = some v ∧ v.toNat ≤ b.last ∧
    s.ckptNext = kCkptTimes.findIdx (decide <| v.toNat < ·)
  due : ∀ time, kCkptTimes[s.ckptNext]? = some time → b.last < time
  writes : b.writes ≤ s.ckptNext

section

variable {s : Device} {b : BootTicks} {e : Event} {rtc : Rtc}

/-! ## The schedule -/

theorem ceilingFor_eq {v : Nat} :
    ceilingFor v = (kCkptTimes[kCkptTimes.findIdx (decide <| v < ·)]?).getD 0 := by
  rw [ceilingFor, List.find?_eq_getElem?_findIdx]

/-- Where nothing below the index is still to come, skipping what has passed finds the first
    time that is. -/
theorem skipPassed_eq {next up : Nat} (h : ∀ time ∈ kCkptTimes.take next, time ≤ up)
    (hle : next ≤ kCkptTimes.length) :
    skipPassed next up = kCkptTimes.findIdx (decide <| up < ·) := by
  have hdrop : ((kCkptTimes.drop next).takeWhile (decide <| · ≤ up)).length =
      (kCkptTimes.drop next).findIdx (decide <| up < ·) := by
    have hnot : (fun t : Nat => decide (t ≤ up)) = fun t => !decide (up < t) := by
      funext t
      rw [← decide_not, decide_eq_decide, Nat.not_lt]
    rw [hnot, List.takeWhile_eq_take_findIdx_not, List.length_take]
    simp only [Bool.not_not]
    exact min_eq_left List.findIdx_le_length
  have hnone : ¬ ∃ time ∈ kCkptTimes.take next, decide (up < time) = true := by
    rintro ⟨time, hmem, hlt⟩
    exact Nat.not_lt.mpr (h time hmem) (of_decide_eq_true hlt)
  conv_rhs => rw [← List.take_append_drop next kCkptTimes]
  rw [List.findIdx_append, if_neg (fun hlt => hnone (List.findIdx_lt_length.mp hlt)),
    List.length_take, min_eq_left hle, skipPassed, hdrop, Nat.add_comm]

theorem le_of_mem_take_findIdx {v up time : Nat} (hv : v ≤ up)
    (h : time ∈ kCkptTimes.take (kCkptTimes.findIdx (decide <| v < ·))) : time ≤ up := by
  obtain ⟨i, hi, rfl⟩ := List.getElem_of_mem h
  rw [List.length_take] at hi
  have hnot := List.not_of_lt_findIdx (lt_of_lt_of_le hi (min_le_left _ _))
  rw [List.getElem_take]
  exact (Nat.not_lt.mp (of_decide_eq_false (by simpa using hnot))).trans hv

/-! ## The stored value -/

theorem loadCheckpoint_packed (seq up : BitVec 32) :
    loadCheckpoint (some (packCheckpoint seq up)) seq = some up := by
  have hseq : (packCheckpoint seq up >>> 32).setWidth 32 = seq := by
    apply BitVec.eq_of_getLsbD_eq
    intro i hi
    have hboth : 32 + i < 64 ∧ i < 64 := ⟨by omega, by omega⟩
    simp [packCheckpoint, hi, hboth]
  have hsome : loadCheckpoint (some (packCheckpoint seq up)) seq =
      some ((packCheckpoint seq up).setWidth 32) := by
    unfold loadCheckpoint
    exact if_neg (not_not.mpr hseq)
  rw [hsome, loadCheckpoint_pack hsome]

theorem loadFromNvs_next_ne (buf : Option (List UInt8)) : (loadFromNvs buf).2 ≠ 0 := by
  unfold loadFromNvs
  split
  · decide
  · split
    · decide
    · dsimp only
      split
      · decide
      · split
        · decide
        · dsimp only
          split
          · assumption
          · decide

/-! ## The invariant -/

theorem skipPassed_lt {next up time : Nat} (htime : kCkptTimes[next]? = some time)
    (hle : time ≤ up) : next < skipPassed next up := by
  obtain ⟨hlt, rfl⟩ := List.getElem?_eq_some_iff.mp htime
  have hcons : kCkptTimes.drop next = kCkptTimes[next] :: kCkptTimes.drop (next + 1) :=
    List.drop_eq_getElem_cons hlt
  rw [skipPassed, hcons, List.takeWhile_cons, if_pos (decide_eq_true hle), List.length_cons]
  exact Nat.lt_add_of_pos_right (Nat.succ_pos _)

/-- What the index points at is above the value that gives it. -/
theorem lt_of_getElem?_findIdx {v time : Nat}
    (h : kCkptTimes[kCkptTimes.findIdx (decide <| v < ·)]? = some time) : v < time := by
  obtain ⟨hlt, rfl⟩ := List.getElem?_eq_some_iff.mp h
  exact of_decide_eq_true (List.findIdx_getElem (w := hlt))

theorem Device.ckptDue_iff : s.ckptDue = true ↔
    s.ckptBootSeq ≠ 0 ∧ ∃ time, kCkptTimes[s.ckptNext]? = some time ∧ time ≤ s.uptimeS.toNat := by
  unfold Device.ckptDue
  cases kCkptTimes[s.ckptNext]? with
  | none => simp
  | some time => simp

theorem Ticked.init {env : BootEnv} {res : SaveResult} (h : Ticked s b)
    (hres : (res.ring && res.seedSet) = true) :
    Ticked (s.step (.init env res)) (bootTicks s (.init env res) b) := by
  show Ticked (if s.started then s else s.init env res) b
  cases hstarted : s.started with
  | true => exact h
  | false =>
    obtain ⟨-, hnext, rfl⟩ := h.unstarted hstarted
    refine ⟨fun hno => absurd hno (by simp [Device.init]), fun _ => loadFromNvs_next_ne _,
      fun _ => ⟨0, ?_, Nat.le_refl _, ?_⟩, fun time htime => ?_, Nat.zero_le _⟩
    · -- the seed
      show loadCheckpoint (saveToNvs s.nvs _ _ (some _) res).upck _ = some 0
      rw [saveToNvs_seeded hres]
      exact loadCheckpoint_packed _ _
    · exact hnext.trans (by decide)
    · have hten : kCkptTimes[s.ckptNext]? = some 10 := by rw [hnext]; rfl
      obtain rfl : 10 = time := Option.some.inj (hten.symm.trans htime)
      decide

theorem Ticked.checkpointTick {res : CkptResult} (h : Ticked s b)
    (hres : (res.opened && res.set) = true) (hle : b.last ≤ s.uptimeS.toNat) :
    Ticked (s.step (.checkpointTick res)) (bootTicks s (.checkpointTick res) b) := by
  show Ticked (s.checkpointTick res)
    (if s.started then ⟨s.uptimeS.toNat, b.writes + if s.ckptDue then 1 else 0⟩ else b)
  cases hstarted : s.started with
  | false =>
    -- no number to write under
    have hidle : s.ckptDue = false := by
      rw [← Bool.not_eq_true, Device.ckptDue_iff]
      exact fun hdue => hdue.1 (h.unstarted hstarted).1
    rw [Device.checkpointTick, hidle]
    exact h
  | true =>
    obtain ⟨v, hstored, hv, hnext⟩ := h.next hstarted
    rw [if_pos rfl]
    cases hdue : s.ckptDue with
    | false =>
      -- nothing is written, and what the index points at is still to come
      rw [Device.checkpointTick, hdue]
      refine ⟨fun hno => absurd (hno.symm.trans hstarted) Bool.false_ne_true, h.numbered,
        fun _ => ⟨v, hstored, hv.trans hle, hnext⟩, fun time htime => ?_, h.writes⟩
      by_contra hpassed
      have hdue' := Device.ckptDue_iff.mpr ⟨h.numbered hstarted, time, htime, Nat.not_lt.mp hpassed⟩
      exact Bool.false_ne_true (hdue.symm.trans hdue')
    | true =>
      obtain ⟨-, time, htime, hpassed⟩ := Device.ckptDue_iff.mp hdue
      have hskip : skipPassed s.ckptNext s.uptimeS.toNat =
          kCkptTimes.findIdx (decide <| s.uptimeS.toNat < ·) := by
        refine skipPassed_eq (fun t ht => ?_) ?_
        · exact le_of_mem_take_findIdx (hv.trans hle) (hnext ▸ ht)
        · rw [hnext]
          exact List.findIdx_le_length
      rw [Device.checkpointTick, hdue, if_pos rfl, hres, if_pos rfl]
      refine ⟨fun hno => absurd (hno.symm.trans hstarted) Bool.false_ne_true, h.numbered,
        fun _ => ⟨s.uptimeS, loadCheckpoint_packed _ _, Nat.le_refl _, hskip⟩,
        fun t ht => lt_of_getElem?_findIdx (hskip ▸ ht), ?_⟩
      have hmore := skipPassed_lt htime hpassed
      have hwrites := h.writes
      show b.writes + 1 ≤ skipPassed s.ckptNext s.uptimeS.toNat
      omega

/-- The index, the number and the checkpoint are all that an event has to leave alone. -/
theorem Ticked.congr {t : Device} (h : Ticked s b) (hstarted : t.started = s.started)
    (hseq : t.ckptBootSeq = s.ckptBootSeq) (hnext : t.ckptNext = s.ckptNext)
    (hupck : t.nvs.upck = s.nvs.upck) : Ticked t b := by
  refine ⟨fun hno => ?_, fun hyes => ?_, fun hyes => ?_, ?_, ?_⟩
  · rw [hseq, hnext]
    exact h.unstarted (hstarted.symm.trans hno)
  · rw [hseq]
    exact h.numbered (hstarted.symm.trans hyes)
  · rw [Device.stored, hupck, hseq, hnext]
    exact h.next (hstarted.symm.trans hyes)
  · rw [hnext]
    exact h.due
  · rw [hnext]
    exact h.writes

theorem noteTime_ckptNext (t : BitVec 64) (res : SaveResult) :
    (s.noteTime t res).ckptNext = s.ckptNext := by
  unfold Device.noteTime
  split
  · rfl
  · split <;> rfl

theorem Ticked.step (h : Ticked s b) (hok : OneBoot (s, b) e) :
    Ticked (s.step e) (bootTicks s e b) := by
  cases e with
  | init env res => exact h.init hok
  | checkpointTick res => exact h.checkpointTick hok.1 hok.2
  | warmReset => exact hok.elim
  | powerCycle rtc => exact hok.elim
  | pass us => exact h.congr rfl rfl rfl rfl
  | tick =>
    show Ticked (if s.started then { s with rtc := s.rtc.setUptime s.uptimeS } else s) b
    split
    · exact h.congr rfl rfl rfl rfl
    · exact h
  | noteIntent intent =>
    show Ticked (s.noteIntent intent) b
    rw [noteIntent_rtc.1]
    exact h.congr rfl rfl rfl rfl
  | noteReady =>
    show Ticked s.noteReady b
    rw [noteReady_rtc.1]
    exact h.congr rfl rfl rfl rfl
  | noteTime t res =>
    obtain ⟨hupck, -, hstarted, -, hseq, -⟩ := noteTime_frame s t res
    exact h.congr hstarted hseq (noteTime_ckptNext t res) hupck

theorem reboot_ticked (s : Device) (rtc : Rtc) : Ticked (s.reboot rtc) ⟨0, 0⟩ := by
  refine ⟨fun _ => ⟨rfl, rfl, rfl⟩, fun hyes => absurd hyes Bool.false_ne_true,
    fun hyes => absurd hyes Bool.false_ne_true, fun time htime => ?_, Nat.le_refl _⟩
  have hten : (some 10 : Option Nat) = some time := htime
  obtain rfl := Option.some.inj hten
  decide

theorem Ticked.exists_bracket (h : Ticked s b) (hstarted : s.started = true) :
    ∃ v, Bracketed s b v := by
  obtain ⟨v, hstored, hv, hnext⟩ := h.next hstarted
  have hle : s.ckptNext ≤ kCkptTimes.length := by
    rw [hnext]
    exact List.findIdx_le_length
  refine ⟨v, hstored, hv, ?_, hnext, h.writes.trans hle⟩
  rw [ceilingFor_eq, ← hnext]
  cases htime : kCkptTimes[s.ckptNext]? with
  | none => exact .inl rfl
  | some time => exact .inr (h.due time htime)

/-- **The uptime of a boot is in the bracket** around what is stored for it, at whatever times it
    ticked. -/
theorem Device.bracketed (s : Device) (rtc : Rtc) (es : List Event)
    (h : Along (watch Device.step bootTicks) OneBoot (s.reboot rtc, ⟨0, 0⟩) es) :
    let t := es.foldl (watch Device.step bootTicks) (s.reboot rtc, ⟨0, 0⟩)
    t.1.started = true → ∃ v, Bracketed t.1 t.2 v := by
  intro t hstarted
  have hticked : Ticked t.1 t.2 :=
    h.invariant (I := fun t => Ticked t.1 t.2) (reboot_ticked s rtc) fun _ _ hI hok => hI.step hok
  exact hticked.exists_bracket hstarted

/-- A tick at 25 s, a late one at 75 s and one at 119 s. -/
def lateTicks : List Event :=
  [.init ⟨1, none, .unknown, [], none⟩ {}, .pass 25000000, .checkpointTick {}, .pass 50000000,
    .checkpointTick {}, .pass 44000000, .checkpointTick {}]

theorem Device.bracketed_lateTicks :
    let t := lateTicks.foldl (watch Device.step bootTicks)
      ((Device.blank noRtc).reboot noRtc, ⟨0, 0⟩)
    t.2 = ⟨119, 2⟩ ∧ t.1.stored = some 75 ∧ ceilingFor 75 = 120 ∧ ∃ v, Bracketed t.1 t.2 v :=
  ⟨by decide +kernel, by decide +kernel, by decide,
    Device.bracketed (Device.blank noRtc) noRtc lateTicks (by decide +kernel) (by decide +kernel)⟩

end

end Reset
end Wt32Router
