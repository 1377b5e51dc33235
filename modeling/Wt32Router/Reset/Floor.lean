import Wt32Router.Reset.Log

/-!
# The floor of an uptime

After a power cycle the only thing left that knows how long the device had been up is the
checkpoint in flash, and it is believed if it carries the number before the one the new record
gets. "The boot_seq half is what makes the value self-invalidating", says the source: a value
left behind by an older boot is discarded. So it is where that boot's number is gone by. But the
number a boot takes is the one the *ring* in flash says is next, and the ring is written by the
boot that takes it. If that write fails, the next boot takes the same number, looks for the
checkpoint of the boot before both, and finds it.

> **`Device.floor_ok`**: if no boot ends without the RTC block and without a checkpoint of its
> own while flash has one under the number the next boot looks up, then no floor is an
> overstatement.

How long a boot ran, and whether it has written a checkpoint, the device does not know after
the reset; a monitor does (`LastBoot`).
-/

namespace Wt32Router
namespace Reset

open Lib

/-- The uptime of the boot that ended last, and whether the one that is running has written a
    checkpoint. -/
structure LastBoot where
  upUs : Option Nat
  own : Bool
deriving DecidableEq

def Device.checkpoints (s : Device) : Event → Bool
  | .init _ res => !s.started && res.ring && res.seedSet
  | .checkpointTick res => s.ckptDue && res.opened && res.set
  | _ => false

def lastBoot (s : Device) (e : Event) (b : LastBoot) : LastBoot :=
  if e.ends then ⟨some s.upUs, false⟩ else { b with own := b.own || s.checkpoints e }

/-- What flash has under the number the next boot looks up. -/
def Device.lookup (s : Device) : Option (BitVec 32) :=
  loadCheckpoint s.nvs.upck ((loadFromNvs s.nvs.ring).2 - 1)

/-- A floor, if the step records one, is at most what the last boot ran for. -/
def FloorOk (s : Device × LastBoot) (e : Event) : Prop :=
  ∀ env res, e = .init env res → s.1.started = false →
    hasFlag (s.1.newRecord env).flags fPrevUptimeMin = true →
    ∃ us, s.2.upUs = some us ∧ (s.1.newRecord env).prevUptimeS.toNat * 1000000 ≤ us

/-- A boot that ends without the RTC block and without a checkpoint of its own leaves none
    under the number the next boot looks up. -/
def LeavesNone (s : Device × LastBoot) (e : Event) : Prop :=
  e.ends = true → (s.1.step e).rtc.valid = false → s.2.own = false → s.1.lookup = none

instance (s : Device × LastBoot) (e : Event) : Decidable (LeavesNone s e) :=
  inferInstanceAs (Decidable (_ → _ → _ → _))

/-- What carries the run: a checkpoint this boot wrote is no later than now, and between two
    boots the one that would be looked up is no later than the end of the last. -/
structure Attributed (s : Device × LastBoot) : Prop where
  unstarted : s.1.started = false → s.1.ckptBootSeq = 0
  own : s.2.own = true →
    ∀ seq c, loadCheckpoint s.1.nvs.upck seq = some c → c.toNat * 1000000 ≤ s.1.upUs
  lookup : s.1.started = false → s.1.rtc.valid = false →
    ∀ c, s.1.lookup = some c → ∃ us, s.2.upUs = some us ∧ c.toNat * 1000000 ≤ us

section

variable {s : Device} {b : LastBoot} {e : Event} {rtc : Rtc}

/-! ## Checkpoints -/

theorem loadCheckpoint_pack {seq up want c : BitVec 32}
    (h : loadCheckpoint (some (packCheckpoint seq up)) want = some c) : c = up := by
  unfold loadCheckpoint at h
  dsimp only at h
  split at h
  · exact absurd h (by simp)
  · rw [← Option.some.inj h, packCheckpoint]
    apply BitVec.eq_of_getLsbD_eq
    intro i hi
    simp [hi]

theorem uptimeS_le : s.uptimeS.toNat * 1000000 ≤ s.upUs := by
  have hmod : s.uptimeS.toNat = s.upUs / 1000000 % 4294967296 := BitVec.toNat_ofNat _ _
  have hle := Nat.mod_le (s.upUs / 1000000) 4294967296
  omega

/-- `note_intent` and `note_ready` write to the RTC block only, and never make a good one bad. -/
theorem noteIntent_rtc {intent : BitVec 32} :
    s.noteIntent intent = { s with rtc := (s.noteIntent intent).rtc } ∧
      (s.rtc.valid = true → (s.noteIntent intent).rtc.valid = true) := by
  unfold Device.noteIntent
  split
  · exact ⟨rfl, id⟩
  · refine ⟨rfl, fun hv => ?_⟩
    simp only [Rtc.valid, Rtc.setUptime, Bool.and_eq_true, beq_iff_eq] at hv ⊢
    simp [hv]

theorem noteReady_rtc :
    s.noteReady = { s with rtc := s.noteReady.rtc } ∧
      (s.rtc.valid = true → s.noteReady.rtc.valid = true) := by
  unfold Device.noteReady
  split
  · exact ⟨rfl, id⟩
  · refine ⟨rfl, fun hv => ?_⟩
    simp only [Rtc.valid, Bool.and_eq_true, beq_iff_eq] at hv ⊢
    simp [hv]

/-! ## What each event does to flash -/

/-- Saving the ring leaves the checkpoint alone, or seeds it with 0. -/
theorem saveToNvs_upck {nvs : Nvs} {ring : List Entry} {next : BitVec 32}
    {seed : Option (BitVec 32)} {res : SaveResult} :
    (saveToNvs nvs ring next seed res).upck = nvs.upck ∨
      ∃ seq, seed = some seq ∧ (res.ring && res.seedSet) = true ∧
        (saveToNvs nvs ring next seed res).upck = some (packCheckpoint seq 0) := by
  unfold saveToNvs
  split
  · rename_i hring
    cases seed with
    | none => exact .inl rfl
    | some seq =>
      dsimp only
      split
      · rename_i hseed
        exact .inr ⟨seq, rfl, by rw [hring, hseed, Bool.and_self], rfl⟩
      · exact .inl rfl
  · exact .inl rfl

theorem saveToNvs_seeded {nvs : Nvs} {ring : List Entry} {next seq : BitVec 32}
    {res : SaveResult} (h : (res.ring && res.seedSet) = true) :
    (saveToNvs nvs ring next (some seq) res).upck = some (packCheckpoint seq 0) := by
  obtain ⟨hring, hseed⟩ := Bool.and_eq_true _ _ |>.mp h
  unfold saveToNvs
  rw [if_pos hring]
  exact if_pos hseed

theorem noteTime_frame (s : Device) (t : BitVec 64) (res : SaveResult) :
    (s.noteTime t res).nvs.upck = s.nvs.upck ∧ (s.noteTime t res).rtc = s.rtc ∧
      (s.noteTime t res).started = s.started ∧ (s.noteTime t res).upUs = s.upUs ∧
      (s.noteTime t res).ckptBootSeq = s.ckptBootSeq ∧
      (s.started = false → s.noteTime t res = s) := by
  unfold Device.noteTime
  split
  · exact ⟨rfl, rfl, rfl, rfl, rfl, fun _ => rfl⟩
  · split
    · rename_i hwrite
      refine ⟨?_, rfl, rfl, rfl, rfl, fun hno => ?_⟩
      · rcases saveToNvs_upck with hsame | ⟨_, hseed, _⟩
        · exact hsame
        · exact absurd hseed (by simp)
      · simp [hno] at hwrite
    · exact ⟨rfl, rfl, rfl, rfl, rfl, fun _ => rfl⟩

/-! ## The invariant -/

theorem Attributed.init {env : BootEnv} {res : SaveResult} (h : Attributed (s, b)) :
    Attributed (s.step (.init env res), lastBoot s (.init env res) b) := by
  show Attributed (if s.started then s else s.init env res,
    { b with own := b.own || (!s.started && res.ring && res.seedSet) })
  cases hstarted : s.started with
  | true => simpa using h
  | false =>
    refine ⟨fun hno => absurd hno (by simp [Device.init]), ?_,
      fun hno => absurd hno (by simp [Device.init])⟩
    -- what flash has now was written by this boot, or by an earlier one and then `own` is not new
    intro hown seq c hload
    show c.toNat * 1000000 ≤ s.upUs
    have hload : loadCheckpoint (saveToNvs s.nvs _ _ (some _) res).upck seq = some c := hload
    by_cases hseed : (res.ring && res.seedSet) = true
    · -- seeded, and the seed is 0
      rw [saveToNvs_seeded hseed] at hload
      rw [loadCheckpoint_pack hload]
      exact Nat.zero_le _
    · have hb : b.own = true := by
        simpa [Bool.not_eq_true _ ▸ hseed] using hown
      rcases saveToNvs_upck with hsame | ⟨_, _, hwritten, _⟩
      · exact h.own hb seq c (hsame ▸ hload)
      · exact absurd hwritten hseed

theorem Attributed.checkpointTick {res : CkptResult} (h : Attributed (s, b)) :
    Attributed (s.step (.checkpointTick res), lastBoot s (.checkpointTick res) b) := by
  show Attributed (s.checkpointTick res,
    { b with own := b.own || (s.ckptDue && res.opened && res.set) })
  unfold Device.checkpointTick
  cases hdue : s.ckptDue with
  | false => simpa using h
  | true =>
    rw [if_pos rfl]
    refine ⟨fun hno => h.unstarted hno, ?_, fun hno => ?_⟩
    · intro hown seq c hload
      show c.toNat * 1000000 ≤ s.upUs
      by_cases hset : (res.opened && res.set) = true
      · -- the checkpoint is the clock
        have hload :
            loadCheckpoint (some (packCheckpoint s.ckptBootSeq s.uptimeS)) seq = some c := by
          simpa [hset] using hload
        rw [loadCheckpoint_pack hload]
        exact uptimeS_le
      · rw [Bool.not_eq_true] at hset
        have hb : b.own = true := by simpa [Bool.and_assoc, hset] using hown
        have hload : loadCheckpoint s.nvs.upck seq = some c := by simpa [hset] using hload
        exact h.own hb seq c hload
    · -- a boot that has not started has no number to write under
      have hzero : s.ckptBootSeq = 0 := h.unstarted hno
      simp [Device.ckptDue, hzero] at hdue

theorem Attributed.setRtc (h : Attributed (s, b)) (hgood : s.rtc.valid = true → rtc.valid = true) :
    Attributed ({ s with rtc := rtc }, b) := by
  -- a block that is bad now was bad before
  refine ⟨h.unstarted, h.own, fun hno hbad => h.lookup hno ?_⟩
  by_contra hv
  rw [Bool.not_eq_false] at hv
  exact Bool.false_ne_true (hbad.symm.trans (hgood hv))

theorem Attributed.reboot {rtc : Rtc} (h : Attributed (s, b))
    (hleaves : rtc.valid = false → b.own = false → s.lookup = none) :
    Attributed (s.reboot rtc, ⟨some s.upUs, false⟩) := by
  refine ⟨fun _ => rfl, fun hown => absurd hown Bool.false_ne_true, fun _ hrtc c hc => ?_⟩
  refine ⟨s.upUs, rfl, ?_⟩
  have hc : s.lookup = some c := hc
  -- a checkpoint of its own is no later than its end; of anybody else's there is none
  cases hown : b.own with
  | true => exact h.own hown _ c hc
  | false => exact absurd ((hleaves hrtc hown).symm.trans hc) (by simp)

theorem Attributed.step (h : Attributed (s, b)) (hleaves : LeavesNone (s, b) e) :
    Attributed (s.step e, lastBoot s e b) := by
  cases e with
  | init env res => exact h.init
  | checkpointTick res => exact h.checkpointTick
  | warmReset => exact h.reboot (hleaves rfl)
  | powerCycle rtc => exact h.reboot (hleaves rfl)
  -- the boot goes on, and a checkpoint it wrote is older
  | pass us =>
    refine ⟨h.unstarted, fun hown seq c hload => ?_, h.lookup⟩
    have hown : b.own = true := by simpa [lastBoot, Event.ends, Device.checkpoints] using hown
    exact Nat.le_add_right_of_le (h.own hown seq c hload)
  | tick =>
    show Attributed (if s.started then { s with rtc := s.rtc.setUptime s.uptimeS } else s,
      { b with own := b.own || false })
    rw [Bool.or_false]
    split
    · rename_i hstarted
      exact ⟨h.unstarted, h.own, fun hno => absurd (hno.symm.trans hstarted) Bool.false_ne_true⟩
    · exact h
  | noteIntent intent =>
    show Attributed (s.noteIntent intent, { b with own := b.own || false })
    rw [Bool.or_false, noteIntent_rtc.1]
    exact h.setRtc noteIntent_rtc.2
  | noteReady =>
    show Attributed (s.noteReady, { b with own := b.own || false })
    rw [Bool.or_false, noteReady_rtc.1]
    exact h.setRtc noteReady_rtc.2
  | noteTime t res =>
    show Attributed (s.noteTime t res, { b with own := b.own || false })
    rw [Bool.or_false]
    obtain ⟨hupck, _, hstarted, hup, hseq, hidle⟩ := noteTime_frame s t res
    refine ⟨fun hno => ?_, fun hown seq c hload => ?_, fun hno => ?_⟩
    · exact hseq.trans (h.unstarted (hstarted.symm.trans hno))
    · show c.toNat * 1000000 ≤ (s.noteTime t res).upUs
      rw [hup]
      exact h.own hown seq c (hupck ▸ hload)
    · rw [hidle (hstarted.symm.trans hno)]
      exact h.lookup (hstarted.symm.trans hno)

theorem blank_attributed : Attributed (Device.blank rtc, ⟨none, false⟩) :=
  ⟨fun _ => rfl, fun hown => absurd hown Bool.false_ne_true,
    fun _ _ c hc => absurd hc (by simp [Device.lookup, Device.blank, loadCheckpoint])⟩

theorem Attributed.floorOk (h : Attributed (s, b)) : FloorOk (s, b) e := by
  intro env res _ hstarted hflag
  obtain ⟨hrtc, hload⟩ := newRecord_floor hflag
  exact h.lookup hstarted hrtc _ hload

/-- **A floor is never an overstatement** along a run in which no boot that ends without the RTC
    block leaves the next one another boot's checkpoint. -/
theorem Device.floor_ok (rtc : Rtc) (es : List Event)
    (h : Along (watch Device.step lastBoot) LeavesNone (Device.blank rtc, ⟨none, false⟩) es) :
    Along (watch Device.step lastBoot) FloorOk (Device.blank rtc, ⟨none, false⟩) es :=
  h.of_invariant blank_attributed fun _ _ hI hok => ⟨hI.floorOk, hI.step hok⟩

/-- RTC memory after the supply was gone. -/
def noRtc : Rtc := ⟨0, 0, 0, 0, 0, 0, 0⟩

/-- A boot that runs for an hour and writes its checkpoint; one whose ring is not written, and
    that ends after a second. -/
def hourThenSecond : List Event :=
  [.init ⟨1, none, .unknown, [], none⟩ {}, .pass 3600000000, .checkpointTick {}, .pass 5000000,
    .powerCycle noRtc, .init ⟨1, none, .unknown, [], none⟩ ⟨true, false, true⟩, .pass 1000000,
    .powerCycle noRtc]

/-- The boot after that is told the one before it ran for an hour. -/
theorem floor_ok_fails :
    ¬ ∀ (rtc : Rtc) (es : List Event),
      Along (watch Device.step lastBoot) FloorOk (Device.blank rtc, ⟨none, false⟩) es := by
  intro h
  let env : BootEnv := ⟨1, none, .unknown, [], none⟩
  let s := hourThenSecond.foldl (watch Device.step lastBoot) (Device.blank noRtc, ⟨none, false⟩)
  have hfloor : FloorOk s (.init env {}) :=
    (along_append.mp (h noRtc (hourThenSecond ++ [.init env {}]))).2.1
  obtain ⟨us, hus, hle⟩ := hfloor env {} rfl (by decide +kernel) (by decide +kernel)
  have hlast : s.2.upUs = some 1000000 := by decide +kernel
  have hhour : (s.1.newRecord env).prevUptimeS.toNat = 3600 := by decide +kernel
  obtain rfl : 1000000 = us := Option.some.inj (hlast.symm.trans hus)
  omega

/-- With the ring written, and so the seed, the floor is the hour's. -/
theorem floor_ok_after_hour :
    Along (watch Device.step lastBoot) FloorOk (Device.blank noRtc, ⟨none, false⟩)
      (hourThenSecond.take 5 ++ [.init ⟨1, none, .unknown, [], none⟩ {}]) :=
  Device.floor_ok noRtc _ (by decide +kernel)

end

end Reset
end Wt32Router
