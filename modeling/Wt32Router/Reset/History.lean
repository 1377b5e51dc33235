import Mathlib.Data.List.DropRight
import Wt32Router.Reset.Log

/-!
# The history across boots

Each boot appends one record to a ring of sixteen and writes the ring; a boot that learns the
time later stamps its own record, once, and writes the ring again. A monitor keeps what no
ring does: every record ever appended, as `reset_log_init` put it together, with all the times
`reset_log_note_time` was called with in that boot (`History`).

> **`Device.history_restored`**: while the ring is written each time and there are fewer than
> 2^32 boots, the next boot restores the newest sixteen records in order, each as it was
> recorded, stamped with the first time of its boot if it had none, and numbered one after
> the other.

The number of a boot is a 32-bit word that skips 0, so the boot after number 2^32 - 1 is number 1
again: `history_wraps`.
-/

namespace Wt32Router
namespace Reset

open Lib

/-- Every record so far, oldest first, each with the times noted in its boot. -/
abbrev History := List (Entry × List (BitVec 64))

def History.note (h : History) (t : BitVec 64) : History :=
  match h.getLast? with
  | none => h
  | some (entry, times) => h.dropLast ++ [(entry, times ++ [t])]

def history (s : Device) (e : Event) (h : History) : History :=
  match e with
  | .init env _ => if s.started then h else h ++ [(s.newRecord env, [])]
  | .noteTime t _ => if s.started then h.note t else h
  | _ => h

/-- A record as its boot leaves it: stamped by the first time noted, if it had none. -/
def settled (r : Entry × List (BitVec 64)) : Entry :=
  match r.2 with
  | [] => r.1
  | t :: _ => if hasFlag r.1.flags fBootTime then r.1 else r.1.stamp t

/-- The write of the ring, if the step makes one, succeeds. -/
def Event.ringWritten : Event → Bool
  | .init _ res | .noteTime _ res => res.ring
  | _ => true

/-- The ring and the next number that go with a history. -/
def History.ring (h : History) : List Entry := (h.map settled).rtake maxRecords

def History.next (h : History) : BitVec 32 := BitVec.ofNat 32 (h.length + 1)

def History.numbers (h : History) : List Nat := h.map fun r => r.1.bootSeq.toNat

/-- The boots of the history are fewer than 2^32. -/
def History.few (h : History) : Prop := h.length < 4294967296

/-- Flash, and in a boot the statics, are those of the history; the numbers as long as they
    have not wrapped. -/
structure Recorded (s : Device × History) : Prop where
  flash : (loadFromNvs s.1.nvs.ring).1 = s.2.ring
  flashNext : s.2.few → (loadFromNvs s.1.nvs.ring).2 = if s.2.next ≠ 0 then s.2.next else 1
  ring : s.1.started = true → s.1.ring = s.2.ring ∧ s.1.haveCurrent = true
  next : s.1.started = true → s.2.few → s.1.nextSeq = s.2.next
  numbers : s.2.few → s.2.numbers = List.range' 1 s.2.length

section

variable {s : Device} {h : History} {e : Event} {entry : Entry} {t : BitVec 64}
  {times : List (BitVec 64)} {r : Entry × List (BitVec 64)}

/-! ## The ring of a history -/

theorem ring_length : h.ring.length ≤ maxRecords := by
  unfold History.ring List.rtake
  rw [List.length_drop]
  omega

theorem ring_concat : (h ++ [r]).ring = (h.map settled).rtake 15 ++ [settled r] := by
  rw [History.ring, List.map_append, List.map_singleton]
  exact List.rtake_concat_succ _ _ _

/-- **Appending shifts the ring.** -/
theorem pushRecord_ring : pushRecord h.ring (settled r) = (h ++ [r]).ring := by
  have hlen : (h.map settled).length = h.length := List.length_map _
  rw [ring_concat, pushRecord]
  congr 1
  unfold History.ring List.rtake
  rw [hlen, List.length_drop, hlen, maxRecords]
  -- with sixteen records there the oldest goes, and below that none does
  split
  · rw [List.tail_drop]
    congr 1
    omega
  · congr 1
    omega

/-! ## Stamping -/

theorem hasFlag_stamp : hasFlag (entry.stamp t).flags fBootTime = true := by
  have hand : (entry.flags ||| fBootTime) &&& fBootTime = fBootTime := by
    apply UInt8.toBitVec_inj.mp
    apply BitVec.eq_of_getLsbD_eq
    intro i hi
    simp only [UInt8.toBitVec_and, UInt8.toBitVec_or, BitVec.getLsbD_and, BitVec.getLsbD_or]
    cases fBootTime.toBitVec.getLsbD i <;> simp
  show (entry.flags ||| fBootTime) &&& fBootTime != 0
  rw [hand]
  decide

/-- **A further time changes a record only if it has none.** -/
theorem settled_note : settled (entry, times ++ [t]) =
    if hasFlag (settled (entry, times)).flags fBootTime then settled (entry, times)
    else (settled (entry, times)).stamp t := by
  cases times with
  | nil => rfl
  | cons t₀ times =>
    have hflag : hasFlag (settled (entry, t₀ :: times)).flags fBootTime = true := by
      unfold settled
      dsimp only
      split
      · assumption
      · exact hasFlag_stamp
    rw [hflag, if_pos rfl]
    rfl

theorem settled_bootSeq : (settled r).bootSeq = r.1.bootSeq := by
  unfold settled
  split
  · rfl
  · split <;> rfl

theorem note_concat : History.note (h ++ [(entry, times)]) t = h ++ [(entry, times ++ [t])] := by
  simp [History.note]

/-! ## The invariant -/

theorem loadFromNvs_saved {nvs : Nvs} {ring : List Entry} {next : BitVec 32}
    {seed : Option (BitVec 32)} {res : SaveResult} (hres : res.ring = true)
    (hlen : ring.length ≤ maxRecords) :
    loadFromNvs (saveToNvs nvs ring next seed res).ring =
      (ring, if next ≠ 0 then next else 1) := by
  unfold saveToNvs
  rw [if_pos hres]
  exact loadFromNvs_saveBlob hlen

theorem Recorded.nextNumber (hr : Recorded (s, h)) (hfew : h.length + 1 < 4294967296) :
    (loadFromNvs s.nvs.ring).2 = h.next ∧ h.next.toNat = h.length + 1 := by
  have hnat : h.next.toNat = h.length + 1 :=
    (BitVec.toNat_ofNat _ _).trans (Nat.mod_eq_of_lt hfew)
  have hne : h.next ≠ 0 := by
    intro hzero
    rw [hzero] at hnat
    exact absurd hnat (by simp)
  have hlt : h.few := Nat.lt_of_succ_lt hfew
  refine ⟨?_, hnat⟩
  rw [hr.flashNext hlt, if_pos hne]

theorem Recorded.init {env : BootEnv} {res : SaveResult} (hr : Recorded (s, h))
    (hres : res.ring = true) :
    Recorded (s.step (.init env res), history s (.init env res) h) := by
  show Recorded (if s.started then s else s.init env res,
    if s.started then h else h ++ [(s.newRecord env, [])])
  cases hstarted : s.started with
  | true => exact hr
  | false =>
    -- what flash has is the ring of the history, so what is pushed and saved is that of the next
    have hring : pushRecord (loadFromNvs s.nvs.ring).1 (s.newRecord env) =
        (h ++ [(s.newRecord env, [])]).ring := by
      rw [hr.flash]
      exact pushRecord_ring (r := (s.newRecord env, []))
    have hload : loadFromNvs (s.init env res).nvs.ring = ((h ++ [(s.newRecord env, [])]).ring,
        if (loadFromNvs s.nvs.ring).2 + 1 ≠ 0 then (loadFromNvs s.nvs.ring).2 + 1 else 1) := by
      rw [← hring]
      exact loadFromNvs_saved hres (hring ▸ ring_length)
    have hnext : (h ++ [(s.newRecord env, [])]).few →
        (loadFromNvs s.nvs.ring).2 + 1 = (h ++ [(s.newRecord env, [])]).next := by
      intro hfew
      have hfew : h.length + 1 < 4294967296 := by simpa [History.few] using hfew
      rw [(hr.nextNumber hfew).1]
      simp [History.next, BitVec.ofNat_add]
    show Recorded (s.init env res, h ++ [(s.newRecord env, [])])
    refine ⟨?_, fun hfew => ?_, fun _ => ⟨hring, rfl⟩, fun _ hfew => hnext hfew, fun hfew => ?_⟩
    · exact congrArg Prod.fst hload
    · rw [← hnext hfew]
      exact congrArg Prod.snd hload
    · have hfew : h.length + 1 < 4294967296 := by simpa [History.few] using hfew
      have hnum : (s.newRecord env).bootSeq.toNat = h.length + 1 := by
        rw [← (hr.nextNumber hfew).2, ← (hr.nextNumber hfew).1]
        rfl
      -- the record takes the number flash has next, which is one past the last
      have hold : h.numbers = List.range' 1 h.length := hr.numbers (Nat.lt_of_succ_lt hfew)
      have hcat : History.numbers (h ++ [(s.newRecord env, [])]) =
          h.numbers ++ [(s.newRecord env).bootSeq.toNat] := by simp [History.numbers]
      show History.numbers (h ++ [(s.newRecord env, [])]) = _
      rw [hcat, hold, hnum, List.length_append, List.length_singleton, List.range'_1_concat,
        Nat.add_comm]

theorem noteTime_last {older : List Entry} {last : Entry} {res : SaveResult}
    (hring : s.ring = older ++ [last]) : s.noteTime t res =
      if s.started && s.haveCurrent && !hasFlag last.flags fBootTime then
        { s with
          ring := older ++ [last.stamp t]
          nvs := saveToNvs s.nvs (older ++ [last.stamp t]) s.nextSeq none res }
      else s := by
  unfold Device.noteTime
  rw [hring]
  simp

theorem Recorded.same {h' : History} (hr : Recorded (s, h)) (hring : h'.ring = h.ring)
    (hlen : h'.length = h.length) (hnum : h'.numbers = h.numbers) : Recorded (s, h') := by
  have hnext : h'.next = h.next := by rw [History.next, History.next, hlen]
  have hfew : h'.few → h.few := fun hf => by rwa [History.few, hlen] at hf
  refine ⟨hr.flash.trans hring.symm, fun hf => ?_, fun hs => ?_, fun hs hf => ?_, fun hf => ?_⟩
  · show _ = if h'.next ≠ 0 then h'.next else 1
    rw [hnext]
    exact hr.flashNext (hfew hf)
  · show s.ring = h'.ring ∧ _
    rw [hring]
    exact hr.ring hs
  · exact (hr.next hs (hfew hf)).trans hnext.symm
  · show h'.numbers = List.range' 1 h'.length
    rw [hnum, hlen]
    exact hr.numbers (hfew hf)

theorem Recorded.noteTime {res : SaveResult} (hr : Recorded (s, h)) (hres : res.ring = true) :
    Recorded (s.step (.noteTime t res), history s (.noteTime t res) h) := by
  show Recorded (s.noteTime t res, if s.started then h.note t else h)
  cases hstarted : s.started with
  | false =>
    have hidle : s.noteTime t res = s := by
      unfold Device.noteTime
      split
      · rfl
      · rw [hstarted]
        rfl
    rw [hidle]
    exact hr
  | true =>
    obtain ⟨hring, hcur⟩ := hr.ring hstarted
    -- the newest record is this boot's, if there is any
    rcases List.eq_nil_or_concat h with rfl | ⟨h', ⟨entry, times⟩, rfl⟩
    · have hnil : s.ring = [] := hring
      have hidle : s.noteTime t res = s := by
        unfold Device.noteTime
        rw [hnil]
        rfl
      rw [hidle]
      exact hr
    · rw [List.concat_eq_append] at hr hring ⊢
      have hlast : s.ring = (h'.map settled).rtake 15 ++ [settled (entry, times)] :=
        hring.trans ring_concat
      have hnew : History.ring (h' ++ [(entry, times ++ [t])]) =
          (h'.map settled).rtake 15 ++ [settled (entry, times ++ [t])] := ring_concat
      rw [if_pos rfl, note_concat, noteTime_last hlast, hstarted,
        show s.haveCurrent = true from hcur]
      cases hflag : hasFlag (settled (entry, times)).flags fBootTime with
      | true =>
        -- the record has a time, and keeps it
        rw [settled_note, hflag, if_pos rfl] at hnew
        refine hr.same ?_ (by simp) (by simp [History.numbers])
        exact hnew.trans (hlast.symm.trans hring)
      | false =>
        -- it gets one, and the whole ring is written again
        rw [settled_note, hflag, if_neg Bool.false_ne_true] at hnew
        have hload : loadFromNvs (saveToNvs s.nvs ((h'.map settled).rtake 15 ++
            [(settled (entry, times)).stamp t]) s.nextSeq none res).ring =
            (History.ring (h' ++ [(entry, times ++ [t])]),
              if s.nextSeq ≠ 0 then s.nextSeq else 1) := by
          rw [hnew]
          exact loadFromNvs_saved hres (hnew ▸ ring_length)
        have hlen : (h' ++ [(entry, times ++ [t])]).length = (h' ++ [(entry, times)]).length := by
          simp
        have hnext : History.next (h' ++ [(entry, times ++ [t])]) =
            History.next (h' ++ [(entry, times)]) := by
          rw [History.next, History.next, hlen]
        have hfew : History.few (h' ++ [(entry, times ++ [t])]) →
            s.nextSeq = History.next (h' ++ [(entry, times ++ [t])]) := by
          intro hf
          rw [History.few, hlen] at hf
          exact (hr.next hstarted hf).trans hnext.symm
        refine ⟨congrArg Prod.fst hload, fun hf => ?_, fun _ => ⟨hnew.symm, rfl⟩,
          fun _ hf => hfew hf, fun hf => ?_⟩
        · rw [← hfew hf]
          exact congrArg Prod.snd hload
        · have hnum : History.numbers (h' ++ [(entry, times ++ [t])]) =
              History.numbers (h' ++ [(entry, times)]) := by simp [History.numbers]
          rw [History.few, hlen] at hf
          show History.numbers (h' ++ [(entry, times ++ [t])]) = List.range' 1 _
          rw [hnum, hlen]
          exact hr.numbers hf

theorem Recorded.frame {s' : Device} (hr : Recorded (s, h)) (hnvs : s'.nvs.ring = s.nvs.ring)
    (hstatics : s'.started = true → s.started = true ∧ s'.ring = s.ring ∧
      s'.haveCurrent = s.haveCurrent ∧ s'.nextSeq = s.nextSeq) : Recorded (s', h) := by
  refine ⟨?_, fun hf => ?_, fun hs => ?_, fun hs hf => ?_, hr.numbers⟩
  · show (loadFromNvs s'.nvs.ring).1 = _
    rw [hnvs]
    exact hr.flash
  · show (loadFromNvs s'.nvs.ring).2 = _
    rw [hnvs]
    exact hr.flashNext hf
  · obtain ⟨hs, hring, hcur, _⟩ := hstatics hs
    show s'.ring = _ ∧ s'.haveCurrent = true
    rw [hring, hcur]
    exact hr.ring hs
  · obtain ⟨hs, _, _, hnext⟩ := hstatics hs
    exact hnext.trans (hr.next hs hf)

theorem Recorded.step (hr : Recorded (s, h)) (hwritten : e.ringWritten = true) :
    Recorded (s.step e, history s e h) := by
  cases e with
  | init env res => exact hr.init hwritten
  | noteTime t res => exact hr.noteTime hwritten
  | pass us => exact hr.frame rfl fun hs => ⟨hs, rfl, rfl, rfl⟩
  | tick =>
    show Recorded (if s.started then { s with rtc := s.rtc.setUptime s.uptimeS } else s, h)
    split
    · exact hr.frame rfl fun hs => ⟨hs, rfl, rfl, rfl⟩
    · exact hr
  | noteIntent intent =>
    show Recorded (s.noteIntent intent, h)
    unfold Device.noteIntent
    split
    · exact hr
    · exact hr.frame rfl fun hs => ⟨hs, rfl, rfl, rfl⟩
  | noteReady =>
    show Recorded (s.noteReady, h)
    unfold Device.noteReady
    split
    · exact hr
    · exact hr.frame rfl fun hs => ⟨hs, rfl, rfl, rfl⟩
  | checkpointTick res =>
    show Recorded (s.checkpointTick res, h)
    unfold Device.checkpointTick
    split
    · refine hr.frame ?_ fun hs => ⟨hs, rfl, rfl, rfl⟩
      dsimp only
      split <;> rfl
    · exact hr
  | warmReset => exact hr.frame rfl fun hs => absurd hs Bool.false_ne_true
  | powerCycle rtc => exact hr.frame rfl fun hs => absurd hs Bool.false_ne_true

theorem blank_recorded (rtc : Rtc) : Recorded (Device.blank rtc, []) :=
  ⟨rfl, fun _ => rfl, fun hs => absurd hs Bool.false_ne_true,
    fun hs => absurd hs Bool.false_ne_true, fun _ => rfl⟩

theorem Recorded.run (rtc : Rtc) {es : List Event} (hes : ∀ e ∈ es, e.ringWritten = true) :
    Recorded (es.foldl (watch Device.step history) (Device.blank rtc, [])) :=
  (along_events.mpr hes).invariant (blank_recorded rtc) fun _ _ hI hok => hI.step hok

def plainEnv : BootEnv := ⟨3, none, .unknown, [], none⟩

/-- So many boots that do nothing but record themselves. -/
def plainBoots (n : Nat) : List Event :=
  (List.replicate n [Event.init plainEnv {}, .warmReset]).flatten

/-- **The history is restored.** The next boot finds the newest sixteen records in order, as
    their boots left them and numbered one after the other; and a blob of version 1 gives the
    records it was built from, without a time. -/
theorem Device.history_restored (rtc : Rtc) (es : List Event)
    (hes : ∀ e ∈ es, e.ringWritten = true)
    (hfew : (es.foldl (watch Device.step history) (Device.blank rtc, [])).2.length < 4294967296) :
    let now := es.foldl (watch Device.step history) (Device.blank rtc, [])
    let restored := (loadFromNvs now.1.nvs.ring).1
    restored = (now.2.map settled).rtake maxRecords ∧
      restored.map (·.bootSeq.toNat) = (List.range' 1 now.2.length).rtake maxRecords ∧
      ∀ (recs : List (Entry × UInt8)) (nextSeq : BitVec 32), recs.length ≤ maxRecords →
        (loadFromNvs (some (blob 1 recs nextSeq))).1 =
          recs.map fun r => { r.1 with bootEpoch := 0, flags := r.1.flags &&& ~~~fBootTime } := by
  intro now restored
  have hnow : Recorded now := Recorded.run rtc hes
  have hrestored : restored = (now.2.map settled).rtake maxRecords := hnow.flash
  refine ⟨hrestored, ?_, fun recs nextSeq hlen => ?_⟩
  · rw [hrestored, ← hnow.numbers hfew]
    unfold List.rtake
    simp [History.numbers, List.map_drop, Function.comp_def, settled_bootSeq]
  · rw [loadFromNvs_blob (.inl rfl) hlen]
    rfl

theorem history_restored_seventeen :
    let es := plainBoots 16 ++ [.init plainEnv {}, .noteTime 1700000000 {}, .noteTime 5 {}]
    let now := es.foldl (watch Device.step history) (Device.blank ⟨0, 0, 0, 0, 0, 0, 0⟩, [])
    let restored := (loadFromNvs now.1.nvs.ring).1
    restored = (now.2.map settled).rtake maxRecords ∧
      restored.map (·.bootSeq.toNat) = (List.range' 1 now.2.length).rtake maxRecords ∧
      ∀ (recs : List (Entry × UInt8)) (nextSeq : BitVec 32), recs.length ≤ maxRecords →
        (loadFromNvs (some (blob 1 recs nextSeq))).1 =
          recs.map fun r => { r.1 with bootEpoch := 0, flags := r.1.flags &&& ~~~fBootTime } :=
  Device.history_restored _ _ (by decide) (by decide +kernel)

/-! ## Out of numbers -/

theorem plainBoots_run (rtc : Rtc) (n : Nat) :
    let now := (plainBoots n).foldl (watch Device.step history) (Device.blank rtc, [])
    now.2.length = n ∧ now.1.started = false := by
  -- one boot more, after all the others
  induction n with
  | zero => exact ⟨rfl, rfl⟩
  | succ n ih =>
    obtain ⟨hlen, hstarted⟩ := ih
    have hcut : plainBoots (n + 1) = plainBoots n ++ [.init plainEnv {}, .warmReset] := by
      simp [plainBoots, List.replicate_succ']
    rw [hcut, List.foldl_append]
    refine ⟨?_, rfl⟩
    show (if Device.started _ then _ else _ ++ [_] : History).length = n + 1
    rw [if_neg (Bool.not_eq_true _ ▸ hstarted), List.length_append, hlen]
    rfl

theorem plainBoots_written (n : Nat) : ∀ e ∈ plainBoots n, e.ringWritten = true := by
  intro e he
  simp only [plainBoots, List.mem_flatten, List.mem_replicate] at he
  obtain ⟨l, ⟨_, rfl⟩, he⟩ := he
  rcases List.mem_cons.mp he with rfl | he
  · rfl
  · rw [List.mem_singleton.mp he]
    rfl

theorem Recorded.wrap {env : BootEnv} {res : SaveResult} (hr : Recorded (s, h))
    (hn : h.length + 1 = 4294967296) (hstarted : s.started = false) (hres : res.ring = true) :
    ∃ older newer : Entry,
      [older, newer] <:+: (loadFromNvs (s.step (.init env res)).nvs.ring).1 ∧
        older.bootSeq.toNat = h.length ∧ newer.bootSeq.toNat = 1 := by
  have hfew : h.few := by
    unfold History.few
    omega
  have hone : (s.newRecord env).bootSeq = 1 := by
    have hzero : h.next = 0 := by
      rw [History.next, hn]
      rfl
    show (loadFromNvs s.nvs.ring).2 = 1
    rw [hr.flashNext hfew]
    exact if_neg (not_not.mpr hzero)
  have hnum : h.numbers = List.range' 1 h.length := hr.numbers hfew
  have hflash : (loadFromNvs (s.step (.init env res)).nvs.ring).1 =
      (history s (.init env res) h).ring := (hr.init hres).flash
  have hhist : history s (.init env res) h = h ++ [(s.newRecord env, [])] := by
    show (if s.started then h else _) = _
    rw [hstarted, if_neg Bool.false_ne_true]
  rcases List.eq_nil_or_concat h with rfl | ⟨h', x, rfl⟩
  · exact absurd hn (by decide)
  · rw [List.concat_eq_append] at hnum hflash hhist ⊢
    refine ⟨settled x, s.newRecord env, ?_, ?_, by rw [hone]; rfl⟩
    · rw [hflash, hhist, ring_concat, List.map_append, List.map_singleton,
        show (15 : Nat) = 14 + 1 from rfl, List.rtake_concat_succ]
      exact ⟨(h'.map settled).rtake 14, [], by simp [settled]⟩
    · -- the numbers end in the length
      have hcat : History.numbers h' ++ [x.1.bootSeq.toNat] =
          List.range' 1 h'.length ++ [1 + h'.length] := by
        rw [← List.range'_1_concat]
        simpa [History.numbers] using hnum
      have hx : x.1.bootSeq.toNat = 1 + h'.length :=
        List.singleton_inj.mp (List.append_inj_right' hcat rfl)
      rw [settled_bootSeq, hx]
      simp [Nat.add_comm]

/-- Without the bound the numbers of the restored ring need not increase. -/
theorem history_wraps_at {n : Nat} (hn : n + 1 = 4294967296) :
    ¬ ∀ (rtc : Rtc) (es : List Event), (∀ e ∈ es, e.ringWritten = true) →
      let now := es.foldl (watch Device.step history) (Device.blank rtc, [])
      ∀ older newer : Entry, [older, newer] <:+: (loadFromNvs now.1.nvs.ring).1 →
        newer.bootSeq.toNat = older.bootSeq.toNat + 1 := by
  intro hall
  let rtc : Rtc := ⟨0, 0, 0, 0, 0, 0, 0⟩
  obtain ⟨hlen, hstarted⟩ := plainBoots_run rtc n
  have hrec := Recorded.run rtc (plainBoots_written n)
  have hcount : _ + 1 = 4294967296 := (congrArg (· + 1) hlen).trans hn
  obtain ⟨older, newer, hin, holder, hnewer⟩ :=
    hrec.wrap hcount hstarted (rfl : SaveResult.ring {} = true)
  have hwritten : ∀ e ∈ plainBoots n ++ [Event.init plainEnv {}], e.ringWritten = true := by
    intro e he
    rcases List.mem_append.mp he with he | he
    · exact plainBoots_written n e he
    · rw [List.mem_singleton.mp he]
      rfl
  have hstep := hall rtc _ hwritten older newer
  rw [List.foldl_append] at hstep
  have hnext := hstep hin
  rw [hnewer, holder, hlen] at hnext
  omega

/-- After 2^32 boots the two newest records of the ring are numbered 2^32 - 1 and 1. -/
theorem history_wraps :
    ¬ ∀ (rtc : Rtc) (es : List Event), (∀ e ∈ es, e.ringWritten = true) →
      let now := es.foldl (watch Device.step history) (Device.blank rtc, [])
      ∀ older newer : Entry, [older, newer] <:+: (loadFromNvs now.1.nvs.ring).1 →
        newer.bootSeq.toNat = older.bootSeq.toNat + 1 :=
  history_wraps_at (show 4294967295 + 1 = 4294967296 from rfl)

end

end Reset
end Wt32Router
