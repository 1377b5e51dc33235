import Wt32Router.Lib.Newest
import Wt32Router.Lib.Runs
import Wt32Router.Track.Bridge

/-!
# The traffic history of a client

Ten times a second `client_track_fast_sample` takes the rates of every entry, and each entry keeps
the last 32 of them. A page asks for those it does not have with the count it was given last.

A slot's history goes with its entry: `find_or_create_locked` clears both. The table itself is as
`Track/Bridge.lean` has it, with the histories beside it (`Tracked.carry`).

> **`history_polling`**: in every run an answer is the samples taken since the last one, or it says
> that it is not, exactly where the entry is still the one of the last answer or the difference
> of the counts exceeds what the ring has.

"Unsigned subtraction: also correctly treats a since_seq from before a reboot", says the source,
for it "underflows to a huge value"; until the new count has caught up with the old one.
-/

namespace Wt32Router
namespace Track

open Dhcp (Ip Mac)
open Lib (Along Keeps watch)

/-! ## The samples of an entry -/

/-- `CLIENT_TRACK_HISTORY_PERIOD_MS`. -/
def historyPeriodMs : Nat := 100

/-- `CLIENT_TRACK_HISTORY_LEN`. -/
def historyLen : Nat := 32

instance : NeZero historyLen := ⟨by decide⟩

/-- What `hist_rx`, `hist_tx`, `hist_rx_pps` and `hist_tx_pps` have at one index. -/
structure Sample where
  rxBps : BitVec 32
  txBps : BitVec 32
  rxPps : BitVec 32
  txPps : BitVec 32
deriving DecidableEq, Repr

/-- The rest of `client_entry_t`, which only the fast samples touch. -/
structure FastHistory where
  rxBytesPrevFast : BitVec 32 := 0
  txBytesPrevFast : BitVec 32 := 0
  rxPktsPrevFast : BitVec 32 := 0
  txPktsPrevFast : BitVec 32 := 0
  hist : Fin historyLen → Sample := fun _ => ⟨0, 0, 0, 0⟩
  histSeq : BitVec 32 := 0

/-- A counter's increase, a second's worth of it. -/
def fastRate (now prev : BitVec 32) : BitVec 32 :=
  (now - prev) * BitVec.ofNat 32 (1000 / historyPeriodMs)

def FastHistory.sample (h : FastHistory) (e : Client) : Sample where
  rxBps := fastRate e.rxBytes h.rxBytesPrevFast
  txBps := fastRate e.txBytes h.txBytesPrevFast
  rxPps := fastRate e.rxPkts h.rxPktsPrevFast
  txPps := fastRate e.txPkts h.txPktsPrevFast

/-- `client_track_fast_sample`, for one entry. -/
def FastHistory.fastSample (h : FastHistory) (e : Client) : FastHistory where
  rxBytesPrevFast := e.rxBytes
  txBytesPrevFast := e.txBytes
  rxPktsPrevFast := e.rxPkts
  txPktsPrevFast := e.txPkts
  hist := Function.update h.hist (Fin.ofNat historyLen h.histSeq.toNat) (h.sample e)
  histSeq := h.histSeq + 1

/-- `client_history_t`; `count` is how many samples there are. -/
structure ClientHistory where
  seq : BitVec 32
  reset : Bool
  samples : List Sample
deriving DecidableEq, Repr

/-- `client_track_get_history`, once the entry is found. -/
def FastHistory.get (h : FastHistory) (sinceSeq : BitVec 32) : ClientHistory :=
  let len := BitVec.ofNat 32 historyLen
  let avail := h.histSeq - sinceSeq
  let reset := len < avail
  let avail := if reset then if h.histSeq < len then h.histSeq else len else avail
  let start := h.histSeq - avail
  { seq := h.histSeq
    reset
    samples := (List.range avail.toNat).map fun k =>
      h.hist (Fin.ofNat historyLen (start + BitVec.ofNat 32 k).toNat) }

/-! ## The tracker -/

structure Tracked where
  bridge : Bridge
  hist : ClientSlot → FastHistory

/-- `find_or_create_locked` has made an entry in this slot. -/
def created (t t' : ClientTable) (i : ClientSlot) : Bool :=
  !(t.clients i).active && (t'.clients i).active

/-- A step of the rest of the tracker: the histories stay as they are, but for those of the entries
    it makes. -/
def Tracked.carry (s : Tracked) (b : Bridge) : Tracked :=
  ⟨b, fun i => if created s.bridge.table b.table i then {} else s.hist i⟩

def Tracked.fastSample (s : Tracked) : Tracked :=
  { s with hist := fun i =>
      if (s.bridge.table.clients i).active then
        (s.hist i).fastSample (s.bridge.table.clients i)
      else s.hist i }

/-- `client_track_get_history`. -/
def Tracked.getHistory (s : Tracked) (mac : Mac) (sinceSeq : BitVec 32) : Option ClientHistory :=
  (findLocked s.bridge.table mac).map fun i => (s.hist i).get sinceSeq

/-- The tracker as it starts: no entry, and whatever the memory of the histories holds is 0. -/
def Tracked.boot (dhcp : Dhcp.System) : Tracked := ⟨⟨.empty, dhcp⟩, fun _ => {}⟩

/-- The tracker, and the number that whoever asks for this client's history will send. -/
structure Polling where
  tracked : Tracked
  sinceSeq : BitVec 32

inductive HistoryEvent where
  /-- anything that happens to the table and to the server -/
  | bridge (e : Event)
  | fastSample
  | getHistory
  | reboot (now : Nat) (cfg : Dhcp.Config)

def HistoryEvent.isFastSample : HistoryEvent → Bool
  | .fastSample => true
  | _ => false

def Polling.step (mac : Mac) (p : Polling) : HistoryEvent → Polling
  | .bridge e => { p with tracked := p.tracked.carry (p.tracked.bridge.step e) }
  | .fastSample => { p with tracked := p.tracked.fastSample }
  | .getHistory =>
    { p with
      sinceSeq := ((p.tracked.getHistory mac p.sinceSeq).map ClientHistory.seq).getD p.sinceSeq }
  | .reboot now cfg =>
    { p with tracked := .boot (p.tracked.bridge.dhcp.step (.reboot now cfg)) }

/-! ## What has been taken and what has been delivered -/

/-- The entry of a slot: which one of those it has had, and all its samples. -/
structure Life where
  number : Nat
  samples : List Sample

/-- The entry that an answer was about, and how many samples it had then. -/
structure Answered where
  slot : ClientSlot
  number : Nat
  count : Nat

structure Followed where
  lives : ClientSlot → Life
  answered : Option Answered
  /-- how often samples were taken -/
  taken : Nat

def Followed.start : Followed := ⟨fun _ => ⟨0, []⟩, none, 0⟩

def Followed.next (mac : Mac) (p : Polling) (e : HistoryEvent) (w : Followed) : Followed :=
  match e with
  | .bridge e =>
    { w with lives := fun i =>
        if created p.tracked.bridge.table (p.tracked.bridge.step e).table i then
          ⟨(w.lives i).number + 1, []⟩
        else w.lives i }
  | .fastSample =>
    { w with
      lives := fun i =>
        let e := p.tracked.bridge.table.clients i
        if e.active then
          { w.lives i with samples := (w.lives i).samples ++ [(p.tracked.hist i).sample e] }
        else w.lives i
      taken := w.taken + 1 }
  | .getHistory =>
    { w with
      answered := ((findLocked p.tracked.bridge.table mac).map fun i =>
        ⟨i, (w.lives i).number, (w.lives i).samples.length⟩).or w.answered }
  | .reboot _ _ => w

/-- **What an answer should be**: at most 32 samples, the newest of the entry; and unless it says
    `reset`, all that were taken since the last answer, which was about the same entry. -/
structure HistoryOk (w : Followed) (i : ClientSlot) (out : ClientHistory) : Prop where
  few : out.samples.length ≤ historyLen
  newest : out.samples <:+ (w.lives i).samples
  complete : out.reset = false → ∀ a ∈ w.answered,
    (a.slot = i ∧ a.number = (w.lives i).number) ∧
      out.samples = (w.lives i).samples.drop a.count

/-- The answer to a call now, if there is one, is as it should be. -/
def Right (mac : Mac) (p : Polling) (w : Followed) : Prop :=
  ∀ out, p.tracked.getHistory mac p.sinceSeq = some out →
    ∀ i, findLocked p.tracked.bridge.table mac = some i → HistoryOk w i out

/-- The difference of the counts exceeds what the ring has, or the number sent is one of this
    entry: that of the last answer, or of a first call no more than the count. -/
def Told (mac : Mac) (p : Polling) (w : Followed) : Prop :=
  ∀ i, findLocked p.tracked.bridge.table mac = some i →
    BitVec.ofNat 32 historyLen < (p.tracked.hist i).histSeq - p.sinceSeq ∨
      match w.answered with
      | none => p.sinceSeq ≤ (p.tracked.hist i).histSeq
      | some a => a.slot = i ∧ a.number = (w.lives i).number

section

variable {mac : Mac} {h : FastHistory} {e : Client} {xs : List Sample} {sinceSeq seq m : BitVec 32}
  {i : ClientSlot} {p : Polling} {w : Followed} {out : ClientHistory} {ev : HistoryEvent}

/-! ## One history -/

/-- The history has counted all samples of its entry and keeps the newest. -/
structure FastHistory.Of (h : FastHistory) (xs : List Sample) : Prop where
  count : h.histSeq.toNat = xs.length
  keeps : Keeps h.hist xs

theorem FastHistory.Of.cleared : ({} : FastHistory).Of [] := ⟨rfl, .nil _⟩

theorem FastHistory.Of.fastSample (ho : h.Of xs) (hfew : xs.length + 1 < 2 ^ 32) :
    (h.fastSample e).Of (xs ++ [h.sample e]) := by
  constructor
  · show (h.histSeq + 1).toNat = _
    rw [BitVec.toNat_add, ho.count, List.length_append, List.length_singleton]
    exact Nat.mod_eq_of_lt hfew
  · show Keeps (Function.update h.hist (Fin.ofNat historyLen h.histSeq.toNat) (h.sample e)) _
    rw [ho.count]
    exact ho.keeps.push

/-- What `client_track_get_history` copies, of a number that the ring and the entry have. -/
theorem FastHistory.Of.newest (ho : h.Of xs) (hring : m.toNat ≤ historyLen)
    (hm : m.toNat ≤ xs.length) :
    ((List.range m.toNat).map fun k =>
        h.hist (Fin.ofNat historyLen (h.histSeq - m + BitVec.ofNat 32 k).toNat)) =
      xs.drop (xs.length - m.toNat) := by
  rw [← ho.keeps.newest hring hm]
  refine List.map_congr_left fun k hk => ?_
  have hlt := List.mem_range.mp hk
  have hcount := ho.count
  have hnum : (h.histSeq - m + BitVec.ofNat 32 k).toNat = xs.length - m.toNat + k := by
    have hbound := h.histSeq.isLt
    rw [BitVec.toNat_add, BitVec.toNat_sub, BitVec.toNat_ofNat, hcount]
    omega
  rw [hnum]

/-- Too far behind: the newest there are. -/
theorem FastHistory.Of.get_far (ho : h.Of xs)
    (hfar : BitVec.ofNat 32 historyLen < h.histSeq - sinceSeq) :
    (h.get sinceSeq).reset = true ∧ (h.get sinceSeq).samples.length ≤ historyLen ∧
      (h.get sinceSeq).samples <:+ xs := by
  have hcount := ho.count
  have hlen : (BitVec.ofNat 32 historyLen).toNat = historyLen := rfl
  have hsome : ∀ m, m = (if h.histSeq < BitVec.ofNat 32 historyLen then h.histSeq
      else BitVec.ofNat 32 historyLen) → m.toNat ≤ historyLen ∧ m.toNat ≤ xs.length := by
    rintro _ rfl
    split
    · rename_i hlt
      rw [BitVec.lt_def, hlen] at hlt
      omega
    · rename_i hge
      rw [BitVec.lt_def, hlen] at hge
      omega
  obtain ⟨hring, hm⟩ := hsome _ rfl
  have hnewest := ho.newest hring hm
  unfold FastHistory.get
  dsimp only
  rw [if_pos hfar, hnewest]
  refine ⟨decide_eq_true hfar, ?_, List.drop_suffix _ _⟩
  rw [List.length_drop]
  omega

/-- Near enough: so many as the counts differ by, which are those in between if the number sent is
    no more than the count. -/
theorem FastHistory.Of.get_near (ho : h.Of xs)
    (hnear : ¬ BitVec.ofNat 32 historyLen < h.histSeq - sinceSeq) :
    (h.get sinceSeq).reset = false ∧
      (h.get sinceSeq).samples.length = (h.histSeq - sinceSeq).toNat ∧
      (h.get sinceSeq).samples.length ≤ historyLen ∧
      (sinceSeq ≤ h.histSeq → (h.get sinceSeq).samples = xs.drop sinceSeq.toNat) := by
  have hreset := decide_eq_false hnear
  have hring : (h.histSeq - sinceSeq).toNat ≤ historyLen := BitVec.not_lt.mp hnear
  have hlength : (h.get sinceSeq).samples.length = (h.histSeq - sinceSeq).toNat := by
    unfold FastHistory.get
    dsimp only
    rw [if_neg hnear, List.length_map, List.length_range]
  refine ⟨hreset, hlength, hlength ▸ hring, fun hle => ?_⟩
  have hcount := ho.count
  have hdiff : (h.histSeq - sinceSeq).toNat = xs.length - sinceSeq.toNat := by
    rw [BitVec.toNat_sub_of_le hle, hcount]
  have hle : sinceSeq.toNat ≤ xs.length := hcount ▸ BitVec.le_def.mp hle
  unfold FastHistory.get
  dsimp only
  rw [if_neg hnear, ho.newest hring (by omega), hdiff]
  congr 1
  omega

/-- Whatever the number sent, the answer has room. -/
theorem FastHistory.get_length (h : FastHistory) (sinceSeq : BitVec 32) :
    (h.get sinceSeq).samples.length ≤ historyLen := by
  have hlen : (BitVec.ofNat 32 historyLen).toNat = historyLen := rfl
  unfold FastHistory.get
  simp only [List.length_map, List.length_range]
  split
  · split
    · rename_i hlt
      exact Nat.le_of_lt (hlen ▸ BitVec.lt_def.mp hlt)
    · exact Nat.le_of_eq hlen
  · rename_i hnear
    exact hlen ▸ BitVec.not_lt.mp (by simpa using hnear)

/-! ## Whole runs -/

/-- The histories are those of the entries there are, and the number sent is that of the last
    answer. -/
structure Polling.Inv (p : Polling) (w : Followed) : Prop where
  entries : ∀ i, (p.tracked.bridge.table.clients i).active = true →
    (p.tracked.hist i).Of (w.lives i).samples ∧ (w.lives i).samples.length ≤ w.taken
  answered : ∀ a ∈ w.answered, a.number ≤ (w.lives a.slot).number ∧
    ((p.tracked.bridge.table.clients a.slot).active = true → a.number = (w.lives a.slot).number →
      p.sinceSeq.toNat = a.count ∧ a.count ≤ (w.lives a.slot).samples.length)

theorem boot_inactive (dhcp : Dhcp.System) (i : ClientSlot) :
    ((Tracked.boot dhcp).bridge.table.clients i).active = false := rfl

theorem Polling.Inv.boot (dhcp : Dhcp.System) (sinceSeq : BitVec 32) :
    Polling.Inv ⟨.boot dhcp, sinceSeq⟩ .start :=
  ⟨fun i hi => absurd ((boot_inactive dhcp i).symm.trans hi) (by decide),
    fun _ ha => absurd ha (by simp [Followed.start])⟩

/-- The entries made are those of the branch of `find_or_create_locked` that clears a slot. -/
theorem created_iff {t t' : ClientTable} {now : Nat} {j : ClientSlot}
    (h : findOrCreateLocked t mac now = some (t', i)) :
    created t t' j = true ↔ j = i ∧ findLocked t mac = none := by
  unfold created
  rcases findOrCreateLocked_cases h with ⟨hfound, rfl⟩ | ⟨hnone, hfree, rfl⟩
  · rw [hfound]
    cases (t'.clients j).active <;> simp
  · by_cases hj : j = i
    · subst hj
      simp [hnone, hfree]
    · rw [ClientTable.set_other t _ hj]
      cases (t.clients j).active <;> simp [hj]

/-- An entry that was made is new, and any other that is there was there. -/
theorem created_cases {t t' : ClientTable} (hi : (t'.clients i).active = true) :
    created t t' i = true ∨ created t t' i = false ∧ (t.clients i).active = true := by
  unfold created
  cases (t.clients i).active <;> simp [hi]

theorem Polling.Inv.bridge (hinv : p.Inv w) (e : Event) :
    (p.step mac (.bridge e)).Inv (w.next mac p (.bridge e)) := by
  constructor
  · intro i hi
    have hi : ((p.tracked.bridge.step e).table.clients i).active = true := hi
    simp only [Polling.step, Tracked.carry, Followed.next]
    rcases created_cases hi with hnew | ⟨hold, hactive⟩
    · rw [if_pos hnew, if_pos hnew]
      exact ⟨.cleared, Nat.zero_le _⟩
    · rw [hold]
      exact hinv.entries i hactive
  · intro a ha
    obtain ⟨hnumber, hsent⟩ := hinv.answered a ha
    simp only [Polling.step, Tracked.carry, Followed.next]
    cases hnew : created p.tracked.bridge.table (p.tracked.bridge.step e).table a.slot with
    | true =>
      -- the number of a new entry is none that was answered for
      exact ⟨Nat.le_succ_of_le hnumber, fun _ heq =>
        absurd heq (Nat.ne_of_lt (Nat.lt_succ_of_le hnumber))⟩
    | false =>
      refine ⟨hnumber, fun hi heq => ?_⟩
      rcases created_cases hi with hcreated | ⟨-, hactive⟩
      · exact absurd (hnew.symm.trans hcreated) (by decide)
      · exact hsent hactive heq

theorem Polling.Inv.fastSample (hinv : p.Inv w) (hfew : w.taken + 1 < 2 ^ 32) :
    (p.step mac .fastSample).Inv (w.next mac p .fastSample) := by
  constructor
  · intro i hi
    have hi : (p.tracked.bridge.table.clients i).active = true := hi
    obtain ⟨hof, htaken⟩ := hinv.entries i hi
    simp only [Polling.step, Tracked.fastSample, Followed.next]
    rw [if_pos hi, if_pos hi, List.length_append, List.length_singleton]
    exact ⟨hof.fastSample (by omega), by omega⟩
  · intro a ha
    obtain ⟨hnumber, hsent⟩ := hinv.answered a ha
    simp only [Polling.step, Tracked.fastSample, Followed.next]
    split
    · refine ⟨hnumber, fun hi heq => ?_⟩
      obtain ⟨hseq, hcount⟩ := hsent hi heq
      exact ⟨hseq, by rw [List.length_append]; omega⟩
    · exact ⟨hnumber, hsent⟩

theorem Polling.Inv.getHistory (hinv : p.Inv w) :
    (p.step mac .getHistory).Inv (w.next mac p .getHistory) := by
  simp only [Polling.step, Followed.next, Tracked.getHistory]
  cases hfind : findLocked p.tracked.bridge.table mac with
  | none => exact hinv
  | some i =>
    obtain ⟨hof, -⟩ := hinv.entries i (findLocked_some hfind).1
    refine ⟨hinv.entries, ?_⟩
    rintro a ⟨rfl⟩
    exact ⟨Nat.le_refl _, fun _ _ => ⟨hof.count, Nat.le_refl _⟩⟩

theorem Polling.Inv.step (hinv : p.Inv w) (hfew : ev.isFastSample = true → w.taken + 1 < 2 ^ 32) :
    (p.step mac ev).Inv (w.next mac p ev) := by
  cases ev with
  | bridge e => exact hinv.bridge e
  | fastSample => exact hinv.fastSample (hfew rfl)
  | getHistory => exact hinv.getHistory
  | reboot now cfg =>
    have hnone := boot_inactive (p.tracked.bridge.dhcp.step (.reboot now cfg))
    exact ⟨fun i hi => absurd ((hnone i).symm.trans hi) (by decide), fun a ha =>
      ⟨(hinv.answered a ha).1, fun hi => absurd ((hnone a.slot).symm.trans hi) (by decide)⟩⟩

/-- An answer is as it should be exactly where the condition on the numbers holds. -/
theorem right_iff (hinv : p.Inv w) : Right mac p w ↔ Told mac p w := by
  unfold Right Told Tracked.getHistory
  cases hfind : findLocked p.tracked.bridge.table mac with
  | none => simp
  | some i =>
    obtain ⟨hof, -⟩ := hinv.entries i (findLocked_some hfind).1
    simp only [Option.map_some, Option.some.injEq, forall_eq']
    by_cases hfar : BitVec.ofNat 32 historyLen < (p.tracked.hist i).histSeq - p.sinceSeq
    · obtain ⟨hreset, hfew, hnewest⟩ := hof.get_far hfar
      exact iff_of_true ⟨hfew, hnewest, fun h => absurd (hreset.symm.trans h) (by decide)⟩
        (.inl hfar)
    · rw [or_iff_right hfar]
      obtain ⟨hreset, hlength, hfew, hsamples⟩ := hof.get_near hfar
      have hsuffix : p.sinceSeq ≤ (p.tracked.hist i).histSeq →
          ((p.tracked.hist i).get p.sinceSeq).samples <:+ (w.lives i).samples := fun hle =>
        hsamples hle ▸ List.drop_suffix _ _
      cases hanswered : w.answered with
      | none =>
        refine ⟨fun h => ?_, fun hle => ⟨hfew, hsuffix hle, fun _ a ha => ?_⟩⟩
        · -- more samples than the entry has are none of its own
          have hle := h.newest.length_le
          have hcount := hof.count
          rw [hlength, BitVec.toNat_sub] at hle
          rw [BitVec.le_def]
          have hbound := p.sinceSeq.isLt
          omega
        · exact absurd ha (by simp [hanswered])
      | some a =>
        refine ⟨fun h => (h.complete hreset a hanswered).1, fun hsame => ?_⟩
        obtain ⟨rfl, hnumber⟩ := hsame
        obtain ⟨hseq, hcount⟩ := (hinv.answered a hanswered).2 (findLocked_some hfind).1 hnumber
        have hle : p.sinceSeq ≤ (p.tracked.hist a.slot).histSeq := by
          rw [BitVec.le_def, hseq, hof.count]
          exact hcount
        refine ⟨hfew, hsuffix hle, fun _ b hb => ?_⟩
        obtain rfl := Option.some.inj (hanswered.symm.trans hb)
        exact ⟨⟨rfl, hnumber⟩, by rw [hsamples hle, hseq]⟩

theorem next_taken : (w.next mac p ev).taken = w.taken + if ev.isFastSample then 1 else 0 := by
  cases ev <;> rfl

theorem Polling.Inv.along (hinv : p.Inv w) {es : List HistoryEvent}
    (hfew : w.taken + es.countP HistoryEvent.isFastSample < 2 ^ 32) :
    Along (watch (Polling.step mac) (Followed.next mac))
      (fun s e => e = .getHistory → (Right mac s.1 s.2 ↔ Told mac s.1 s.2)) (p, w) es := by
  induction es generalizing p w with
  | nil => trivial
  | cons ev es ih =>
    rw [List.countP_cons] at hfew
    refine ⟨fun _ => right_iff hinv, ih (hinv.step fun hfast => ?_) ?_⟩
    · rw [if_pos hfast] at hfew
      omega
    · show (w.next mac p ev).taken + es.countP HistoryEvent.isFastSample < 2 ^ 32
      rw [next_taken]
      omega

/-- **Each answer of a run**, of fewer than 2^32 samples and whatever else happens to the table, the
    server and the device, is right exactly where the numbers tell. -/
theorem history_polling (mac : Mac) (dhcp : Dhcp.System) (sinceSeq : BitVec 32)
    (es : List HistoryEvent) (hfew : es.countP HistoryEvent.isFastSample < 2 ^ 32) :
    Along (watch (Polling.step mac) (Followed.next mac))
      (fun s e => e = .getHistory → (Right mac s.1 s.2 ↔ Told mac s.1 s.2))
      (⟨.boot dhcp, sinceSeq⟩, .start) es :=
  (Polling.Inv.boot dhcp sinceSeq).along ((Nat.zero_add _).symm ▸ hfew)

/-- A client is heard and sampled once, and the page is given the number 1; then the device
    reboots, and the client is heard again and sampled twice. -/
def rebooted : List HistoryEvent :=
  let heard := .bridge (.account 1000 ⟨0x0200000000aa, true, 60, true, 0⟩)
  [heard, .fastSample, .getHistory, .reboot 0 Dhcp.shipped, heard, .fastSample, .fastSample]

theorem history_polling_rebooted :
    Along (watch (Polling.step 0x0200000000aa) (Followed.next 0x0200000000aa))
      (fun s e => e = .getHistory →
        (Right 0x0200000000aa s.1 s.2 ↔ Told 0x0200000000aa s.1 s.2))
      (⟨.boot (Dhcp.powerOn Dhcp.shipped none 0), 0⟩, .start) (rebooted ++ [.getHistory]) :=
  history_polling 0x0200000000aa (Dhcp.powerOn Dhcp.shipped none 0) 0 (rebooted ++ [.getHistory])
    (by decide)

/-- The page is given one sample of the two, and not told that they are another entry's. -/
theorem history_polling_fails :
    ¬ ∀ (mac : Mac) (dhcp : Dhcp.System) (sinceSeq : BitVec 32) (es : List HistoryEvent),
      es.countP HistoryEvent.isFastSample < 2 ^ 32 →
      Along (watch (Polling.step mac) (Followed.next mac))
        (fun s e => e = .getHistory → Right mac s.1 s.2) (⟨.boot dhcp, sinceSeq⟩, .start) es := by
  intro h
  have hrun := h 0x0200000000aa (Dhcp.powerOn Dhcp.shipped none 0) 0 (rebooted ++ [.getHistory])
    (by decide)
  have hright := (Lib.along_append.mp hrun).2.1 rfl
  have hanswer : ((rebooted.foldl (watch (Polling.step 0x0200000000aa)
      (Followed.next 0x0200000000aa))
        (⟨.boot (Dhcp.powerOn Dhcp.shipped none 0), 0⟩, .start)).1.tracked.getHistory
          0x0200000000aa 1).map ClientHistory.reset = some false := by decide +kernel
  obtain ⟨out, hout, hreset⟩ := Option.map_eq_some_iff.mp hanswer
  have hok := hright out hout ⟨0, by decide⟩ (by decide +kernel)
  exact absurd (hok.complete hreset ⟨⟨0, by decide⟩, 1, 1⟩ rfl).1.2 (by decide +kernel)

end

end Track
end Wt32Router
