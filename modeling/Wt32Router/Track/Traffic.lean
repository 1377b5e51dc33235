import Mathlib.Data.BitVec
import Wt32Router.Lib.Racy
import Wt32Router.Track.Enforcer
import Wt32Router.Track.Frames

/-!
# What a client's counters count

Every frame to or from a client leaves an event on its way through one of the wrappers. Traffic is
not to wait for accounting: the event is queued if the queue has room, and counted as lost if it
has not, and a task of its own takes the events off the queue and into the clients' entries. The
wrappers run in the tasks of both drivers and of the stack, and the count of what is lost has no
lock, "for the measured reason".

> **`events_conserved`**: the events that found room are accounted for in their order, each once,
> and no others are; and the count of the lost is never too high, and exact if no two of the tasks
> are at it at once.

> **`drops_swallowed`**: how far too low it can be, on the other hand, has no bound. Two frames'
> worth of bad luck are enough to lose the count of any number.

> **`counters_tally`**: the counters of an entry are the sums over the events that have been
> accounted for its client since the entry was made, and the rates those over what came between the
> last two ticks.

The sums are modulo 2^32, as the counters are.
-/

namespace Wt32Router
namespace Track

open Dhcp (Ip Mac System)
open Lib
open Wan (Pbuf)

/-! ## The way out of a port -/

/-- `hdr->dest.addr`. -/
def destAddr (hdr : List UInt8) : Mac := BitVec.ofNat 48 (beNat 6 hdr)

/-- The header that `traffic_output_wrapper` looks at. -/
def txHeader (p : Pbuf) : Option (List UInt8) :=
  if 12 ≤ p.len then some p.payload
  else if 12 ≤ p.totLen then some (p.bytes.take 12)
  else none

/-- What becomes of a frame that the bridge sends on a port. -/
structure Sent where
  event : Option TrafficEvent := none
  /-- the frame goes on to the port's own output -/
  chained : Bool := true
deriving DecidableEq

/-- `traffic_output_wrapper`, with what `mac_is_quarantined` answers. -/
def trafficOutputWrapper (bridgeMac : Mac) (quarantined : Mac → Bool) (p : Option Pbuf)
    (isWifi : Bool) : Sent :=
  match p with
  | none => {}
  | some p =>
    match txHeader p with
    | none => {}
    | some hdr =>
      let dest := destAddr hdr
      if macIsClient bridgeMac dest then
        { event := some
            { mac := dest, isWifi := isWifi, bytes := BitVec.ofNat 16 p.totLen, isUplink := false
              observedIp := 0 }
          chained := !quarantined dest || frameIsDhcp (some p) }
      else {}

/-! ## The queue between the wrappers and the table -/

def trafficEventQueueDepth : Nat := 64

/-- `τ` are the tasks that the wrappers run in. -/
structure Traffic (τ : Type) where
  bridge : Bridge
  queue : List TrafficEvent
  /-- `s_traffic_drops` -/
  drops : Racy τ 32

/-- A frame at a port, and who is cut off as it comes by. -/
inductive PortFrame where
  | received (quarantined : Mac → Bool) (p : Option Pbuf) (isWifi : Bool)
  /-- sent by the bridge -/
  | sent (quarantined : Mac → Bool) (p : Option Pbuf) (isWifi : Bool)

/-- The event that the wrapper it goes through makes of it. -/
def PortFrame.event (bridgeMac : Mac) : PortFrame → Option TrafficEvent
  | .received quarantined p isWifi => (trafficInputWrapper bridgeMac quarantined p isWifi).event
  | .sent quarantined p isWifi => (trafficOutputWrapper bridgeMac quarantined p isWifi).event

inductive TrafficStep (τ : Type) where
  | frame (t : τ) (f : PortFrame)
  /-- the load of `s_traffic_drops++` -/
  | load (t : τ)
  /-- and its store -/
  | store (t : τ)
  /-- `traffic_account_task` takes an event off the queue -/
  | account (now : Nat)
  | assigned (now : Nat) (ofBridge : Bool) (mac : Mac) (ip : Ip) (hostname : List UInt8)
  | sweep (now : Nat)
  | resolve (now : Nat) (answers : List (Mac × Ip)) (stas : List (Mac × Int))

variable {τ : Type}

/-- A boot, with whatever the server restored. -/
def Traffic.start (dhcp : System) : Traffic τ := ⟨⟨.empty, dhcp⟩, [], Racy.init⟩

variable [DecidableEq τ]

/-- The event of a frame. A task that is still counting does not take one. -/
def Traffic.event (bridgeMac : Mac) (s : Traffic τ) (t : τ) (f : PortFrame) : Option TrafficEvent :=
  if s.drops.at_ t = .idle then f.event bridgeMac else none

/-- `xQueueSend`, with no time to wait. -/
def Traffic.send (s : Traffic τ) (t : τ) (ev : TrafficEvent) : Traffic τ :=
  if s.queue.length < trafficEventQueueDepth then { s with queue := s.queue ++ [ev] }
  else { s with drops := s.drops.step (.begin t) }

def Traffic.step (bridgeMac : Mac) (s : Traffic τ) : TrafficStep τ → Traffic τ
  | .frame t f =>
    match s.event bridgeMac t f with
    | none => s
    | some ev => s.send t ev
  | .load t => { s with drops := s.drops.step (.load t) }
  | .store t => { s with drops := s.drops.step (.store t) }
  | .account now =>
    match s.queue with
    | [] => s
    | ev :: queue => { s with bridge := accountTraffic s.bridge now ev, queue := queue }
  | .assigned now ofBridge mac ip hostname =>
    { s with bridge := s.bridge.step (.assigned now ofBridge mac ip hostname) }
  | .sweep now => { s with bridge := s.bridge.step (.sweep now) }
  | .resolve now answers stas => { s with bridge := s.bridge.step (.resolve now answers stas) }

/-! ## The events of a run -/

/-- The events, those that found room and those that have been accounted for; how many have begun
    to be counted as lost, and how many have been; and which of the accounted ones an entry and the
    last two ticks came behind. -/
structure TrafficLog where
  events : List TrafficEvent
  taken : List TrafficEvent
  done : List TrafficEvent
  lost : Nat
  counted : Nat
  born : ClientSlot → Nat
  lastTick : Nat
  tickBefore : Nat

def TrafficLog.start : TrafficLog := ⟨[], [], [], 0, 0, fun _ => 0, 0, 0⟩

/-- The entries that a step has made. -/
def bornAt (t t' : ClientTable) (n : Nat) (born : ClientSlot → Nat) : ClientSlot → Nat := fun i =>
  if (t.clients i).active = false ∧ (t'.clients i).active = true then n else born i

/-- The events of a step. -/
def TrafficLog.note (bridgeMac : Mac) (s : Traffic τ) (e : TrafficStep τ) (log : TrafficLog) :
    TrafficLog :=
  match e with
  | .frame t f =>
    match s.event bridgeMac t f with
    | none => log
    | some ev =>
      if s.queue.length < trafficEventQueueDepth then
        { log with events := log.events ++ [ev], taken := log.taken ++ [ev] }
      else { log with events := log.events ++ [ev], lost := s.drops.begun (.begin t) log.lost }
  | .store t => { log with counted := s.drops.ended (.store t) log.counted }
  | .account _ =>
    match s.queue with
    | [] => log
    | ev :: _ => { log with done := log.done ++ [ev] }
  | .sweep _ => { log with lastTick := log.done.length, tickBefore := log.lastTick }
  | _ => log

def TrafficLog.next (bridgeMac : Mac) (s : Traffic τ) (e : TrafficStep τ) (log : TrafficLog) :
    TrafficLog :=
  { log.note bridgeMac s e with
    born := bornAt s.bridge.table (s.step bridgeMac e).bridge.table log.done.length log.born }

def Traffic.run (bridgeMac : Mac) (dhcp : System) (es : List (TrafficStep τ)) :
    Traffic τ × TrafficLog :=
  es.foldl (watch (Traffic.step bridgeMac) (TrafficLog.next bridgeMac)) (.start dhcp, .start)

/-- What an entry counts. -/
inductive Quantity where
  | txBytes
  | rxBytes
  | txPkts
  | rxPkts
deriving DecidableEq, Repr

/-- A counter, what it was at the last tick, and its rate. -/
structure Counts where
  total : BitVec 32
  prev : BitVec 32
  rate : BitVec 32
deriving DecidableEq, Repr

def Client.counts (e : Client) : Quantity → Counts
  | .txBytes => ⟨e.txBytes, e.txBytesPrev, e.txBps⟩
  | .rxBytes => ⟨e.rxBytes, e.rxBytesPrev, e.rxBps⟩
  | .txPkts => ⟨e.txPkts, e.txPktsPrev, e.txPps⟩
  | .rxPkts => ⟨e.rxPkts, e.rxPktsPrev, e.rxPps⟩

/-- What an event counts for. -/
def Quantity.weight (ev : TrafficEvent) : Quantity → BitVec 32
  | .txBytes => if ev.isUplink then ev.bytes.setWidth 32 else 0
  | .rxBytes => if ev.isUplink then 0 else ev.bytes.setWidth 32
  | .txPkts => if ev.isUplink then 1 else 0
  | .rxPkts => if ev.isUplink then 0 else 1

/-- The sum over the events of a client. -/
def tally (q : Quantity) (mac : Mac) (evs : List TrafficEvent) : BitVec 32 :=
  ((evs.filter fun ev => ev.mac == mac).map fun ev => q.weight ev).sum

/-- What an entry of this MAC is to show. -/
def TrafficLog.counts (log : TrafficLog) (i : ClientSlot) (mac : Mac) (q : Quantity) : Counts where
  total := tally q mac (log.done.drop (log.born i))
  prev := tally q mac ((log.done.take log.lastTick).drop (log.born i))
  rate := tally q mac ((log.done.take log.lastTick).drop (max (log.born i) log.tickBefore))

/-- What carries the counters. -/
structure Tallied (t : ClientTable) (log : TrafficLog) : Prop where
  unique : ClientUnique t
  before_le : log.tickBefore ≤ log.lastTick
  last_le : log.lastTick ≤ log.done.length
  born_le : ∀ i, (t.clients i).active = true → log.born i ≤ log.done.length
  counts : ∀ i, (t.clients i).active = true →
    ∀ q, (t.clients i).counts q = log.counts i (t.clients i).mac q

/-- The entries in use stay as they are, and new ones count nothing. -/
structure CountsKept (t t' : ClientTable) : Prop where
  kept : ∀ i, (t.clients i).active = true → (t'.clients i).active = true ∧
    (t'.clients i).mac = (t.clients i).mac ∧ (t'.clients i).counts = (t.clients i).counts
  fresh : ∀ i, (t.clients i).active = false → (t'.clients i).active = true →
    ∀ q, (t'.clients i).counts q = ⟨0, 0, 0⟩

/-- No store finds the count changed since its load. -/
def CountsApart (s : Traffic τ × TrafficLog) : TrafficStep τ → Prop
  | .store t => s.1.drops.Undisturbed (.store t)
  | _ => True

/-- A step of a frame's count, for a frame that no longer finds room. -/
def ofCount (f : PortFrame) : CountStep τ → TrafficStep τ
  | .begin t => .frame t f
  | .load t => .load t
  | .store t => .store t

/-- What the queue does. -/
structure Conserved (s : Traffic τ × TrafficLog) : Prop where
  fifo : s.2.done ++ s.1.queue = s.2.taken
  depth : s.1.queue.length ≤ trafficEventQueueDepth
  sublist : s.2.taken.Sublist s.2.events
  total : s.2.events.length = s.2.taken.length + s.2.lost
  underWay : s.1.drops.UnderWay s.2.lost s.2.counted
  below : s.1.drops.Below s.2.counted

section

variable {bridgeMac : Mac} {s : Traffic τ} {log : TrafficLog} {e : TrafficStep τ} {t : τ}
  {ev : TrafficEvent}

/-! ## The queue -/

theorem Conserved.frame (h : Conserved (s, log)) {f : PortFrame} :
    Conserved (s.step bridgeMac (.frame t f), log.note bridgeMac s (.frame t f)) := by
  unfold Traffic.step TrafficLog.note
  dsimp only
  cases hev : s.event bridgeMac t f with
  | none => exact h
  | some ev =>
    dsimp only
    unfold Traffic.send
    split
    · rename_i hroom
      refine ⟨?_, ?_, h.sublist.append (List.Sublist.refl _), ?_, h.underWay, h.below⟩
      · show log.done ++ (s.queue ++ [ev]) = log.taken ++ [ev]
        rw [← List.append_assoc, h.fifo]
      · show (s.queue ++ [ev]).length ≤ _
        rw [List.length_append, List.length_singleton]
        exact hroom
      · have htotal := h.total
        show (log.events ++ [ev]).length = (log.taken ++ [ev]).length + log.lost
        simp only [List.length_append, List.length_singleton]
        dsimp only at htotal
        omega
    · -- the task is idle, so the count begins here
      have hidle : s.drops.at_ t = .idle := by
        by_contra hbusy
        unfold Traffic.event at hev
        rw [if_neg hbusy] at hev
        exact absurd hev (by simp)
      have hbegun : s.drops.begun (.begin t) log.lost = log.lost + 1 := by
        simp [Racy.begun, hidle]
      refine ⟨h.fifo, h.depth, h.sublist.trans (List.sublist_append_left _ _), ?_,
        h.underWay.step (.begin t), h.below.step (.begin t)⟩
      have htotal := h.total
      show (log.events ++ [ev]).length = log.taken.length + s.drops.begun (.begin t) log.lost
      rw [hbegun, List.length_append, List.length_singleton]
      dsimp only at htotal
      omega

theorem Conserved.step (h : Conserved (s, log)) (e : TrafficStep τ) :
    Conserved (watch (Traffic.step bridgeMac) (TrafficLog.next bridgeMac) (s, log) e) := by
  have hnote : Conserved (s.step bridgeMac e, log.note bridgeMac s e) := by
    cases e with
    | frame t f => exact h.frame
    | load t =>
      exact ⟨h.fifo, h.depth, h.sublist, h.total, h.underWay.step (.load t), h.below.step (.load t)⟩
    | store t =>
      exact ⟨h.fifo, h.depth, h.sublist, h.total, h.underWay.step (.store t),
        h.below.step (.store t)⟩
    | account now =>
      unfold Traffic.step TrafficLog.note
      dsimp only
      cases hq : s.queue with
      | nil => exact h
      | cons ev queue =>
        have hfifo := h.fifo
        have hdepth := h.depth
        dsimp only at hfifo hdepth
        rw [hq] at hfifo hdepth
        refine ⟨?_, Nat.le_of_succ_le hdepth, h.sublist, h.total, h.underWay, h.below⟩
        show (log.done ++ [ev]) ++ queue = log.taken
        rw [List.append_assoc, List.singleton_append, hfifo]
    | assigned _ _ _ _ _ => exact ⟨h.fifo, h.depth, h.sublist, h.total, h.underWay, h.below⟩
    | sweep _ => exact ⟨h.fifo, h.depth, h.sublist, h.total, h.underWay, h.below⟩
    | resolve _ _ _ => exact ⟨h.fifo, h.depth, h.sublist, h.total, h.underWay, h.below⟩
  exact ⟨hnote.fifo, hnote.depth, hnote.sublist, hnote.total, hnote.underWay, hnote.below⟩

omit [DecidableEq τ] in
theorem conserved_start (dhcp : System) :
    Conserved ((Traffic.start dhcp : Traffic τ), .start) :=
  ⟨rfl, Nat.zero_le _, List.Sublist.refl _, rfl, Racy.underWay_init, Racy.below_init⟩

theorem drops_exact (h : s.drops.word = BitVec.ofNat 32 log.counted)
    (he : CountsApart (s, log) e) :
    (s.step bridgeMac e).drops.word =
      BitVec.ofNat 32 (log.next bridgeMac s e).counted := by
  show _ = BitVec.ofNat 32 (log.note bridgeMac s e).counted
  cases e with
  | frame t f =>
    unfold Traffic.step TrafficLog.note
    dsimp only
    cases s.event bridgeMac t f with
    | none => exact h
    | some ev =>
      unfold Traffic.send
      dsimp only
      split
      · exact h
      · exact Racy.step_exact (e := .begin t) h trivial
  | load t => exact Racy.step_exact (e := .load t) h trivial
  | store t => exact Racy.step_exact (e := .store t) h he
  | account now =>
    unfold Traffic.step TrafficLog.note
    dsimp only
    cases s.queue <;> exact h
  | assigned _ _ _ _ _ => exact h
  | sweep _ => exact h
  | resolve _ _ _ => exact h

/-! ## Sums -/

theorem tally_append (q : Quantity) (mac : Mac) (evs evs' : List TrafficEvent) :
    tally q mac (evs ++ evs') = tally q mac evs + tally q mac evs' := by
  unfold tally
  rw [List.filter_append, List.map_append, List.sum_append]

theorem tally_own (q : Quantity) (ev : TrafficEvent) : tally q ev.mac [ev] = q.weight ev := by
  simp [tally]

theorem tally_other (q : Quantity) {mac : Mac} (h : ev.mac ≠ mac) : tally q mac [ev] = 0 := by
  simp [tally, h]

theorem tally_behind (q : Quantity) (mac : Mac) {evs : List TrafficEvent} {n : Nat}
    (h : evs.length ≤ n) : tally q mac (evs.drop n) = 0 := by
  rw [List.drop_eq_nil_of_le h]
  rfl

/-! ## Entries -/

variable {table t₁ t₂ t₃ : ClientTable} {i : ClientSlot} {c c' : Client} {now : Nat} {mac : Mac}
  {q : Quantity} {b : Bridge}

theorem accountClient_counts (ev : TrafficEvent) (now : Nat) (c : Client) (q : Quantity) :
    (accountClient ev now c).counts q =
      { c.counts q with total := (c.counts q).total + q.weight ev } := by
  have hip : ∀ c' : Client, (updateClientIpLocked c' ev.observedIp).counts = c'.counts := by
    intro c'
    unfold updateClientIpLocked
    split <;> rfl
  have hsighted : ∀ c' : Client, (if ev.observedIp ≠ 0 then
      let e := updateClientIpLocked c' ev.observedIp
      if e.ipSinceUs = 0 ∧ e.ip = ev.observedIp then { e with ipSinceUs := now } else e
      else c').counts = c'.counts := by
    intro c'
    split
    · dsimp only
      split
      · exact hip c'
      · exact hip c'
    · rfl
  unfold accountClient
  dsimp only
  rw [hsighted]
  cases hup : ev.isUplink <;> cases q <;> simp [Client.counts, Quantity.weight, hup]

theorem CountsKept.refl (t : ClientTable) : CountsKept t t :=
  ⟨fun _ hi => ⟨hi, rfl, rfl⟩, fun _ hno hi => absurd (hno.symm.trans hi) (by simp)⟩

theorem CountsKept.trans (h : CountsKept t₁ t₂) (h' : CountsKept t₂ t₃) : CountsKept t₁ t₃ := by
  refine ⟨fun i hi => ?_, fun i hno hi q => ?_⟩
  · obtain ⟨hactive, hmac, hcounts⟩ := h.kept i hi
    obtain ⟨hactive', hmac', hcounts'⟩ := h'.kept i hactive
    exact ⟨hactive', hmac'.trans hmac, hcounts'.trans hcounts⟩
  · cases hmid : (t₂.clients i).active with
    | false => exact h'.fresh i hmid hi q
    | true => rw [(h'.kept i hmid).2.2, h.fresh i hno hmid q]

theorem CountsKept.findOrCreate (h : findOrCreateLocked t₁ mac now = some (t₂, i)) :
    CountsKept t₁ t₂ := by
  rcases findOrCreateLocked_cases h with ⟨-, rfl⟩ | ⟨-, hfree, rfl⟩
  · exact .refl _
  · refine ⟨fun j hj => ?_, fun j hno hj q => ?_⟩
    · have hji : j ≠ i := by
        rintro rfl
        exact absurd (hfree.symm.trans hj) (by simp)
      rw [t₁.set_other _ hji]
      exact ⟨hj, rfl, rfl⟩
    · by_cases hji : j = i
      · subst hji
        rw [ClientTable.set_same]
        cases q <;> rfl
      · rw [t₁.set_other _ hji] at hj
        exact absurd (hno.symm.trans hj) (by simp)

theorem CountsKept.set (hi : (t₁.clients i).active = true) (hactive : c.active = true)
    (hmac : c.mac = (t₁.clients i).mac) (hcounts : c.counts = (t₁.clients i).counts) :
    CountsKept t₁ (t₁.set i c) := by
  refine ⟨fun j hj => ?_, fun j hno hj => ?_⟩
  · by_cases hji : j = i
    · subst hji
      rw [ClientTable.set_same]
      exact ⟨hactive, hmac, hcounts⟩
    · rw [t₁.set_other _ hji]
      exact ⟨hj, rfl, rfl⟩
  · by_cases hji : j = i
    · subst hji
      exact absurd (hno.symm.trans hi) (by simp)
    · rw [t₁.set_other _ hji] at hj
      exact absurd (hno.symm.trans hj) (by simp)

theorem updateClientIpLocked_counts (c : Client) (ip : Ip) :
    (updateClientIpLocked c ip).counts = c.counts := by
  unfold updateClientIpLocked
  split <;> rfl

theorem CountsKept.assigned (t : ClientTable) (now : Nat) (ofBridge : Bool) (mac : Mac) (ip : Ip)
    (hostname : List UInt8) : CountsKept t (onClientIpAssigned t now ofBridge mac ip hostname) := by
  unfold onClientIpAssigned
  split
  · cases hfc : findOrCreateLocked t mac now with
    | none => exact .refl t
    | some r =>
      obtain ⟨t₁, i⟩ := r
      obtain ⟨hi, -⟩ := findOrCreateLocked_entry hfc
      refine (CountsKept.findOrCreate hfc).trans (.set hi ?_ ?_ ?_)
      · split <;> split <;> simp [hi]
      · split <;> split <;> simp
      · split
        · split
          · exact updateClientIpLocked_counts _ _
          · rfl
        · split
          · exact updateClientIpLocked_counts _ _
          · rfl
  · exact .refl t

theorem CountsKept.resolveClient (now : Nat) (t : ClientTable) (answer : Mac × Ip) :
    CountsKept t (resolveClient now t answer) := by
  unfold Track.resolveClient
  cases hfc : findOrCreateLocked t answer.1 now with
  | none => exact .refl t
  | some r =>
    obtain ⟨t₁, i⟩ := r
    obtain ⟨hi, -⟩ := findOrCreateLocked_entry hfc
    dsimp only
    split
    · refine (CountsKept.findOrCreate hfc).trans (.set hi ?_ ?_ (updateClientIpLocked_counts _ _))
      · rw [updateClientIpLocked_active, hi]
      · exact updateClientIpLocked_mac
    · exact .findOrCreate hfc

theorem CountsKept.stationListed (now : Nat) (t : ClientTable) (sta : Mac × Int) :
    CountsKept t (stationListed now t sta) := by
  unfold Track.stationListed
  cases hfc : findOrCreateLocked t sta.1 now with
  | none => exact .refl t
  | some r =>
    obtain ⟨t₁, i⟩ := r
    obtain ⟨hi, -⟩ := findOrCreateLocked_entry hfc
    exact (CountsKept.findOrCreate hfc).trans (.set hi hi rfl rfl)

theorem CountsKept.resolve (t : ClientTable) (now : Nat) (answers : List (Mac × Ip))
    (stas : List (Mac × Int)) : CountsKept t (resolve t now answers stas) := by
  have hanswers : CountsKept t (answers.foldl (Track.resolveClient now) t) :=
    List.foldlRecOn answers _ (motive := CountsKept t) (.refl t)
      fun t' h answer _ => h.trans (.resolveClient now t' answer)
  exact List.foldlRecOn stas _ (motive := CountsKept t) hanswers
    fun t' h sta _ => h.trans (.stationListed now t' sta)

/-! ## What an entry shows -/

theorem Tallied.kept (h : Tallied t₁ log) (hk : CountsKept t₁ t₂) (hu : ClientUnique t₂) :
    Tallied t₂ { log with born := bornAt t₁ t₂ log.done.length log.born } := by
  refine ⟨hu, h.before_le, h.last_le, fun i hi => ?_, fun i hi q => ?_⟩
  · show bornAt t₁ t₂ log.done.length log.born i ≤ log.done.length
    unfold bornAt
    split
    · exact Nat.le_refl _
    · rename_i hold
      have hbefore : (t₁.clients i).active = true := by
        by_contra hno
        exact hold ⟨Bool.eq_false_iff.mpr hno, hi⟩
      exact h.born_le i hbefore
  · cases hbefore : (t₁.clients i).active with
    | false =>
      have hborn : bornAt t₁ t₂ log.done.length log.born i = log.done.length :=
        if_pos ⟨hbefore, hi⟩
      have htake : (log.done.take log.lastTick).length ≤ log.done.length :=
        List.length_take_le' _ _
      rw [hk.fresh i hbefore hi q]
      unfold TrafficLog.counts
      simp only [hborn]
      rw [tally_behind q _ (Nat.le_refl _), tally_behind q _ htake,
        tally_behind q _ (Nat.le_trans htake (Nat.le_max_left _ _))]
    | true =>
      have hborn : bornAt t₁ t₂ log.done.length log.born i = log.born i :=
        if_neg fun hfresh => absurd (hfresh.1.symm.trans hbefore) (by simp)
      obtain ⟨-, hmac, hcounts⟩ := hk.kept i hbefore
      rw [hcounts, hmac, h.counts i hbefore q]
      unfold TrafficLog.counts
      simp only [hborn]

/-- The event has come to each of the entries, and counts for its own. -/
theorem Tallied.account (h : Tallied t₁ log) (hu : ClientUnique t₂)
    (hactive : ∀ i, (t₂.clients i).active = (t₁.clients i).active)
    (hmac : ∀ i, (t₁.clients i).active = true → (t₂.clients i).mac = (t₁.clients i).mac)
    (hcounts : ∀ i, (t₁.clients i).active = true → ∀ q, (t₂.clients i).counts q =
      { (t₁.clients i).counts q with
        total := ((t₁.clients i).counts q).total + tally q (t₁.clients i).mac [ev] }) :
    Tallied t₂ { log with done := log.done ++ [ev] } := by
  have hmore : log.done.length ≤ (log.done ++ [ev]).length := by simp
  refine ⟨hu, h.before_le, Nat.le_trans h.last_le hmore,
    fun i hi => Nat.le_trans (h.born_le i (hactive i ▸ hi)) hmore, fun i hi q => ?_⟩
  rw [hactive i] at hi
  rw [hcounts i hi q, h.counts i hi q, hmac i hi]
  unfold TrafficLog.counts
  simp only
  rw [List.take_append_of_le_length h.last_le, List.drop_append_of_le_length (h.born_le i hi),
    tally_append]

theorem sweepClient_counts (hactive : (sweepClient now c).active = true) (q : Quantity) :
    (sweepClient now c).counts q =
      ⟨(c.counts q).total, (c.counts q).total, (c.counts q).total - (c.counts q).prev⟩ := by
  unfold sweepClient at *
  split at hactive
  · rename_i hin
    rw [if_pos hin]
    split at hactive
    · exact absurd hactive (by simp)
    · rename_i hlive
      rw [if_neg hlive]
      cases q <;> rfl
  · rename_i hout
    exact absurd hactive hout

theorem Tallied.sweep (h : Tallied t₁ log) (now : Nat) :
    Tallied (Track.sweep t₁ now).1
      { log with lastTick := log.done.length, tickBefore := log.lastTick } := by
  refine ⟨h.unique.sweep, h.last_le, Nat.le_refl _,
    fun i hi => h.born_le i (sweepClient_eq (e := t₁.clients i) hi).1, fun i hi q => ?_⟩
  obtain ⟨hbefore, hmac, -, -⟩ := sweepClient_eq (e := t₁.clients i) hi
  have hsplit : tally q (t₁.clients i).mac (log.done.drop (log.born i)) =
      tally q (t₁.clients i).mac ((log.done.take log.lastTick).drop (log.born i)) +
        tally q (t₁.clients i).mac (log.done.drop (max (log.born i) log.lastTick)) := by
    rw [← tally_append]
    congr 1
    rcases Nat.le_total (log.born i) log.lastTick with hle | hle
    · have hcut := List.take_append_drop (log.lastTick - log.born i) (log.done.drop (log.born i))
      rw [List.drop_drop, Nat.add_sub_cancel' hle] at hcut
      rw [Nat.max_eq_right hle, List.drop_take, hcut]
    · rw [Nat.max_eq_left hle, List.drop_eq_nil_of_le (Nat.le_trans (List.length_take_le _ _) hle),
        List.nil_append]
  show (sweepClient now (t₁.clients i)).counts q = _
  rw [sweepClient_counts hi, h.counts i hbefore q]
  show _ = TrafficLog.counts _ i (sweepClient now (t₁.clients i)).mac q
  rw [hmac]
  unfold TrafficLog.counts
  simp only [List.take_length]
  congr 1
  rw [hsplit, BitVec.add_comm, BitVec.add_sub_cancel]

omit [DecidableEq τ] in
theorem tallied_start (dhcp : System) :
    Tallied ((Traffic.start dhcp : Traffic τ)).bridge.table .start := by
  have hno : ∀ i, ((ClientTable.empty).clients i).active ≠ true := fun _ => by
    simp [ClientTable.empty]
  exact ⟨fun i _ hi => absurd hi (hno i), Nat.le_refl _, Nat.le_refl _,
    fun i hi => absurd hi (hno i), fun i hi => absurd hi (hno i)⟩

/-- What `traffic_account_task` does with an event, whether the table has room for its client or
    not. -/
theorem Tallied.accountTraffic (h : Tallied b.table log) (now : Nat) (ev : TrafficEvent) :
    Tallied (accountTraffic b now ev).table
      { log with
        done := log.done ++ [ev]
        born := bornAt b.table (accountTraffic b now ev).table log.done.length log.born } := by
  have hu := (accountTraffic_entry (b := b) now ev h.unique).1
  unfold Track.accountTraffic at hu ⊢
  cases hfc : findOrCreateLocked b.table ev.mac now with
  | none =>
    -- nobody in the table is this client
    have hnone : findLocked b.table ev.mac = none := by
      unfold findOrCreateLocked at hfc
      split at hfc
      · exact absurd hfc (by simp)
      · assumption
    refine Tallied.account (h.kept (.refl b.table) h.unique) h.unique (fun _ => rfl)
      (fun _ _ => rfl) fun i hi q => ?_
    rw [tally_other q (Ne.symm (findLocked_none hnone hi))]
    simp
  | some r =>
    obtain ⟨t, i⟩ := r
    rw [hfc] at hu
    dsimp only at hu ⊢
    obtain ⟨hi, hmac⟩ := findOrCreateLocked_entry hfc
    have hunique := h.unique.findOrCreate hfc
    have hborn : bornAt b.table (t.set i (accountClient ev now (t.clients i))) log.done.length
        log.born = bornAt b.table t log.done.length log.born := by
      funext j
      unfold bornAt
      by_cases hji : j = i
      · subst hji
        rw [ClientTable.set_same, accountClient_active]
      · rw [t.set_other _ hji]
    rw [hborn]
    refine Tallied.account (h.kept (.findOrCreate hfc) hunique) hu (fun j => ?_) (fun j _ => ?_)
      fun j hj q => ?_
    · by_cases hji : j = i
      · subst hji
        rw [ClientTable.set_same, accountClient_active]
      · rw [t.set_other _ hji]
    · by_cases hji : j = i
      · subst hji
        rw [ClientTable.set_same, accountClient_mac]
      · rw [t.set_other _ hji]
    · by_cases hji : j = i
      · subst hji
        rw [ClientTable.set_same, accountClient_counts, hmac, tally_own]
      · have hother : ev.mac ≠ (t.clients j).mac := fun heq =>
          hji (hunique j i hj hi (heq.symm.trans hmac.symm))
        rw [t.set_other _ hji, tally_other q hother]
        simp

theorem Tallied.step (h : Tallied s.bridge.table log) (e : TrafficStep τ) :
    Tallied (s.step bridgeMac e).bridge.table (log.next bridgeMac s e) := by
  have hstays : ∀ log' : TrafficLog, log'.done = log.done → log'.lastTick = log.lastTick →
      log'.tickBefore = log.tickBefore → Tallied s.bridge.table
        { log' with born := bornAt s.bridge.table s.bridge.table log.done.length log.born } := by
    intro log' hdone hlast hbefore
    have hkept := h.kept (.refl s.bridge.table) h.unique
    refine ⟨hkept.unique, ?_, ?_, ?_, ?_⟩
    · rw [hlast, hbefore]
      exact hkept.before_le
    · rw [hlast, hdone]
      exact hkept.last_le
    · rw [hdone]
      exact hkept.born_le
    · unfold TrafficLog.counts
      rw [hdone, hlast, hbefore]
      exact hkept.counts
  unfold TrafficLog.next
  cases e with
  | frame t f =>
    have htable : (s.step bridgeMac (.frame t f)).bridge = s.bridge := by
      unfold Traffic.step Traffic.send
      dsimp only
      split
      · rfl
      · split <;> rfl
    rw [htable]
    unfold TrafficLog.note
    dsimp only
    split
    · exact hstays log rfl rfl rfl
    · split
      · exact hstays _ rfl rfl rfl
      · exact hstays _ rfl rfl rfl
  | load t => exact hstays log rfl rfl rfl
  | store t => exact hstays _ rfl rfl rfl
  | account now =>
    unfold TrafficLog.note Traffic.step
    dsimp only
    cases s.queue with
    | nil => exact hstays log rfl rfl rfl
    | cons ev queue => exact h.accountTraffic now ev
  | assigned now ofBridge mac ip hostname =>
    exact h.kept (.assigned _ now ofBridge mac ip hostname) (fills_assigned h.unique).1
  | sweep now =>
    have hswept := h.sweep now
    have hborn : bornAt s.bridge.table (Track.sweep s.bridge.table now).1 log.done.length
        log.born = log.born := by
      funext i
      refine if_neg fun hfresh => ?_
      have hbefore := (sweepClient_eq (e := s.bridge.table.clients i) hfresh.2).1
      exact absurd (hfresh.1.symm.trans hbefore) (by simp)
    show Tallied (Track.sweep s.bridge.table now).1
      { log with
        lastTick := log.done.length, tickBefore := log.lastTick
        born := bornAt s.bridge.table (Track.sweep s.bridge.table now).1 log.done.length log.born }
    rw [hborn]
    exact hswept
  | resolve now answers stas =>
    exact h.kept (.resolve _ now answers stas) (fills_resolve h.unique).1

/-! ## Runs -/

variable (bridgeMac : Mac) (dhcp : System)

/-- **Events are counted once, in their order, and lost ones are owned up to.** -/
theorem events_conserved (es : List (TrafficStep τ)) :
    let r := Traffic.run bridgeMac dhcp es
    r.2.done ++ r.1.queue = r.2.taken ∧ r.1.queue.length ≤ trafficEventQueueDepth ∧
      r.2.taken.Sublist r.2.events ∧ r.2.events.length = r.2.taken.length + r.2.lost ∧
      r.1.drops.UnderWay r.2.lost r.2.counted ∧
      (∃ k ≤ r.2.counted, r.1.drops.word = BitVec.ofNat 32 k) ∧
      (Along (watch (Traffic.step bridgeMac) (TrafficLog.next bridgeMac)) CountsApart
          (.start dhcp, .start) es → r.1.drops.word = BitVec.ofNat 32 r.2.counted) := by
  intro r
  have hall : Conserved r :=
    List.foldlRecOn es _ (motive := Conserved) (conserved_start dhcp) fun s h e _ => h.step e
  refine ⟨hall.fifo, hall.depth, hall.sublist, hall.total, hall.underWay, hall.below.word,
    fun hapart => ?_⟩
  exact hapart.invariant (I := fun s : Traffic τ × TrafficLog =>
    s.1.drops.word = BitVec.ofNat 32 s.2.counted) rfl fun _ _ h he => drops_exact h he

/-- **A client's counters are the sums over its events.** -/
theorem counters_tally (es : List (TrafficStep τ)) {i : ClientSlot}
    (hi : ((Traffic.run bridgeMac dhcp es).1.bridge.table.clients i).active = true)
    (q : Quantity) :
    ((Traffic.run bridgeMac dhcp es).1.bridge.table.clients i).counts q =
      (Traffic.run bridgeMac dhcp es).2.counts i
        ((Traffic.run bridgeMac dhcp es).1.bridge.table.clients i).mac q := by
  have hall : Tallied (Traffic.run bridgeMac dhcp es).1.bridge.table
      (Traffic.run bridgeMac dhcp es).2 :=
    List.foldlRecOn es _ (motive := fun s : Traffic τ × TrafficLog => Tallied s.1.bridge.table s.2)
      (tallied_start dhcp) fun s h e _ => h.step e
  exact hall.counts i hi q

/-- A frame of a device's, no longer than its addresses. -/
def addressesOnly : PortFrame :=
  .received (fun _ => false)
    (some { payload := [255, 255, 255, 255, 255, 255, 2, 0, 0, 0, 0, 1] }) true

/-- A frame before a tick, one before the next, and one after. -/
theorem counters_tally_threeFrames :
    let r := Traffic.run 0x020000000009 (Dhcp.powerOn Dhcp.shipped none 1)
      [.frame false addressesOnly, .account 1, .sweep 2, .frame true addressesOnly, .account 3,
        .sweep 4, .frame false addressesOnly, .account 5]
    let c := r.1.bridge.table.clients ⟨0, by decide⟩
    c.counts .txBytes = ⟨36, 24, 12⟩ ∧
      c.counts .txBytes = r.2.counts ⟨0, by decide⟩ c.mac .txBytes := by
  intro r c
  exact ⟨by decide +kernel, counters_tally _ _ _ (by decide +kernel) .txBytes⟩

/-- While the queue is full, the count of the lost is all that a frame and its count change. -/
theorem full_run (s : Traffic τ) (log : TrafficLog) (f : PortFrame) {ev : TrafficEvent}
    (hev : f.event bridgeMac = some ev) (hfull : trafficEventQueueDepth ≤ s.queue.length) (cs : List (CountStep τ)) :
    let r := (cs.map (ofCount f)).foldl
      (watch (Traffic.step bridgeMac) (TrafficLog.next bridgeMac)) (s, log)
    r.1 = { s with drops := (cs.foldl (watch Racy.step Racy.ended) (s.drops, log.counted)).1 } ∧
      r.2.counted = (cs.foldl (watch Racy.step Racy.ended) (s.drops, log.counted)).2 := by
  induction cs generalizing s log with
  | nil => exact ⟨rfl, rfl⟩
  | cons c cs ih =>
    have hstep : s.step bridgeMac (ofCount f c) = { s with drops := s.drops.step c } ∧
        (log.next bridgeMac s (ofCount f c)).counted = s.drops.ended c log.counted := by
      cases c with
      | load t => exact ⟨rfl, rfl⟩
      | store t => exact ⟨rfl, rfl⟩
      | begin t =>
        unfold ofCount TrafficLog.next TrafficLog.note Traffic.step Traffic.event
        dsimp only
        by_cases hidle : s.drops.at_ t = .idle
        · rw [if_pos hidle, hev]
          dsimp only
          unfold Traffic.send
          rw [if_neg (Nat.not_lt.mpr hfull), if_neg (Nat.not_lt.mpr hfull)]
          exact ⟨rfl, rfl⟩
        · -- the task does not take the frame
          have hsame : s.drops.step (.begin t) = s.drops := by
            unfold Racy.step
            dsimp only
            split
            · rename_i hpc
              exact absurd hpc hidle
            · rfl
          rw [if_neg hidle, hsame]
          exact ⟨rfl, rfl⟩
    have hrest := ih { s with drops := s.drops.step c }
      (log.next bridgeMac s (ofCount f c)) hfull
    rw [hstep.2] at hrest
    rw [List.map_cons, List.foldl_cons]
    unfold watch at hrest ⊢
    rw [hstep.1]
    exact hrest

/-- **The count of any number of lost events is lost at once**, between the load and the store of
    one other. -/
theorem drops_swallowed {a b : τ} (hab : a ≠ b) (f : PortFrame) {ev : TrafficEvent}
    (hev : f.event bridgeMac = some ev) (hfull : trafficEventQueueDepth ≤ s.queue.length)
    (ha : s.drops.at_ a = .idle) (hb : s.drops.at_ b = .idle) (n : Nat) :
    let r := ((Racy.swallowed a b n).map (ofCount f)).foldl
      (watch (Traffic.step bridgeMac) (TrafficLog.next bridgeMac)) (s, log)
    r.1 = { s with drops := ⟨s.drops.word + 1, s.drops.at_⟩ } ∧
      r.2.counted = log.counted + n + 1 := by
  have hrun := full_run bridgeMac s log f hev hfull (Racy.swallowed a b n)
  rw [Racy.swallowed_run hab ha hb] at hrun
  exact hrun

/-- A thousand and one events are lost, and one of them is counted. -/
theorem drops_swallowed_thousand :
    let s : Traffic Bool :=
      ⟨⟨.empty, Dhcp.powerOn Dhcp.shipped none 1⟩, .replicate 64 ⟨1, true, 12, true, 0⟩, Racy.init⟩
    let r := ((Racy.swallowed false true 1000).map (ofCount addressesOnly)).foldl
      (watch (Traffic.step 0x020000000009) (TrafficLog.next 0x020000000009)) (s, .start)
    r.1 = { s with drops := ⟨1, s.drops.at_⟩ } ∧ r.2.counted = 1001 :=
  drops_swallowed (s := ⟨⟨.empty, Dhcp.powerOn Dhcp.shipped none 1⟩,
      .replicate 64 ⟨1, true, 12, true, 0⟩, Racy.init⟩) _ Bool.false_ne_true addressesOnly
    (show addressesOnly.event 0x020000000009 = some ⟨0x020000000001, true, 12, true, 0⟩ by
      decide +kernel) (by decide) rfl rfl 1000

end

end Track
end Wt32Router
