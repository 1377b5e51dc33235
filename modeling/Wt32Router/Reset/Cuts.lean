import Wt32Router.Reset.Floor

/-!
# The stores into RTC memory, one at a time

`Device.step` takes `tick_cb`, `reset_log_note_intent`, `reset_log_note_ready` and the re-seeding
in `reset_log_init` as one step each. They are sequences of 32-bit stores, made by four tasks, and
a reset may come between any two. Here each call is the list of its stores, the calls under way
make them in any order, and `reset_log_init` is split where a reset can cut it.

The header comment of the block says "there is no write-ordering subtlety to get wrong", for each
fact is checked against its complement. That holds of an update. It does not hold of `rtc_seed`:
the magic that the boot before last left there is still in place, and so are the facts that it has
not come to. A boot that is reset early enough hands them on, and they are read as its own.

> **`Cutting.own_ok`**: if no boot is reset before the fifth store of `rtc_seed`, while what
> stands in the block is believed, then no record says what another boot did.

The fifth store is the one to `reached_ready`. The calls that leave RTC memory alone are left out
here.
-/

namespace Wt32Router
namespace Reset

open Lib

/-! ## Stores -/

/-- The words of `reset_log_rtc_t`. -/
inductive RtcWord where
  | magic
  | uptimeS
  | uptimeSInv
  | intent
  | intentInv
  | reachedReady
  | reachedReadyInv
deriving DecidableEq, Repr

structure RtcStore where
  word : RtcWord
  value : BitVec 32
deriving DecidableEq, Repr

def Rtc.put (r : Rtc) (st : RtcStore) : Rtc :=
  match st.word with
  | .magic => { r with magic := st.value }
  | .uptimeS => { r with uptimeS := st.value }
  | .uptimeSInv => { r with uptimeSInv := st.value }
  | .intent => { r with intent := st.value }
  | .intentInv => { r with intentInv := st.value }
  | .reachedReady => { r with reachedReady := st.value }
  | .reachedReadyInv => { r with reachedReadyInv := st.value }

/-- `rtc_seed`. -/
def rtcSeed : List RtcStore :=
  [⟨.uptimeS, 0⟩, ⟨.uptimeSInv, ~~~0⟩, ⟨.intent, 0⟩, ⟨.intentInv, ~~~0⟩, ⟨.reachedReady, 0⟩,
    ⟨.reachedReadyInv, ~~~0⟩, ⟨.magic, rtcMagic⟩]

/-- `tick_cb`. -/
def tickCb (up : BitVec 32) : List RtcStore := [⟨.uptimeS, up⟩, ⟨.uptimeSInv, ~~~up⟩]

/-- `reset_log_note_intent`, behind its guard. -/
def noteIntentStores (up intent : BitVec 32) : List RtcStore :=
  tickCb up ++ [⟨.intent, intent⟩, ⟨.intentInv, ~~~intent⟩]

/-- `reset_log_note_ready`, behind its guard. -/
def noteReadyStores : List RtcStore := [⟨.reachedReady, 1⟩, ⟨.reachedReadyInv, ~~~1⟩]

inductive RtcCall where
  | tick
  | noteIntent (intent : BitVec 32)
  | noteReady
deriving DecidableEq, Repr

/-- The stores of a call that starts now. -/
def Device.stores (s : Device) : RtcCall → List RtcStore
  | .tick => if s.started then tickCb s.uptimeS else []
  | .noteIntent intent =>
    if s.rtc.magic ≠ rtcMagic then [] else noteIntentStores s.uptimeS intent
  | .noteReady => if s.rtc.magic ≠ rtcMagic then [] else noteReadyStores

/-! ## The machine -/

/-- How far a boot is in `reset_log_init`. -/
inductive Phase where
  /-- before it -/
  | booting
  /-- it has read the block, and made so many stores of `rtc_seed` -/
  | seeding (found : Rtc) (stores : Nat)
  | recorded
  /-- it has returned early, for want of a mutex -/
  | failed
deriving DecidableEq, Repr

/-- How many stores of `rtc_seed` the boot has made. -/
def Phase.seeded : Phase → Nat
  | .booting | .failed => 0
  | .seeding _ stores => stores
  | .recorded => rtcSeed.length

/-- A device, and the calls under way with the stores they have still to make. -/
structure Cutting where
  dev : Device
  phase : Phase
  calls : List (List RtcStore)

inductive CutEvent where
  | pass (us : Nat)
  /-- `reset_log_init` reads the block -/
  | begin
  /-- `reset_log_init` has no mutex -/
  | fail
  /-- the next store of `rtc_seed` -/
  | seed
  /-- the rest of `reset_log_init` -/
  | record (env : BootEnv) (res : SaveResult)
  | call (call : RtcCall)
  /-- the next store of one of the calls under way -/
  | store (i : Nat)
  | warmReset

/-- The device as `reset_log_init` saw it when it read the block. -/
def Cutting.asFound (c : Cutting) (found : Rtc) : Device := { c.dev with rtc := found }

/-- One step. `reset_log_init` is called once in a boot, before there is a task that could make
    any of the calls. -/
def Cutting.step (c : Cutting) : CutEvent → Cutting
  | .pass us => { c with dev := { c.dev with upUs := c.dev.upUs + us } }
  | .begin => if c.phase = .booting then { c with phase := .seeding c.dev.rtc 0 } else c
  | .fail => if c.phase = .booting then { c with phase := .failed } else c
  | .seed =>
    match c.phase with
    | .seeding found n =>
      match rtcSeed[n]? with
      | some st => { c with
          dev := { c.dev with rtc := c.dev.rtc.put st }
          phase := .seeding found (n + 1) }
      | none => c
    | _ => c
  | .record env res =>
    match c.phase with
    | .seeding found n =>
      if n = rtcSeed.length then { c with
        dev := { (c.asFound found).init env res with rtc := c.dev.rtc }
        phase := .recorded }
      else c
    | _ => c
  | .call call =>
    if c.phase = .recorded ∨ c.phase = .failed then
      { c with calls := c.calls ++ [c.dev.stores call] }
    else c
  | .store i =>
    match c.calls[i]? with
    | some (st :: rest) => { c with
        dev := { c.dev with rtc := c.dev.rtc.put st }
        calls := c.calls.set i rest }
    | _ => c
  | .warmReset => ⟨c.dev.reboot c.dev.rtc, .booting, []⟩

/-- A device that comes up with anything in RTC memory. -/
def Cutting.blank (rtc : Rtc) : Cutting := ⟨Device.blank rtc, .booting, []⟩

/-! ## What the boots did -/

/-- The intents noted in a boot, and whether it said it was ready. -/
structure BootFacts where
  intents : List (BitVec 32)
  ready : Bool
deriving DecidableEq

/-- The running boot's facts, and those of the one that ended last with how long it ran. -/
structure Boots where
  now : BootFacts
  last : Option (Nat × BootFacts)
deriving DecidableEq

def boots (c : Cutting) (e : CutEvent) (b : Boots) : Boots :=
  match e with
  | .call (.noteIntent intent) =>
    { b with now := { b.now with intents := intent :: b.now.intents } }
  | .call .noteReady => { b with now := { b.now with ready := true } }
  | .warmReset => ⟨⟨[], false⟩, some (c.dev.upUs, b.now)⟩
  | _ => b

def Boots.none : Boots := ⟨⟨[], false⟩, .none⟩

/-- An uptime, an intent and a ready word that a boot of that length and with those facts had
    reached. -/
structure BootFacts.Reached (f : BootFacts) (us : Nat) (uptimeS intent : BitVec 32)
    (ready : Bool) : Prop where
  uptime : uptimeS.toNat * 1000000 ≤ us
  intent : intent = 0 ∨ intent ∈ f.intents
  ready : ready = true → f.ready = true

/-- A record that claims the previous boot's state says what the boot that ended last had
    reached. -/
def OwnFacts (s : Cutting × Boots) (e : CutEvent) : Prop :=
  ∀ env res found us f, e = .record env res → s.1.phase = .seeding found rtcSeed.length →
    s.2.last = some (us, f) →
    hasFlag ((s.1.asFound found).newRecord env).flags fPrevState = true →
    ∃ intent : BitVec 32,
      ((s.1.asFound found).newRecord env).intent = UInt8.ofBitVec (intent.setWidth 8) ∧
      f.Reached us ((s.1.asFound found).newRecord env).prevUptimeS intent
        (hasFlag ((s.1.asFound found).newRecord env).flags fReachedReady)

/-- A boot that is reset has made the fifth store of `rtc_seed`, or leaves a block that is not
    believed. -/
def SeededOrBad (s : Cutting × Boots) : CutEvent → Prop
  | .warmReset => 5 ≤ s.1.phase.seeded ∨ s.1.dev.rtc.valid = false
  | _ => True

instance (s : Cutting × Boots) (e : CutEvent) : Decidable (SeededOrBad s e) := by
  cases e <;> unfold SeededOrBad <;> infer_instance

/-- A store that writes what the boot has reached, if it writes a fact. -/
def BootFacts.Owns (f : BootFacts) (us : Nat) (st : RtcStore) : Prop :=
  match st.word with
  | .uptimeS => st.value.toNat * 1000000 ≤ us
  | .intent => st.value = 0 ∨ st.value ∈ f.intents
  | .reachedReady => st.value = 0 ∨ f.ready = true
  | _ => True

/-- What carries the run. The facts that `rtc_seed` has come to are the running boot's own, and
    so is what the calls under way will write; before `rtc_seed`, and in what `reset_log_init`
    has read, they are those of the boot that ended last. -/
structure Owned (c : Cutting) (b : Boots) : Prop where
  calls : ∀ call ∈ c.calls, ∀ st ∈ call, b.now.Owns c.dev.upUs st
  uptime : 1 ≤ c.phase.seeded → c.dev.rtc.uptimeS.toNat * 1000000 ≤ c.dev.upUs
  intent : 3 ≤ c.phase.seeded → c.dev.rtc.intent = 0 ∨ c.dev.rtc.intent ∈ b.now.intents
  ready : 5 ≤ c.phase.seeded → c.dev.rtc.reachedReady = 0 ∨ b.now.ready = true
  idle : c.phase = .booting → c.calls = []
  handed : ∀ us f, b.last = some (us, f) → c.phase = .booting → c.dev.rtc.valid = true →
    f.Reached us c.dev.rtc.uptimeS c.dev.rtc.intent (c.dev.rtc.reachedReady != 0)
  found : ∀ us f found n, b.last = some (us, f) → c.phase = .seeding found n →
    found.valid = true → f.Reached us found.uptimeS found.intent (found.reachedReady != 0)

section

variable {c : Cutting} {b : Boots} {e : CutEvent} {r : Rtc} {s : Device}

/-! ## A call that is not cut is the step of the device -/

theorem rtcSeed_run : rtcSeed.foldl Rtc.put r = Rtc.seed := rfl

theorem tickCb_run (up : BitVec 32) : (tickCb up).foldl Rtc.put r = r.setUptime up := rfl

/-- All the stores of a call, with nothing between them, do what `Device.step` does. -/
theorem stores_run (call : RtcCall) :
    { s with rtc := (s.stores call).foldl Rtc.put s.rtc } =
      s.step (match call with
        | .tick => .tick
        | .noteIntent intent => .noteIntent intent
        | .noteReady => .noteReady) := by
  cases call with
  | tick =>
    unfold Device.stores Device.step
    dsimp only
    split <;> rfl
  | noteIntent intent =>
    unfold Device.stores
    show _ = s.noteIntent intent
    unfold Device.noteIntent
    dsimp only
    split <;> rfl
  | noteReady =>
    unfold Device.stores
    show _ = s.noteReady
    unfold Device.noteReady
    dsimp only
    split <;> rfl

/-- The stores of `rtc_seed` from any of them on, with nothing between them. -/
theorem seeds_run {found rtc : Rtc} {before sts : List RtcStore} (h : rtcSeed = before ++ sts) :
    (List.replicate sts.length .seed).foldl Cutting.step
        ⟨{ s with rtc := rtc }, .seeding found before.length, []⟩ =
      ⟨{ s with rtc := sts.foldl Rtc.put rtc }, .seeding found rtcSeed.length, []⟩ := by
  induction sts generalizing before rtc with
  | nil => rw [h, List.append_nil]; rfl
  | cons st sts ih =>
    have hnext : rtcSeed[before.length]? = some st := by
      rw [h, List.getElem?_append_right (Nat.le_refl _), Nat.sub_self, List.getElem?_cons_zero]
    have hsplit : rtcSeed = (before ++ [st]) ++ sts := by simp [h]
    have hrest := @ih (rtc.put st) (before ++ [st]) hsplit
    rw [List.length_append, List.length_singleton] at hrest
    rw [List.length_cons, List.replicate_succ, List.foldl_cons, List.foldl_cons, ← hrest]
    congr 1
    unfold Cutting.step
    dsimp only
    rw [hnext]

/-- And `reset_log_init`, with nothing between its parts, is `Device.init`. -/
theorem record_run (env : BootEnv) (res : SaveResult) :
    ((CutEvent.begin :: List.replicate rtcSeed.length .seed) ++ [CutEvent.record env res]).foldl
      Cutting.step ⟨s, .booting, []⟩ = ⟨s.init env res, .recorded, []⟩ := by
  have hbegin : Cutting.step ⟨s, .booting, []⟩ .begin = ⟨s, .seeding s.rtc 0, []⟩ := rfl
  have hseed : (List.replicate rtcSeed.length .seed).foldl Cutting.step
      ⟨s, .seeding s.rtc 0, []⟩ = ⟨{ s with rtc := Rtc.seed }, .seeding s.rtc rtcSeed.length, []⟩ :=
    seeds_run (List.nil_append rtcSeed).symm
  rw [List.cons_append, List.foldl_cons, hbegin, List.foldl_append, hseed, List.foldl_cons,
    List.foldl_nil]
  unfold Cutting.step
  exact if_pos rfl

/-! ## One store -/

theorem BootFacts.Owns.mono {f f' : BootFacts} {us us' : Nat} {st : RtcStore} (h : f.Owns us st)
    (hus : us ≤ us') (hintents : ∀ i ∈ f.intents, i ∈ f'.intents)
    (hready : f.ready = true → f'.ready = true) : f'.Owns us' st := by
  obtain ⟨word, value⟩ := st
  cases word with
  | uptimeS => exact h.trans hus
  | intent => exact h.imp_right (hintents _)
  | reachedReady => exact h.imp_right hready
  | magic | uptimeSInv | intentInv | reachedReadyInv => trivial

/-- A store that writes what the boot has reached leaves the facts what it has reached. -/
theorem BootFacts.Owns.put {f : BootFacts} {us : Nat} {st : RtcStore} (h : f.Owns us st) :
    (r.uptimeS.toNat * 1000000 ≤ us → (r.put st).uptimeS.toNat * 1000000 ≤ us) ∧
      (r.intent = 0 ∨ r.intent ∈ f.intents →
        (r.put st).intent = 0 ∨ (r.put st).intent ∈ f.intents) ∧
      (r.reachedReady = 0 ∨ f.ready = true → (r.put st).reachedReady = 0 ∨ f.ready = true) := by
  obtain ⟨word, value⟩ := st
  cases word with
  | uptimeS => exact ⟨fun _ => h, id, id⟩
  | intent => exact ⟨id, fun _ => h, id⟩
  | reachedReady => exact ⟨id, id, fun _ => h⟩
  | magic | uptimeSInv | intentInv | reachedReadyInv => exact ⟨id, id, id⟩

theorem rtcSeed_owns {f : BootFacts} {us : Nat} {st : RtcStore} (h : st ∈ rtcSeed) :
    f.Owns us st := by
  simp only [rtcSeed, List.mem_cons, List.not_mem_nil, or_false] at h
  rcases h with rfl | rfl | rfl | rfl | rfl | rfl | rfl
  · exact Nat.zero_le us
  · trivial
  · exact .inl rfl
  · trivial
  · exact .inl rfl
  · trivial
  · trivial

/-- The stores of a call write what the boot has reached, with what the call notes. -/
theorem stores_owns {call : RtcCall} {st : RtcStore} (h : st ∈ s.stores call) {f : BootFacts}
    (hintent : ∀ i, call = .noteIntent i → i ∈ f.intents)
    (hready : call = .noteReady → f.ready = true) : f.Owns s.upUs st := by
  have htick : ∀ st ∈ tickCb s.uptimeS, f.Owns s.upUs st := by
    intro st hst
    simp only [tickCb, List.mem_cons, List.not_mem_nil, or_false] at hst
    rcases hst with rfl | rfl
    · exact uptimeS_le
    · trivial
  unfold Device.stores at h
  cases call with
  | tick =>
    dsimp only at h
    split at h
    · exact htick st h
    · exact absurd h List.not_mem_nil
  | noteIntent intent =>
    dsimp only at h
    split at h
    · exact absurd h List.not_mem_nil
    · rw [noteIntentStores, List.mem_append] at h
      rcases h with h | h
      · exact htick st h
      · simp only [List.mem_cons, List.not_mem_nil, or_false] at h
        rcases h with rfl | rfl
        · exact .inr (hintent intent rfl)
        · trivial
  | noteReady =>
    dsimp only at h
    split at h
    · exact absurd h List.not_mem_nil
    · simp only [noteReadyStores, List.mem_cons, List.not_mem_nil, or_false] at h
      rcases h with rfl | rfl
      · exact .inr (hready rfl)
      · trivial

/-! ## The invariant -/

theorem Owned.pass (h : Owned c b) (us : Nat) : Owned (c.step (.pass us)) b := by
  have hle : c.dev.upUs ≤ c.dev.upUs + us := Nat.le_add_right _ _
  exact { h with
    calls := fun call hcall st hst => (h.calls call hcall st hst).mono hle (fun _ => id) id
    uptime := fun hn => (h.uptime hn).trans hle }

theorem Owned.begin (h : Owned c b) : Owned (c.step .begin) b := by
  unfold Cutting.step
  dsimp only
  split
  · rename_i hbooting
    refine ⟨h.calls, fun hn => absurd hn (Nat.not_succ_le_zero _),
      fun hn => absurd hn (Nat.not_succ_le_zero _),
      fun hn => absurd hn (Nat.not_succ_le_zero _), fun hno => absurd hno (by simp),
      fun _ _ _ hno => absurd hno (by simp), fun us f found n hlast hphase hvalid => ?_⟩
    -- what has been handed on is what has been read
    obtain ⟨rfl, -⟩ := Phase.seeding.inj hphase
    exact h.handed us f hlast hbooting hvalid
  · exact h

theorem Owned.fail (h : Owned c b) : Owned (c.step .fail) b := by
  unfold Cutting.step
  dsimp only
  split
  · exact ⟨h.calls, fun hn => absurd hn (Nat.not_succ_le_zero _),
      fun hn => absurd hn (Nat.not_succ_le_zero _),
      fun hn => absurd hn (Nat.not_succ_le_zero _), fun hno => absurd hno (by simp),
      fun _ _ _ hno => absurd hno (by simp), fun _ _ _ _ _ hno => absurd hno (by simp)⟩
  · exact h

theorem Owned.seed (h : Owned c b) : Owned (c.step .seed) b := by
  unfold Cutting.step
  dsimp only
  split
  · rename_i found n hphase
    split
    · rename_i st hst
      have howns : b.now.Owns c.dev.upUs st := rtcSeed_owns (List.mem_of_getElem? hst)
      obtain ⟨huptime, hintent, hready⟩ := howns.put (r := c.dev.rtc)
      have hn := h.uptime
      have hn' := h.intent
      have hn'' := h.ready
      rw [hphase] at hn hn' hn''
      refine ⟨h.calls, fun hle => ?_, fun hle => ?_, fun hle => ?_, fun hno => absurd hno (by simp),
        fun _ _ _ hno => absurd hno (by simp), fun us f found' n' hlast hphase' hvalid => ?_⟩
      -- the first, the third and the fifth store are to the three facts
      · rcases Nat.eq_zero_or_pos n with rfl | hpos
        · obtain rfl : (⟨.uptimeS, 0⟩ : RtcStore) = st := Option.some.inj hst
          exact howns
        · exact huptime (hn hpos)
      · rcases (Nat.le_of_succ_le_succ hle : 2 ≤ n).eq_or_lt with rfl | hlt
        · obtain rfl : (⟨.intent, 0⟩ : RtcStore) = st := Option.some.inj hst
          exact .inl rfl
        · exact hintent (hn' hlt)
      · rcases (Nat.le_of_succ_le_succ hle : 4 ≤ n).eq_or_lt with rfl | hlt
        · obtain rfl : (⟨.reachedReady, 0⟩ : RtcStore) = st := Option.some.inj hst
          exact .inl rfl
        · exact hready (hn'' hlt)
      · obtain ⟨rfl, -⟩ := Phase.seeding.inj hphase'
        exact h.found us f found n hlast hphase hvalid
    · exact h
  · exact h

theorem Owned.record {env : BootEnv} {res : SaveResult} (h : Owned c b) :
    Owned (c.step (.record env res)) b := by
  unfold Cutting.step
  dsimp only
  split
  · rename_i found n hphase
    split
    · rename_i hn
      subst hn
      have huptime := h.uptime
      have hintent := h.intent
      have hready := h.ready
      rw [hphase] at huptime hintent hready
      exact ⟨h.calls, huptime, hintent, hready, fun hno => absurd hno (by simp),
        fun _ _ _ hno => absurd hno (by simp), fun _ _ _ _ _ hno => absurd hno (by simp)⟩
    · exact h
  · exact h

/-- A call notes its fact when it starts, and makes its stores later. -/
theorem Owned.call (h : Owned c b) (call : RtcCall) :
    Owned (c.step (.call call)) (boots c (.call call) b) := by
  -- what has been noted stays so
  have hintents : ∀ i ∈ b.now.intents, i ∈ (boots c (.call call) b).now.intents := by
    intro i hi
    cases call with
    | tick => exact hi
    | noteIntent intent => exact List.mem_cons_of_mem intent hi
    | noteReady => exact hi
  have hready : b.now.ready = true → (boots c (.call call) b).now.ready = true := by
    intro hr
    cases call with
    | tick => exact hr
    | noteIntent intent => exact hr
    | noteReady => rfl
  have hlast : (boots c (.call call) b).last = b.last := by cases call <;> rfl
  have hnoted : Owned c (boots c (.call call) b) := by
    refine ⟨fun l hl st hst => (h.calls l hl st hst).mono (Nat.le_refl _) hintents hready, h.uptime,
      fun hn => (h.intent hn).imp_right (hintents _), fun hn => (h.ready hn).imp_right hready,
      h.idle, ?_, ?_⟩
    · rw [hlast]
      exact h.handed
    · rw [hlast]
      exact h.found
  unfold Cutting.step
  dsimp only
  split
  · rename_i hphase
    refine { hnoted with
      calls := fun l hl st hst => ?_
      idle := fun hno => ?_ }
    · rcases List.mem_append.mp hl with hl | hl
      · exact hnoted.calls l hl st hst
      · rw [List.mem_singleton.mp hl] at hst
        refine stores_owns hst (fun i hi => ?_) (fun hr => ?_)
        · subst hi
          exact List.mem_cons_self
        · subst hr
          rfl
    · rcases hphase with hphase | hphase <;> exact absurd (hphase.symm.trans hno) (by simp)
  · exact hnoted

theorem Owned.store (h : Owned c b) (i : Nat) : Owned (c.step (.store i)) b := by
  unfold Cutting.step
  dsimp only
  split
  · rename_i st rest hcall
    have hmem : st :: rest ∈ c.calls := List.mem_of_getElem? hcall
    obtain ⟨huptime, hintent, hready⟩ :=
      (h.calls _ hmem st List.mem_cons_self).put (r := c.dev.rtc)
    have hbusy : c.phase ≠ .booting := by
      intro hbooting
      rw [h.idle hbooting] at hmem
      exact List.not_mem_nil hmem
    refine ⟨fun l hl st' hst' => ?_, fun hn => huptime (h.uptime hn),
      fun hn => hintent (h.intent hn), fun hn => hready (h.ready hn),
      fun hno => absurd hno hbusy, fun _ _ _ hno => absurd hno hbusy, h.found⟩
    rcases List.mem_or_eq_of_mem_set hl with hl | rfl
    · exact h.calls l hl st' hst'
    · exact h.calls _ hmem st' (List.mem_cons_of_mem st hst')
  · exact h

/-- The reset is the only step that hands the facts on. -/
theorem Owned.warmReset (h : Owned c b) (hcut : SeededOrBad (c, b) .warmReset) :
    Owned (c.step .warmReset) (boots c .warmReset b) := by
  refine ⟨fun _ hno => absurd hno List.not_mem_nil, fun hn => absurd hn (Nat.not_succ_le_zero _),
    fun hn => absurd hn (Nat.not_succ_le_zero _),
    fun hn => absurd hn (Nat.not_succ_le_zero _), fun _ => rfl,
    fun us f hlast _ hvalid => ?_, fun _ _ _ _ _ hno => absurd hno (by simp [Cutting.step])⟩
  obtain ⟨rfl, rfl⟩ := Prod.mk.inj (Option.some.inj hlast)
  rcases hcut with hseeded | hbad
  · have hthree : 3 ≤ c.phase.seeded := le_trans (by decide) hseeded
    refine ⟨h.uptime (le_trans (by decide) hthree), h.intent hthree, fun hne => ?_⟩
    rcases h.ready hseeded with hzero | hready
    · have hne : (c.dev.rtc.reachedReady != 0) = true := hne
      exact absurd hzero (by simpa using hne)
    · exact hready
  · exact absurd (hbad.symm.trans hvalid) Bool.false_ne_true

theorem Owned.step (h : Owned c b) (hcut : SeededOrBad (c, b) e) :
    Owned (c.step e) (boots c e b) := by
  cases e with
  | pass us => exact h.pass us
  | begin => exact h.begin
  | fail => exact h.fail
  | seed => exact h.seed
  | record env res => exact h.record
  | call call => exact h.call call
  | store i => exact h.store i
  | warmReset => exact h.warmReset hcut

theorem blank_owned (rtc : Rtc) : Owned (Cutting.blank rtc) Boots.none :=
  ⟨fun _ hno => absurd hno List.not_mem_nil, fun hn => absurd hn (Nat.not_succ_le_zero _),
    fun hn => absurd hn (Nat.not_succ_le_zero _),
    fun hn => absurd hn (Nat.not_succ_le_zero _), fun _ => rfl,
    fun _ _ hno => absurd hno (by simp [Boots.none]),
    fun _ _ _ _ hno => absurd hno (by simp [Boots.none])⟩

/-! ## Records -/

/-- **A record that claims the previous boot's state has it from a block that was believed.** -/
theorem newRecord_prevState {env : BootEnv}
    (h : hasFlag (s.newRecord env).flags fPrevState = true) :
    s.rtc.valid = true ∧ (s.newRecord env).prevUptimeS = s.rtc.uptimeS ∧
      (s.newRecord env).intent = UInt8.ofBitVec (s.rtc.intent.setWidth 8) ∧
      hasFlag (s.newRecord env).flags fReachedReady = (s.rtc.reachedReady != 0) := by
  have hvalid : s.rtc.valid = true := by
    unfold Device.newRecord at h
    dsimp only at h
    rwa [hasFlag_prevState] at h
  unfold Device.newRecord
  dsimp only
  rw [hasFlag_reachedReady, hvalid, if_pos rfl, if_pos rfl, Bool.true_and]
  exact ⟨rfl, rfl, rfl, rfl⟩

theorem Owned.ownFacts (h : Owned c b) : OwnFacts (c, b) e := by
  intro env res found us f _ hphase hlast hflag
  obtain ⟨hvalid, huptime, hintent, hready⟩ := newRecord_prevState hflag
  rw [huptime, hready]
  exact ⟨found.intent, hintent, h.found us f found _ hlast hphase hvalid⟩

/-- **What a record says of the previous boot is that boot's own**, along a run in which a boot
    that is reset before the fifth store of `rtc_seed` leaves nothing that is believed. -/
theorem Cutting.own_ok (rtc : Rtc) (es : List CutEvent)
    (h : Along (watch Cutting.step boots) SeededOrBad (Cutting.blank rtc, Boots.none) es) :
    Along (watch Cutting.step boots) OwnFacts (Cutting.blank rtc, Boots.none) es :=
  h.of_invariant (I := fun s => Owned s.1 s.2) (blank_owned rtc) fun _ _ hI hcut =>
    ⟨hI.ownFacts, hI.step hcut⟩

/-- `RESET_INTENT_OTA`. -/
def intentOta : BitVec 32 := 1

/-- A boot that runs for an hour and restarts for an update, and one that is reset two stores into
    `rtc_seed`. -/
def cutSeed : List CutEvent :=
  [[.begin], List.replicate 7 .seed,
    [.record ⟨1, none, .unknown, [], none⟩ {}, .pass 3600000000, .call (.noteIntent intentOta)],
    List.replicate 4 (.store 0), [.warmReset, .begin, .seed, .seed, .warmReset, .begin],
    List.replicate 7 .seed].flatten

/-- The boot after that records a restart for an update, which the one before it never noted. -/
theorem Cutting.own_ok_fails :
    ¬ ∀ (rtc : Rtc) (es : List CutEvent),
      Along (watch Cutting.step boots) OwnFacts (Cutting.blank rtc, Boots.none) es := by
  intro h
  let env : BootEnv := ⟨4, none, .unknown, [], none⟩
  let found : Rtc := ⟨rtcMagic, 0, ~~~0, intentOta, ~~~intentOta, 0, ~~~0⟩
  let s := cutSeed.foldl (watch Cutting.step boots) (Cutting.blank noRtc, Boots.none)
  have hown : OwnFacts s (.record env {}) :=
    (along_append.mp (h noRtc (cutSeed ++ [.record env {}]))).2.1
  obtain ⟨intent, hintent, hreached⟩ := hown env {} found 0 ⟨[], false⟩ rfl (by decide +kernel)
    (by decide +kernel) (by decide +kernel)
  have hota : ((s.1.asFound found).newRecord env).intent = 1 := by decide +kernel
  rcases hreached.intent with rfl | hmem
  · exact absurd (hota.symm.trans hintent) (by decide)
  · exact absurd hmem List.not_mem_nil

/-- Had that boot been reset once the magic was there, it would be of nobody's doing. -/
theorem Cutting.own_ok_seeded :
    Along (watch Cutting.step boots) OwnFacts (Cutting.blank noRtc, Boots.none)
      [[.begin], List.replicate 7 .seed, [.warmReset, .begin], List.replicate 7 .seed,
        [.record ⟨4, none, .unknown, [], none⟩ {}]].flatten :=
  Cutting.own_ok noRtc _ (by decide +kernel)

end

end Reset
end Wt32Router
