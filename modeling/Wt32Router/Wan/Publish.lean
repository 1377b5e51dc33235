import Wt32Router.Lib.Runs
import Wt32Router.Wan.Rules

/-!
# Two publishers of one rule set

A rule set has two halves and two sources. The event task knows `up` and `dns_ip`, and reads
the configuration with `wan_cfg_get`; a task that has saved a configuration knows the port
list, and reads `up` and `dns_ip` out of the live rule set (`wan_ports_changed`). Each then
waits for the mutex, and publishes what it read *before* it had the mutex.

So the mutex keeps two publishes from being mixed, and does not keep the second one from
being the older. What the saver read may have been replaced by the event task meanwhile, and
the other way round.

> **`Publishers.no_update_lost`**: if no publish puts back a half older than the live one, then
> whenever no call is under way the live rule set is the last state's and the last saved
> configuration's.

How old a half is needs ghost state: the changes of state and the saves are numbered, and
each rule set, live or about to be published, carries the numbers of its two halves (`Ages`).
-/

namespace Wt32Router
namespace Wan

open Lib Function

/-- Where a task stands in its call. -/
inductive Call where
  | idle
  /-- `wan_cfg_save` has returned, and `wan_ports_changed` has not read `s_active` yet -/
  | saved
  /-- `publish_rules` has its two arguments -/
  | called (up : Bool) (dnsIp : Ip)
  /-- and has its copy of the configuration; the mutex is next -/
  | filled (up : Bool) (dnsIp : Ip) (cfg : WanCfg)

/-- The rule sets, the configuration, and the tasks: `none` is the event task, and the others
    are those that may save a configuration. -/
structure Publishers (τ : Type) where
  rules : RuleStore
  cfg : WanCfg
  call : Option τ → Call

inductive PublishStep (τ : Type) where
  /-- the event task calls `publish_rules` -/
  | stateChange (up : Bool) (dnsIp : Ip)
  | save (t : τ) (cfg : WanCfg)
  | readRules (t : τ)
  | getCfg (p : Option τ)
  | publish (p : Option τ)

def Call.isIdle : Call → Bool
  | .idle => true
  | _ => false

variable {τ : Type} [DecidableEq τ]

/-- A step that is not the task's next one changes nothing. -/
def Publishers.step (s : Publishers τ) : PublishStep τ → Publishers τ
  | .stateChange up dnsIp =>
      if (s.call none).isIdle then { s with call := update s.call none (.called up dnsIp) } else s
  | .save t cfg =>
      if (s.call (some t)).isIdle then
        { s with cfg := cfg, call := update s.call (some t) .saved }
      else s
  | .readRules t =>
      match s.call (some t) with
      | .saved =>
          { s with
            call := update s.call (some t) (.called s.rules.live.up s.rules.live.dnsIp) }
      | _ => s
  | .getCfg p =>
      match s.call p with
      | .called up dnsIp => { s with call := update s.call p (.filled up dnsIp s.cfg) }
      | _ => s
  | .publish p =>
      match s.call p with
      | .filled up dnsIp cfg =>
          { s with rules := publishRules s.rules cfg up dnsIp, call := update s.call p .idle }
      | _ => s

/-- As `wan_init` leaves them. -/
def Publishers.start (cfg : WanCfg) : Publishers τ :=
  ⟨publishRules .start cfg false 0, cfg, fun _ => .idle⟩

/-! ## How old what is -/

/-- The number of the change of state, and that of the save, that a rule set comes from. -/
structure Age where
  state : Nat
  cfg : Nat

/-- The changes of state and the saves so far, the last change's arguments, and the age of the
    live rule set and of what each task has read. -/
structure Ages (τ : Type) where
  last : Age
  up : Bool
  dnsIp : Ip
  live : Age
  read : Option τ → Age

def Ages.start : Ages τ := ⟨⟨0, 0⟩, false, 0, ⟨0, 0⟩, fun _ => ⟨0, 0⟩⟩

/-- The monitor: which change of state and which save each step reads or makes. -/
def Ages.next (s : Publishers τ) (e : PublishStep τ) (a : Ages τ) : Ages τ :=
  match e with
  | .stateChange up dnsIp =>
      if (s.call none).isIdle then
        { a with
          last := { a.last with state := a.last.state + 1 }, up := up, dnsIp := dnsIp
          read := update a.read none { a.read none with state := a.last.state + 1 } }
      else a
  | .save t _ =>
      if (s.call (some t)).isIdle then { a with last := { a.last with cfg := a.last.cfg + 1 } }
      else a
  | .readRules t =>
      match s.call (some t) with
      | .saved =>
          { a with read := update a.read (some t) { a.read (some t) with state := a.live.state } }
      | _ => a
  | .getCfg p =>
      match s.call p with
      | .called _ _ => { a with read := update a.read p { a.read p with cfg := a.last.cfg } }
      | _ => a
  | .publish p =>
      match s.call p with
      | .filled _ _ _ => { a with live := a.read p }
      | _ => a

def NothingOlder (s : Publishers τ × Ages τ) : PublishStep τ → Prop
  | .publish p => s.2.live.state ≤ (s.2.read p).state ∧ s.2.live.cfg ≤ (s.2.read p).cfg
  | _ => True

instance (s : Publishers τ × Ages τ) (e : PublishStep τ) : Decidable (NothingOlder s e) :=
  match e with
  | .publish _ => inferInstanceAs (Decidable (_ ∧ _))
  | .stateChange _ _ | .save _ _ | .readRules _ | .getCfg _ => isTrue trivial

/-! ## The invariant -/

/-- What a task holds is no newer than the last change and the last save, and is theirs if it
    is as new. -/
def Call.Holds (cfg : WanCfg) (last : Age) (up : Bool) (dnsIp : Ip) (age : Age) : Call → Prop
  | .idle | .saved => True
  | .called u d => age.state ≤ last.state ∧ (age.state = last.state → u = up ∧ d = dnsIp)
  | .filled u d c =>
      age.state ≤ last.state ∧ (age.state = last.state → u = up ∧ d = dnsIp) ∧
        age.cfg ≤ last.cfg ∧ (age.cfg = last.cfg → c = cfg)

/-- The task is going to publish the last change of state. -/
def Call.WillPublishState (last age : Age) : Call → Prop
  | .called _ _ | .filled _ _ _ => age.state = last.state
  | _ => False

/-- The task is going to publish the last saved configuration. -/
def Call.WillPublishCfg (last age : Age) : Call → Prop
  | .idle => False
  | .saved | .called _ _ => True
  | .filled _ _ _ => age.cfg = last.cfg

/-- The live rule set is the last one of each kind, or a task is going to publish that one. -/
structure Accounted (s : Publishers τ × Ages τ) : Prop where
  liveState : s.2.live.state ≤ s.2.last.state
  liveCfg : s.2.live.cfg ≤ s.2.last.cfg
  up : s.2.live.state = s.2.last.state → s.1.rules.live.up = s.2.up ∧
    s.1.rules.live.dnsIp = s.2.dnsIp
  ports : s.2.live.cfg = s.2.last.cfg →
    ∃ u d, s.1.rules.live = fillRules s.1.cfg u d
  holds : ∀ p, (s.1.call p).Holds s.1.cfg s.2.last s.2.up s.2.dnsIp (s.2.read p)
  state : s.2.live.state = s.2.last.state ∨
    (s.1.call none).WillPublishState s.2.last (s.2.read none)
  cfg : s.2.live.cfg = s.2.last.cfg ∨
    ∃ t, (s.1.call (some t)).WillPublishCfg s.2.last (s.2.read (some t))

variable {s : Publishers τ} {a : Ages τ} {cfg cfg' : WanCfg} {last age : Age} {up up' : Bool}
  {dnsIp dnsIp' : Ip} {c : Call}

theorem Call.Holds.newState (h : c.Holds cfg last up dnsIp age) :
    c.Holds cfg { last with state := last.state + 1 } up' dnsIp' age := by
  cases c with
  | idle | saved => trivial
  | called u d =>
    have hle : age.state ≤ last.state := h.1
    exact ⟨Nat.le_succ_of_le hle, fun heq => absurd heq (Nat.ne_of_lt (Nat.lt_succ_of_le hle))⟩
  | filled u d c =>
    have hle : age.state ≤ last.state := h.1
    exact ⟨Nat.le_succ_of_le hle, fun heq => absurd heq (Nat.ne_of_lt (Nat.lt_succ_of_le hle)),
      h.2.2⟩

theorem Call.Holds.newCfg (h : c.Holds cfg last up dnsIp age) :
    c.Holds cfg' { last with cfg := last.cfg + 1 } up dnsIp age := by
  cases c with
  | idle | saved => trivial
  | called u d => exact h
  | filled u d c =>
    have hle : age.cfg ≤ last.cfg := h.2.2.1
    exact ⟨h.1, h.2.1, Nat.le_succ_of_le hle,
      fun heq => absurd heq (Nat.ne_of_lt (Nat.lt_succ_of_le hle))⟩

theorem Accounted.stateChange (h : Accounted (s, a)) :
    Accounted (s.step (.stateChange up dnsIp), Ages.next s (.stateChange up dnsIp) a) := by
  dsimp only [Publishers.step, Ages.next]
  cases hidle : (s.call none).isIdle with
  | false => exact h
  | true =>
    have hlt : a.live.state < a.last.state + 1 := Nat.lt_succ_of_le h.liveState
    -- what is live is older now, and the event task is going to publish what is newest
    constructor
    · exact Nat.le_of_lt hlt
    · exact h.liveCfg
    · exact fun heq => absurd heq (Nat.ne_of_lt hlt)
    · exact h.ports
    · intro q
      rcases eq_or_ne q none with rfl | hne
      · simp [Call.Holds]
      · simpa [hne] using (h.holds q).newState
    · exact .inr (by simp [Call.WillPublishState])
    · rcases h.cfg with hlive | ⟨t, ht⟩
      · exact .inl hlive
      · exact .inr ⟨t, by simpa [Call.WillPublishCfg] using ht⟩

theorem Accounted.save {t : τ} (h : Accounted (s, a)) :
    Accounted (s.step (.save t cfg), Ages.next s (.save t cfg) a) := by
  dsimp only [Publishers.step, Ages.next]
  cases hidle : (s.call (some t)).isIdle with
  | false => exact h
  | true =>
    have hlt : a.live.cfg < a.last.cfg + 1 := Nat.lt_succ_of_le h.liveCfg
    -- the configuration is newer than the live one, and this task is going to publish it
    constructor
    · exact h.liveState
    · exact Nat.le_of_lt hlt
    · exact h.up
    · exact fun heq => absurd heq (Nat.ne_of_lt hlt)
    · intro q
      rcases eq_or_ne q (some t) with rfl | hne
      · simp [Call.Holds]
      · simpa [hne] using (h.holds q).newCfg
    · rcases h.state with hlive | hwill
      · exact .inl hlive
      · exact .inr (by simpa [Call.WillPublishState] using hwill)
    · exact .inr ⟨t, by simp [Call.WillPublishCfg]⟩

theorem Accounted.readRules {t : τ} (h : Accounted (s, a)) :
    Accounted (s.step (.readRules t), Ages.next s (.readRules t) a) := by
  dsimp only [Publishers.step, Ages.next]
  cases hcall : s.call (some t) with
  | saved =>
    refine ⟨h.liveState, h.liveCfg, h.up, h.ports, fun q => ?_, ?_, ?_⟩
    · rcases eq_or_ne q (some t) with rfl | hne
      -- it reads what is live, which is no newer than the last change
      · simpa [Call.Holds] using ⟨h.liveState, h.up⟩
      · simpa [hne] using h.holds q
    · rcases h.state with hlive | hwill
      · exact .inl hlive
      · exact .inr (by simpa using hwill)
    · rcases h.cfg with hlive | ⟨t', ht'⟩
      · exact .inl hlive
      · refine .inr ⟨t', ?_⟩
        rcases eq_or_ne t' t with rfl | hne
        · simp [Call.WillPublishCfg]
        · simpa [hne] using ht'
  | _ => exact h

theorem Accounted.getCfg {p : Option τ} (h : Accounted (s, a)) :
    Accounted (s.step (.getCfg p), Ages.next s (.getCfg p) a) := by
  dsimp only [Publishers.step, Ages.next]
  cases hcall : s.call p with
  | called u d =>
    have hp := h.holds p
    refine ⟨h.liveState, h.liveCfg, h.up, h.ports, fun q => ?_, ?_, ?_⟩
    · rcases eq_or_ne q p with rfl | hne
      · simp only [hcall, Call.Holds] at hp
        simpa [Call.Holds] using hp
      · simpa [hne] using h.holds q
    · rcases h.state with hlive | hwill
      · exact .inl hlive
      · refine .inr ?_
        rcases eq_or_ne p none with rfl | hne
        · simp only [hcall] at hwill
          simpa [Call.WillPublishState] using hwill
        · simpa [hne.symm] using hwill
    · rcases h.cfg with hlive | ⟨t, ht⟩
      · exact .inl hlive
      · refine .inr ⟨t, ?_⟩
        rcases eq_or_ne p (some t) with rfl | hne
        · simp [Call.WillPublishCfg]
        · simpa [hne.symm] using ht
  | _ => exact h

theorem Accounted.publish {p : Option τ} (h : Accounted (s, a))
    (hok : NothingOlder (s, a) (.publish p)) :
    Accounted (s.step (.publish p), Ages.next s (.publish p) a) := by
  obtain ⟨hstate, hcfg⟩ := hok
  dsimp only [Publishers.step, Ages.next]
  cases hcall : s.call p with
  | filled u d c =>
    have hp := h.holds p
    simp only [hcall, Call.Holds] at hp
    obtain ⟨hle, hnew, hcle, hcnew⟩ := hp
    refine ⟨hle, hcle, fun heq => ?_, fun heq => ?_, fun q => ?_, ?_, ?_⟩
    · simpa using hnew heq
    · exact ⟨u, d, by simp [hcnew heq]⟩
    · rcases eq_or_ne q p with rfl | hne
      · simp [Call.Holds]
      · simpa [hne] using h.holds q
    · rcases h.state with hlive | hwill
      -- nothing older goes live: the last change was live and still is
      · exact .inl (le_antisymm hle (hlive ▸ hstate))
      · rcases eq_or_ne p none with rfl | hne
        · simp only [hcall] at hwill
          exact .inl hwill
        · exact .inr (by simpa [hne.symm] using hwill)
    · rcases h.cfg with hlive | ⟨t, ht⟩
      · exact .inl (le_antisymm hcle (hlive ▸ hcfg))
      · rcases eq_or_ne p (some t) with rfl | hne
        · simp only [hcall] at ht
          exact .inl ht
        · exact .inr ⟨t, by simpa [hne.symm] using ht⟩
  | _ => exact h

theorem Accounted.step {e : PublishStep τ} (h : Accounted (s, a)) (hok : NothingOlder (s, a) e) :
    Accounted (s.step e, Ages.next s e a) := by
  cases e with
  | stateChange up dnsIp => exact h.stateChange
  | save t cfg => exact h.save
  | readRules t => exact h.readRules
  | getCfg p => exact h.getCfg
  | publish p => exact h.publish hok

omit [DecidableEq τ] in
theorem start_accounted : Accounted ((Publishers.start cfg : Publishers τ), Ages.start) := by
  refine ⟨le_refl _, le_refl _, fun _ => ?_, fun _ => ⟨false, 0, ?_⟩, fun _ => trivial,
    .inl rfl, .inl rfl⟩
  · simp [Publishers.start, Ages.start]
  · simp [Publishers.start]

omit [DecidableEq τ] in
/-- With no call under way, nothing is left to be published. -/
theorem Accounted.live (h : Accounted (s, a)) (hidle : ∀ p, s.call p = .idle) :
    s.rules.live = fillRules s.cfg a.up a.dnsIp := by
  have hstate : a.live.state = a.last.state :=
    h.state.resolve_right (by simp [hidle, Call.WillPublishState])
  have hcfg : a.live.cfg = a.last.cfg :=
    h.cfg.resolve_right (by simp [hidle, Call.WillPublishCfg])
  obtain ⟨hup, hdns⟩ := h.up hstate
  obtain ⟨u, d, hports⟩ := h.ports hcfg
  rw [hports] at hup hdns ⊢
  rw [fillRules_up] at hup
  rw [fillRules_dnsIp] at hdns
  rw [hup, hdns]

/-- **No update is lost while nothing older is published.** Whatever tasks there are, and
    however their reads and publishes interleave: with every call returned, the live rule set
    has the last state's `up` and `dns_ip` and the last saved configuration's ports. -/
theorem Publishers.no_update_lost (cfg : WanCfg) (es : List (PublishStep τ))
    (h : Along (watch Publishers.step Ages.next) NothingOlder (Publishers.start cfg, Ages.start)
      es) :
    let now := es.foldl (watch Publishers.step Ages.next) (Publishers.start cfg, Ages.start)
    (∀ p, now.1.call p = .idle) → now.1.rules.live = fillRules now.1.cfg now.2.up now.2.dnsIp := by
  intro now hidle
  have hnow : Accounted now := h.invariant start_accounted fun _ _ hI hok => hI.step hok
  exact hnow.live hidle

/-- The console saves ports and reads a rule set that is down; the uplink comes up and
    publishes; the console publishes what it read. -/
def upLost : List (PublishStep Unit) :=
  [.save () ⟨true, [], [], fun _ => {}, 1⟩, .readRules (), .stateChange true 0x0A000001,
    .getCfg none, .publish none, .getCfg (some ()), .publish (some ())]

theorem no_update_lost_fails :
    ¬ ∀ (cfg : WanCfg) (es : List (PublishStep Unit)),
      let now := es.foldl (watch Publishers.step Ages.next) (Publishers.start cfg, Ages.start)
      (∀ p, now.1.call p = .idle) →
        now.1.rules.live = fillRules now.1.cfg now.2.up now.2.dnsIp := by
  intro h
  have hlive := h ⟨true, [], [], fun _ => {}, 0⟩ upLost (fun p => by cases p <;> rfl)
  exact Bool.false_ne_true (congrArg Rules.up hlive)

/-- One after the other, both halves arrive. -/
theorem no_update_lost_in_turn :
    let es : List (PublishStep Unit) :=
      [.stateChange true 0x0A000001, .getCfg none, .publish none,
        .save () ⟨true, [], [], fun _ => {}, 1⟩, .readRules (), .getCfg (some ()),
        .publish (some ())]
    let now := es.foldl (watch Publishers.step Ages.next)
      (Publishers.start ⟨true, [], [], fun _ => {}, 0⟩, Ages.start)
    now.1.rules.live = fillRules now.1.cfg now.2.up now.2.dnsIp :=
  Publishers.no_update_lost _ _ (by decide) (fun p => by cases p <;> rfl)

end Wan
end Wt32Router
