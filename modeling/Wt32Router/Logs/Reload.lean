import Wt32Router.Logs.Task

/-!
# A saved configuration, and the socket it is shipped by

The task shares its statics with whoever saves a configuration and with the handler of the bridge's
events, and no lock is held between one step of it and the next. What holds over every order of
their steps is said here, and what does not.

> **`config_in_effect`**: no save goes unnoticed, and the configuration that the task runs by is the
> one that was saved, unless a save came between its two reads.

> **`divided_save_lost`**: then it is lost. `reload_config` reads the configuration first and the
> generation behind it, and takes a save in between for one that it has read.

> **`sends_pinned`**: what is sent leaves by the bridge, unless the handler comes between the task's
> steps about the socket, or the bridge goes down under a drain, which does not look at `s_bound`
> again before its lines are all sent.

The last is what `bind_to_bridge` is there to prevent: an unbound socket "can hand the datagram to
the AP port".
-/

namespace Wt32Router
namespace Logs

open Lib (Along watch Versioned)
open Lib.Versioned (Counted Missed missed)

section

variable {s : Sender} {m : Missed} {e : SenderEvent} {io : Io} {w : Bool}

/-! ## The configuration, and the copy of it -/

theorem versioned_opened : (s.opened w).versioned = s.versioned := by
  unfold Sender.opened
  split <;> rfl

theorem versioned_choose : (s.choose w io).versioned = s.versioned := by
  unfold Sender.choose
  split
  · split
    · exact versioned_opened
    · rfl
  · split <;> rfl

theorem versioned_task (s : Sender) (io : Io) : (s.task io).versioned =
    ((s.op (.task io)).map s.versioned.step).getD s.versioned := by
  unfold Sender.task Sender.op
  cases hpc : s.pc with
  | choose w => exact versioned_choose
  | store w bound => exact versioned_opened
  | drain => dsimp only; split <;> rfl
  | pass => dsimp only; split <;> rfl
  | _ => rfl

/-- The sender is a reader of a versioned value. -/
theorem versioned_step : (s.step e).versioned =
    ((s.op e).map s.versioned.step).getD s.versioned := by
  cases e with
  | task io => exact versioned_task s io
  | give => unfold Sender.step; dsimp only; split <;> rfl
  | status up io => unfold Sender.step; dsimp only; split <;> rfl
  | statusStored => unfold Sender.step; dsimp only; split <;> rfl
  | _ => rfl

/-- What the task has missed: saves since its last copy, and since it last looked. -/
def unnoticed (s : Sender) (e : SenderEvent) (m : Missed) : Missed :=
  ((s.op e).map fun op => missed s.versioned op m).getD m

theorem counted_step (h : Counted s.versioned m) (e : SenderEvent) :
    Counted (s.step e).versioned (unnoticed s e m) := by
  rw [versioned_step, unnoticed]
  cases s.op e with
  | none => exact h
  | some op => exact h.step op

/-! ## Where the task goes -/

/-- The collector's address is there, and so may be a socket. -/
def SyslogCfg.Ships (cfg : SyslogCfg) : Prop := cfg.enabled = true ∧ cfg.serverIp ≠ 0

/-- What the end of `reload_config` leaves as it was. -/
structure Ended (s t : Sender) : Prop where
  owed : t.owed = s.owed
  notified : t.notified = s.notified
  handler : t.handler = s.handler
  sock : t.sock = s.sock
  bound : t.bound = s.bound
  cfg : t.cfg = s.cfg
  dest : t.dest = s.dest
  severity : t.ship.minSeverity = s.ship.minSeverity
  pc : t.pc = .drain ∨ t.pc = .take

theorem reloaded_ended : Ended s s.reloaded := by
  refine ⟨rfl, rfl, rfl, rfl, rfl, rfl, rfl, rfl, ?_⟩
  unfold Sender.reloaded
  cases s.started <;> simp

theorem opened_ended : Ended s (s.opened w) := by
  unfold Sender.opened
  split
  · exact reloaded_ended
  · refine ⟨rfl, rfl, rfl, rfl, rfl, rfl, rfl, rfl, ?_⟩
    exact (reloaded_ended (s := { s with ship := { s.ship with cursor := 0 } })).pc

theorem choose_cases (s : Sender) (w : Bool) (io : Io) :
    (Ended s (s.choose w io) ∧ (s.cfg.Ships ∨ s.sock = none)) ∨
      (s.choose w io = { s with sock := some false, pc := .bind w } ∧ s.cfg.Ships ∧
        s.sock = none) ∨
      s.choose w io = { s with pc := .unbind } := by
  unfold Sender.choose
  by_cases hships : s.cfg.enabled ∧ s.cfg.serverIp ≠ 0
  · rw [if_pos hships]
    split
    · exact .inl ⟨opened_ended, .inl hships⟩
    · rename_i hneither
      have hnone := Option.not_isSome_iff_eq_none.mp (not_or.mp hneither).1
      exact .inr (.inl ⟨rfl, hships, hnone⟩)
  · rw [if_neg hships]
    split
    · exact .inr (.inr rfl)
    · rename_i hnone
      exact .inl ⟨reloaded_ended, .inr (Option.not_isSome_iff_eq_none.mp hnone)⟩

theorem task_choose (h : s.pc = .choose w) :
    s.task io = { s with dest := (s.cfg.serverIp, s.cfg.port) }.choose w io := by
  unfold Sender.task
  rw [h]

theorem task_store {bound : Bool} (h : s.pc = .store w bound) :
    s.task io = { s with bound }.opened w := by
  unfold Sender.task
  rw [h]

theorem task_forget (h : s.pc = .forget) : s.task io = { s with bound := false }.reloaded := by
  unfold Sender.task
  rw [h]

theorem task_pass_pc (h : s.pc = .pass) (io : Io) :
    (s.task io).pc = .pass ∨ (s.task io).pc = .pace ∨ (s.task io).pc = .settle := by
  unfold Sender.task
  rw [h]
  dsimp only
  split
  · exact .inl h
  · unfold Sender.pass
    dsimp only
    split
    · exact .inl rfl
    · split
      · exact .inr (.inl rfl)
      · exact .inr (.inr rfl)

/-- Each of the two windows of `reload_config` is entered from the step in front of it. -/
theorem task_window : ((s.task io).pc = .get → s.pc = .check) ∧
    ((s.task io).pc = .look w → s.pc = .get) := by
  cases hpc : s.pc with
  | choose w =>
    rw [task_choose hpc]
    rcases choose_cases { s with dest := (s.cfg.serverIp, s.cfg.port) } w io
      with ⟨h, -⟩ | ⟨h, -⟩ | h
    · rcases h.pc with h | h <;> rw [h] <;> simp
    · rw [h]
      simp
    · rw [h]
      simp
  | store w bound =>
    rw [task_store hpc]
    rcases (opened_ended (s := { s with bound }) (w := w)).pc with h | h <;> rw [h] <;> simp
  | forget =>
    rw [task_forget hpc]
    rcases (reloaded_ended (s := { s with bound := false })).pc with h | h <;> rw [h] <;> simp
  | pass => rcases task_pass_pc hpc io with h | h | h <;> rw [h] <;> simp
  | check | drain =>
    unfold Sender.task
    rw [hpc]
    dsimp only
    split <;> simp
  | _ => simp [Sender.task, hpc]

/-! ## Notifications -/

/-- The task takes its notifications where it waits, and nowhere else. -/
theorem task_owed (s : Sender) (io : Io) : (s.task io).owed = s.owed ∧
    (s.pc ≠ .take → (s.task io).notified = s.notified) := by
  cases hpc : s.pc with
  | choose w =>
    rw [task_choose hpc]
    rcases choose_cases { s with dest := (s.cfg.serverIp, s.cfg.port) } w io
      with ⟨h, -⟩ | ⟨h, -⟩ | h
    · exact ⟨h.owed, fun _ => h.notified⟩
    · rw [h]
      exact ⟨rfl, fun _ => rfl⟩
    · rw [h]
      exact ⟨rfl, fun _ => rfl⟩
  | store w bound =>
    rw [task_store hpc]
    exact ⟨opened_ended.owed, fun _ => opened_ended.notified⟩
  | drain | pass =>
    unfold Sender.task
    rw [hpc]
    dsimp only
    split <;> exact ⟨rfl, fun _ => rfl⟩
  | take => exact ⟨by simp [Sender.task, hpc], fun h => absurd rfl h⟩
  | _ => simp [Sender.task, hpc, Sender.reloaded]

/-- A save that the task has not noticed: it is on its way to look, or will be woken. -/
def Woken (s : Sender) (m : Missed) : Prop :=
  m.unseen ≠ 0 → 0 < s.owed + s.notified ∨ s.pc = .check ∨ s.pc = .get ∨ ∃ w, s.pc = .look w

/-- There have been fewer saves since the task looked than the generation can count. -/
def Few (m : Missed) : Prop := m.unseen + 1 < 2 ^ 32

instance : DecidablePred Few := fun m => inferInstanceAs (Decidable (m.unseen + 1 < 2 ^ 32))

theorem woken_step (h : Woken s m) (hcount : Counted s.versioned m) (hfew : Few m)
    (e : SenderEvent) : Woken (s.step e) (unnoticed s e m) := by
  cases e with
  | task io =>
    by_cases hwhere : s.pc = .take ∨ s.pc = .check ∨ s.pc = .get ∨ ∃ w, s.pc = .look w
    · rcases hwhere with hpc | hpc | hpc | ⟨w, hpc⟩
      · refine fun _ => .inr (.inl ?_)
        simp [Sender.step, Sender.task, hpc]
      · intro hunseen
        have hm : unnoticed s (.task io) m = m := by simp [unnoticed, Sender.op, hpc]
        rw [hm] at hunseen
        have hdue : s.generation ≠ s.seen :=
          (hcount.due_iff (Nat.lt_of_succ_lt hfew)).mpr hunseen
        exact .inr (.inr (.inl (by simp [Sender.step, Sender.task, hpc, hdue])))
      · exact fun _ => .inr (.inr (.inr ⟨s.cfg.enabled, by simp [Sender.step, Sender.task, hpc]⟩))
      · refine fun hunseen => absurd ?_ hunseen
        simp [unnoticed, Sender.op, hpc, missed]
    · have hm : unnoticed s (.task io) m = m := by
        unfold unnoticed Sender.op
        cases hpc : s.pc with
        | get => exact absurd (.inr (.inr (.inl hpc))) hwhere
        | look w => exact absurd (.inr (.inr (.inr ⟨w, hpc⟩))) hwhere
        | _ => rfl
      intro hunseen
      rw [hm] at hunseen
      obtain ⟨howed, hnotified⟩ := task_owed s io
      have hpos := (h hunseen).resolve_right fun hlook => hwhere (.inr hlook)
      refine .inl ?_
      show 0 < (s.task io).owed + (s.task io).notified
      rw [howed, hnotified fun htake => hwhere (.inl htake)]
      exact hpos
  | save cfg => exact fun _ => .inl (Nat.lt_add_right _ (Nat.succ_pos _))
  | give =>
    intro hunseen
    unfold Sender.step
    dsimp only
    split
    · exact h hunseen
    · exact .inl (Nat.succ_pos _)
  | notify => exact fun _ => .inl (Nat.succ_pos _)
  | log line => exact h
  | status up io =>
    intro hunseen
    unfold Sender.step
    dsimp only
    split <;> exact h hunseen
  | statusStored =>
    intro hunseen
    unfold Sender.step
    dsimp only
    split
    · exact h hunseen
    · exact .inl (Nat.lt_add_right _ (Nat.succ_pos _))

/-! ## The copy -/

def Pc.looking : Pc → Bool
  | .look _ => true
  | _ => false

/-- No save comes between `syslog_cfg_get` and `syslog_cfg_generation`. -/
def Undivided (s : Sender) : SenderEvent → Prop
  | .save _ => s.pc.looking = false
  | _ => True

instance : ∀ s e, Decidable (Undivided s e)
  | s, .save _ => inferInstanceAs (Decidable (s.pc.looking = false))
  | _, .task _ | _, .give | _, .notify | _, .log _ | _, .status _ _ | _, .statusStored =>
      isTrue trivial

/-- What has not been copied: nothing between the two; else no more than has not been seen. -/
structure Lagging (s : Sender) (m : Missed) : Prop where
  inside : (∃ w, s.pc = .look w) → m.uncopied = 0
  outside : s.pc ≠ .get → m.uncopied ≤ m.unseen

theorem lagging_step (h : Lagging s m) (hwhole : Undivided s e) :
    Lagging (s.step e) (unnoticed s e m) := by
  cases e with
  | task io =>
    refine ⟨fun ⟨w, hlook⟩ => ?_, fun hnot => ?_⟩
    · have hget : s.pc = .get := task_window.2 hlook
      simp [unnoticed, Sender.op, hget, missed]
    · cases hpc : s.pc with
      | get => simp [unnoticed, Sender.op, hpc, missed]
      | look w => simp [unnoticed, Sender.op, hpc, missed, h.inside ⟨w, hpc⟩]
      | _ =>
        simp only [unnoticed, Sender.op, hpc, Option.map_none, Option.getD_none]
        exact h.outside (by simp [hpc])
  | save cfg =>
    refine ⟨fun ⟨w, hlook⟩ => ?_, fun hnot => Nat.succ_le_succ (h.outside hnot)⟩
    have hpc : s.pc = .look w := hlook
    have hno : s.pc.looking = false := hwhole
    rw [hpc] at hno
    exact absurd hno.symm Bool.false_ne_true
  | give =>
    unfold Sender.step
    dsimp only
    split
    · exact h
    · exact ⟨h.inside, h.outside⟩
  | notify => exact ⟨h.inside, h.outside⟩
  | log line => exact ⟨h.inside, h.outside⟩
  | status up io =>
    unfold Sender.step
    dsimp only
    split
    · exact h
    · exact ⟨h.inside, h.outside⟩
  | statusStored =>
    unfold Sender.step
    dsimp only
    split
    · exact h
    · exact ⟨h.inside, h.outside⟩

/-! ## What the task has made of its copy -/

/-- `s_cfg` is new, and `s_dest` is not. -/
def Pc.copying : Pc → Bool
  | .look _ | .choose _ => true
  | _ => false

/-- There is a socket that the configuration has no use for. -/
def Pc.closing : Pc → Bool
  | .unbind | .close => true
  | _ => false

structure Tuned (s : Sender) : Prop where
  severity : s.ship.minSeverity = s.cfg.minSeverity
  dest : s.pc.copying = false → s.dest = (s.cfg.serverIp, s.cfg.port)
  sock : s.pc.copying = false → s.pc.closing = false → s.sock.isSome → s.cfg.Ships
  draining : s.pc = .pass ∨ s.pc = .pace → s.sock.isSome

theorem bindToBridge_isSome {bound : Bool} {sock : Option Bool} :
    (bindToBridge bound io sock).2.isSome = sock.isSome := by
  unfold bindToBridge
  cases sock with
  | none => rfl
  | some pinned =>
    dsimp only
    split
    · rfl
    · split <;> rfl

theorem turn_minSeverity {ship : Shipper} {p : Pass} {o : Outcome} :
    (ship.turn p o).minSeverity = ship.minSeverity := by
  unfold Shipper.turn
  split
  · unfold Shipper.body
    split
    · rfl
    · split
      · rfl
      · cases o with
        | noBuffers => dsimp only; split <;> rfl
        | _ => rfl
  · rfl

theorem Tuned.ended {t : Sender} (h : Ended s t) (hsev : s.ship.minSeverity = s.cfg.minSeverity)
    (hdest : s.dest = (s.cfg.serverIp, s.cfg.port)) (hsock : s.sock.isSome → s.cfg.Ships) :
    Tuned t := by
  refine ⟨?_, fun _ => ?_, fun _ _ => ?_, ?_⟩
  · rw [h.severity, h.cfg, hsev]
  · rw [h.dest, h.cfg, hdest]
  · rw [h.sock, h.cfg]
    exact hsock
  · rcases h.pc with hpc | hpc <;> rw [hpc] <;> simp

/-- A step that only moves on. -/
theorem Tuned.moved {pc : Pc} (h : Tuned s) (hcopy : s.pc.copying = false)
    (hclose : s.pc.closing = false) (hpass : pc ≠ .pass) (hpace : pc ≠ .pace) :
    Tuned { s with pc } :=
  ⟨h.severity, fun _ => h.dest hcopy, fun _ _ => h.sock hcopy hclose,
    fun hin => absurd hin (not_or.mpr ⟨hpass, hpace⟩)⟩

theorem tuned_choose (h : Tuned s) (hpc : s.pc = .choose w) : Tuned (s.task io) := by
  rw [task_choose hpc]
  rcases choose_cases { s with dest := (s.cfg.serverIp, s.cfg.port) } w io
    with ⟨hend, hsock⟩ | ⟨hbind, hships, -⟩ | hunbind
  · refine Tuned.ended hend h.severity rfl fun hsome => hsock.resolve_right fun hnone => ?_
    rw [hnone] at hsome
    exact absurd hsome Bool.false_ne_true
  · rw [hbind]
    exact ⟨h.severity, fun _ => rfl, fun _ _ _ => hships, by simp⟩
  · rw [hunbind]
    exact ⟨h.severity, fun _ => rfl, fun _ hno => absurd hno.symm Bool.false_ne_true, by simp⟩

theorem tuned_pass (h : Tuned s) (hpc : s.pc = .pass) : Tuned (s.task io) := by
  have hsome := h.draining (.inl hpc)
  have hdest := h.dest (by rw [hpc]; rfl)
  have hsock := h.sock (by rw [hpc]; rfl) (by rw [hpc]; rfl)
  unfold Sender.task
  rw [hpc]
  dsimp only
  split
  · exact h
  · exact ⟨turn_minSeverity.trans h.severity, fun _ => hdest, fun _ _ => hsock, fun _ => hsome⟩

theorem tuned_task (h : Tuned s) : Tuned (s.task io) := by
  cases hpc : s.pc with
  | take =>
    simp only [Sender.task, hpc]
    exact ⟨h.severity, fun _ => h.dest (by rw [hpc]; rfl),
      fun _ _ => h.sock (by rw [hpc]; rfl) (by rw [hpc]; rfl), by simp⟩
  | settle =>
    simp only [Sender.task, hpc]
    exact h.moved (by rw [hpc]; rfl) (by rw [hpc]; rfl) (by decide) (by decide)
  | check =>
    simp only [Sender.task, hpc]
    exact h.moved (by rw [hpc]; rfl) (by rw [hpc]; rfl) (by split <;> decide) (by split <;> decide)
  | get =>
    simp only [Sender.task, hpc]
    exact ⟨rfl, fun hno => absurd hno.symm Bool.false_ne_true,
      fun hno => absurd hno.symm Bool.false_ne_true, by simp⟩
  | look w =>
    simp only [Sender.task, hpc]
    exact ⟨h.severity, fun hno => absurd hno.symm Bool.false_ne_true,
      fun hno => absurd hno.symm Bool.false_ne_true, by simp⟩
  | choose w => exact tuned_choose h hpc
  | bind w =>
    simp only [Sender.task, hpc]
    refine ⟨h.severity, fun _ => h.dest (by rw [hpc]; rfl), fun _ _ hsome => ?_, by simp⟩
    rw [bindToBridge_isSome] at hsome
    exact h.sock (by rw [hpc]; rfl) (by rw [hpc]; rfl) hsome
  | store w bound =>
    rw [task_store hpc]
    exact Tuned.ended opened_ended h.severity (h.dest (by rw [hpc]; rfl))
      (h.sock (by rw [hpc]; rfl) (by rw [hpc]; rfl))
  | unbind =>
    simp only [Sender.task, hpc]
    exact ⟨h.severity, fun _ => h.dest (by rw [hpc]; rfl),
      fun _ hno => absurd hno.symm Bool.false_ne_true, by simp⟩
  | close =>
    simp only [Sender.task, hpc]
    exact ⟨h.severity, fun _ => h.dest (by rw [hpc]; rfl),
      fun _ _ hno => absurd hno Bool.false_ne_true, by simp⟩
  | forget =>
    rw [task_forget hpc]
    exact Tuned.ended reloaded_ended h.severity (h.dest (by rw [hpc]; rfl))
      (h.sock (by rw [hpc]; rfl) (by rw [hpc]; rfl))
  | drain =>
    have hdest := h.dest (by rw [hpc]; rfl)
    have hsock := h.sock (by rw [hpc]; rfl) (by rw [hpc]; rfl)
    unfold Sender.task
    rw [hpc]
    dsimp only
    split
    · rename_i hcond
      exact ⟨h.severity, fun _ => hdest, fun _ _ => hsock, fun _ => hcond.2.2⟩
    · exact ⟨h.severity, fun _ => hdest, fun _ _ => hsock, by simp⟩
  | pass => exact tuned_pass h hpc
  | pace =>
    have hsome := h.draining (.inr hpc)
    simp only [Sender.task, hpc]
    exact ⟨h.severity, fun _ => h.dest (by rw [hpc]; rfl),
      fun _ _ => h.sock (by rw [hpc]; rfl) (by rw [hpc]; rfl), fun _ => hsome⟩

theorem tuned_step (h : Tuned s) (e : SenderEvent) : Tuned (s.step e) := by
  cases e with
  | task io => exact tuned_task h
  | save cfg => exact ⟨h.severity, h.dest, h.sock, h.draining⟩
  | notify => exact ⟨h.severity, h.dest, h.sock, h.draining⟩
  | log line => exact ⟨h.severity, h.dest, h.sock, h.draining⟩
  | give | statusStored =>
    unfold Sender.step
    dsimp only
    split
    · exact h
    · exact ⟨h.severity, h.dest, h.sock, h.draining⟩
  | status up io =>
    unfold Sender.step
    dsimp only
    split
    · exact h
    · refine ⟨h.severity, h.dest, ?_, ?_⟩
      · dsimp only
        rw [bindToBridge_isSome]
        exact h.sock
      · dsimp only
        rw [bindToBridge_isSome]
        exact h.draining

end

/-! ## A saved configuration -/

/-- The task is in none of the steps of `reload_config`. -/
def Pc.atWork : Pc → Bool
  | .take | .check | .drain | .pass | .pace | .settle => true
  | _ => false

/-- The sender runs by the configuration that is saved. -/
structure InEffect (s : Sender) : Prop where
  cfg : s.cfg = s.cache
  dest : s.dest = (s.cache.serverIp, s.cache.port)
  severity : s.ship.minSeverity = s.cache.minSeverity
  sock : s.sock.isSome → s.cache.Ships

theorem unnoticed_unseen_le {s : Sender} {m : Missed} {e : SenderEvent} :
    (unnoticed s e m).unseen ≤ m.unseen + 1 := by
  unfold unnoticed
  cases s.op e with
  | none => exact Nat.le_succ _
  | some op =>
    cases op with
    | put cfg => exact Nat.le_refl _
    | copy => exact Nat.le_succ _
    | look => exact Nat.zero_le _

/-- The invariant of the task and the configuration it follows. -/
structure Following (s : Sender × Missed) : Prop where
  counted : Counted s.1.versioned s.2
  woken : Woken s.1 s.2
  lagging : Lagging s.1 s.2
  tuned : Tuned s.1
  few : s.2.unseen < 2 ^ 32

theorem boot_following (name : List UInt8) (cache : SyslogCfg) :
    Following (.boot name cache, ⟨1, 0⟩) where
  counted := ⟨rfl, fun h => absurd h Nat.one_ne_zero⟩
  woken := fun h => absurd rfl h
  lagging := ⟨fun ⟨_, h⟩ => (nomatch h), fun h => absurd rfl h⟩
  tuned := ⟨rfl, fun _ => rfl, fun _ _ h => absurd h Bool.false_ne_true,
    fun h => h.elim (fun h => (nomatch h)) fun h => (nomatch h)⟩
  few := Nat.two_pow_pos 32

theorem Following.step {s : Sender × Missed} {e : SenderEvent} (h : Following s) (hfew : Few s.2)
    (hwhole : Undivided s.1 e) : Following (watch Sender.step unnoticed s e) where
  counted := counted_step h.counted e
  woken := woken_step h.woken h.counted hfew e
  lagging := lagging_step h.lagging hwhole
  tuned := tuned_step h.tuned e
  few := Nat.lt_of_le_of_lt unnoticed_unseen_le hfew

theorem Following.seen {s : Sender × Missed} (h : Following s) (hpc : s.1.pc = .take)
    (howed : s.1.owed = 0) (hnotified : s.1.notified = 0) : s.1.generation = s.1.seen := by
  refine not_not.mp fun hdue => ?_
  have hunseen : s.2.unseen ≠ 0 := (h.counted.due_iff h.few).mp hdue
  rcases h.woken hunseen with hpos | hcheck | hget | ⟨w, hlook⟩
  · rw [howed, hnotified] at hpos
    exact absurd hpos (Nat.lt_irrefl 0)
  · exact absurd (hpc.symm.trans hcheck) (by decide)
  · exact absurd (hpc.symm.trans hget) (by decide)
  · exact absurd (hpc.symm.trans hlook) (by simp)

theorem Following.inEffect {s : Sender × Missed} (h : Following s) (hwork : s.1.pc.atWork = true)
    (hseen : s.1.generation = s.1.seen) : InEffect s.1 := by
  have hget : s.1.pc ≠ .get := fun hpc => by
    rw [hpc] at hwork
    exact absurd hwork Bool.false_ne_true
  have hout : s.1.pc.copying = false ∧ s.1.pc.closing = false := by
    cases hpc : s.1.pc with
    | look | choose | unbind | close =>
      rw [hpc] at hwork
      exact absurd hwork Bool.false_ne_true
    | _ => exact ⟨rfl, rfl⟩
  have hcfg : s.1.cfg = s.1.cache :=
    h.counted.current h.few (h.lagging.outside hget) (not_not.mpr hseen)
  refine ⟨hcfg, ?_, ?_, ?_⟩
  · rw [h.tuned.dest hout.1, hcfg]
  · rw [h.tuned.severity, hcfg]
  · rw [← hcfg]
    exact h.tuned.sock hout.1 hout.2

/-- A sender that is turned on, and has nothing to ship. -/
def turnOn : List SenderEvent :=
  List.replicate 3 (.task {}) ++ [.save ⟨true, 0xA801A8C0, 514, 16, 6, [65]⟩, .give] ++
    List.replicate 10 (.task {})

def SenderEvent.saves : SenderEvent → Bool
  | .save _ => true
  | _ => false

/-- The task will not read the configuration again. -/
structure Content (cfg : SyslogCfg) (s : Sender) : Prop where
  cfg : s.cfg = cfg
  get : s.pc ≠ .get
  seen : s.pc.looking = false → s.generation = s.seen

section

variable {s : Sender} {cfg : SyslogCfg} {e : SenderEvent} {io : Io}

theorem Content.task (h : Content cfg s) : Content cfg (s.task io) := by
  have hversion := versioned_task s io
  have hpc' : (s.task io).pc ≠ .get := by
    intro hget
    have hcheck := (task_window (w := false)).1 hget
    have hsame : s.generation = s.seen := h.seen (by rw [hcheck]; rfl)
    simp only [Sender.task, hcheck, hsame, ne_eq, not_true_eq_false, if_false] at hget
    exact absurd hget (by decide)
  by_cases hlook : s.pc.looking = true
  · cases hpc : s.pc with
    | look w =>
      simp only [Sender.task, hpc]
      exact ⟨h.cfg, by simp, fun _ => rfl⟩
    | _ =>
      rw [hpc] at hlook
      exact absurd hlook Bool.false_ne_true
  · have hsame := h.seen (Bool.eq_false_iff.mpr hlook)
    have hop : s.op (.task io) = none := by
      unfold Sender.op
      cases hpc : s.pc with
      | get => exact absurd hpc h.get
      | look w => exact absurd (by rw [hpc]; rfl) hlook
      | _ => rfl
    rw [hop, Option.map_none, Option.getD_none] at hversion
    refine ⟨?_, hpc', fun _ => ?_⟩
    · exact (congrArg Versioned.copy hversion).trans h.cfg
    · exact (congrArg Versioned.version hversion).trans
        (hsame.trans (congrArg Versioned.seen hversion).symm)

theorem Content.step (h : Content cfg s) (hno : e.saves = false) : Content cfg (s.step e) := by
  cases e with
  | task io => exact h.task
  | save cfg => exact absurd hno.symm Bool.false_ne_true
  | notify => exact ⟨h.cfg, h.get, h.seen⟩
  | log line => exact ⟨h.cfg, h.get, h.seen⟩
  | give | statusStored | status up io =>
    unfold Sender.step
    dsimp only
    split
    · exact h
    · exact ⟨h.cfg, h.get, h.seen⟩

/-- **A save between the two is lost.** The task has read the configuration and not yet the
    generation, and another is saved: until somebody saves again, whatever happens, it runs by the
    one that it read. -/
theorem divided_save_lost (saved : SyslogCfg) (es : List SenderEvent)
    (hpc : s.pc.looking = true) (hes : ∀ e ∈ es, e.saves = false) :
    let t := es.foldl Sender.step (s.step (.save saved))
    t.cfg = s.cfg ∧ t.pc ≠ .get := by
  have hstart : Content s.cfg (s.step (.save saved)) := by
    refine ⟨rfl, fun hget => ?_, fun hno => absurd (hpc.symm.trans hno) (by decide)⟩
    have hget' : s.pc = .get := hget
    rw [hget'] at hpc
    exact absurd hpc Bool.false_ne_true
  have hend := (Lib.along_events.mpr hes).invariant (I := Content s.cfg) hstart
    fun _ _ hI hno => hI.step hno
  exact ⟨hend.cfg, hend.get⟩

end

/-- A collector is moved while the task takes up that the sender was turned on. -/
theorem divided_save_lost_moved :
    let s := (turnOn.take 8).foldl Sender.step (.boot [66] zeroCfg)
    let saved : SyslogCfg := ⟨true, 0xA901A8C0, 514, 16, 6, [65]⟩
    let t := (SenderEvent.give :: List.replicate 20 (.task {})).foldl Sender.step
      (s.step (.save saved))
    s.pc.looking = true ∧ t.cfg = s.cfg ∧ t.cache = saved ∧ s.cfg ≠ saved := by
  have hpc : ((turnOn.take 8).foldl Sender.step (.boot [66] zeroCfg)).pc.looking = true := by decide
  have h := divided_save_lost ⟨true, 0xA901A8C0, 514, 16, 6, [65]⟩
    (SenderEvent.give :: List.replicate 20 (.task {})) hpc (by decide)
  exact ⟨hpc, h.1, by decide, by decide⟩

/-! ## The socket and the bridge -/

def Pc.storing : Pc → Bool
  | .store _ _ => true
  | _ => false

/-- The task's steps that read or write the socket's statics. -/
def Pc.usesSock : Pc → Bool
  | .bind _ | .store _ _ | .unbind | .close | .forget | .drain => true
  | _ => false

/-- The handler and the task keep out of each other's way: it does not run between the binding of a
    new socket and the store of what came of it, nor unbinds a socket that is being sent on; and the
    task leaves the socket alone where it has yet to store. -/
def Calm (s : Sender) : SenderEvent → Prop
  | .status up _ => s.pc.storing = false ∧ (up = true ∨ (s.pc ≠ .pass ∧ s.pc ≠ .pace))
  | .task _ => s.pc.usesSock = true → s.handler = none
  | _ => True

instance : ∀ s e, Decidable (Calm s e)
  | s, .status up _ =>
      inferInstanceAs
        (Decidable (s.pc.storing = false ∧ (up = true ∨ (s.pc ≠ .pass ∧ s.pc ≠ .pace))))
  | s, .task _ => inferInstanceAs (Decidable (s.pc.usesSock = true → s.handler = none))
  | _, .save _ | _, .give | _, .notify | _, .log _ | _, .statusStored => isTrue trivial

/-- What `s_bound` is worth. -/
structure Pinned (s : Sender) : Prop where
  draining : s.pc = .pass ∨ s.pc = .pace → s.sock = some true
  stored : ∀ w bound, s.pc = .store w bound → s.handler = none ∧ (bound = true → s.sock = some true)
  bound : s.bound = true →
    s.sock = some true ∨ s.handler = some false ∨ s.pc = .close ∨ s.pc = .forget
  handler : s.handler = some true → s.sock = some true

section

variable {s : Sender} {e : SenderEvent} {io : Io} {w : Bool}

theorem bindToBridge_true {sock : Option Bool} :
    (sock = some true → (bindToBridge true io sock).2 = some true) ∧
      ((bindToBridge true io sock).1 = true → (bindToBridge true io sock).2 = some true) := by
  unfold bindToBridge
  cases sock with
  | none => exact ⟨nofun, nofun⟩
  | some pinned =>
    dsimp only
    split
    · exact ⟨id, fun h => absurd h Bool.false_ne_true⟩
    · split
      · exact ⟨id, fun h => absurd h Bool.false_ne_true⟩
      · exact ⟨fun _ => rfl, fun _ => rfl⟩

theorem bindToBridge_false {sock : Option Bool} : (bindToBridge false io sock).1 = false := by
  unfold bindToBridge
  cases sock with
  | none => rfl
  | some pinned =>
    dsimp only
    split
    · rfl
    · split <;> rfl

/-- With the handler away and the task elsewhere. -/
theorem Pinned.bound_sock (h : Pinned s) (hhandler : s.handler = none) (hclose : s.pc ≠ .close)
    (hforget : s.pc ≠ .forget) (hbound : s.bound = true) : s.sock = some true := by
  rcases h.bound hbound with hsock | hhalf | hpc | hpc
  · exact hsock
  · rw [hhandler] at hhalf
    exact nomatch hhalf
  · exact absurd hpc hclose
  · exact absurd hpc hforget

/-- A step of the task that leaves the socket alone. -/
theorem Pinned.same {t : Sender} (h : Pinned s) (hsock : t.sock = s.sock)
    (hbound : t.bound = s.bound) (hhandler : t.handler = s.handler)
    (hpc : s.pc ≠ .close ∧ s.pc ≠ .forget) (hstore : t.pc.storing = false)
    (hdrain : t.pc = .pass ∨ t.pc = .pace → s.sock = some true) : Pinned t := by
  refine ⟨fun hin => hsock ▸ hdrain hin, fun w bound hpc => ?_, fun hb => ?_, fun hb => ?_⟩
  · rw [hpc] at hstore
    exact absurd hstore.symm Bool.false_ne_true
  · rw [hsock, hhandler]
    rcases h.bound (hbound ▸ hb) with hyes | hhalf | hclose | hforget
    · exact .inl hyes
    · exact .inr (.inl hhalf)
    · exact absurd hclose hpc.1
    · exact absurd hforget hpc.2
  · rw [hsock]
    exact h.handler (hhandler ▸ hb)

theorem Pinned.ended {t : Sender} (h : Pinned s) (hend : Ended s t)
    (hpc : s.pc ≠ .close ∧ s.pc ≠ .forget) : Pinned t := by
  refine h.same hend.sock hend.bound hend.handler hpc ?_ fun hin => ?_
  · rcases hend.pc with hpc' | hpc' <;> rw [hpc'] <;> rfl
  · rcases hend.pc with hpc' | hpc' <;> rw [hpc'] at hin <;> simp at hin

theorem pinned_choose (h : Pinned s) (hpc : s.pc = .choose w) : Pinned (s.task io) := by
  have hout : s.pc ≠ .close ∧ s.pc ≠ .forget := by rw [hpc]; exact ⟨by simp, by simp⟩
  rw [task_choose hpc]
  rcases choose_cases { s with dest := (s.cfg.serverIp, s.cfg.port) } w io
    with ⟨hend, -⟩ | ⟨hbind, -, hnone⟩ | hunbind
  · exact h.same hend.sock hend.bound hend.handler hout
      (by rcases hend.pc with hpc' | hpc' <;> rw [hpc'] <;> rfl)
      fun hin => by rcases hend.pc with hpc' | hpc' <;> rw [hpc'] at hin <;> simp at hin
  · have hnot : s.sock ≠ some true := by
      have hnone' : s.sock = none := hnone
      rw [hnone']
      exact nofun
    rw [hbind]
    refine ⟨by simp, by simp, fun hb => ?_, fun hb => absurd (h.handler hb) hnot⟩
    rcases h.bound hb with hyes | hhalf | hclose | hforget
    · exact absurd hyes hnot
    · exact .inr (.inl hhalf)
    · exact absurd hclose hout.1
    · exact absurd hforget hout.2
  · rw [hunbind]
    exact h.same rfl rfl rfl hout rfl (by simp)

theorem pinned_bind (h : Pinned s) (hpc : s.pc = .bind w) (hhandler : s.handler = none) :
    Pinned (s.task io) := by
  simp only [Sender.task, hpc]
  refine ⟨by simp, fun w' bound hstore => ?_, fun hb => .inl ?_, fun hb => ?_⟩
  · obtain ⟨-, rfl⟩ : w = w' ∧ _ = bound := by simpa using hstore
    exact ⟨hhandler, bindToBridge_true.2⟩
  · exact bindToBridge_true.1 (h.bound_sock hhandler (by simp [hpc]) (by simp [hpc]) hb)
  · exact absurd (hhandler.symm.trans hb) nofun

theorem pinned_drain (h : Pinned s) (hpc : s.pc = .drain) (hhandler : s.handler = none) :
    Pinned (s.task io) := by
  have hsock := h.bound_sock hhandler (by simp [hpc]) (by simp [hpc])
  have hout : s.pc ≠ .close ∧ s.pc ≠ .forget := by rw [hpc]; exact ⟨by simp, by simp⟩
  have htask : s.task io = if s.cfg.enabled ∧ s.bound ∧ s.sock.isSome then
      { s with ship := s.ship.begin, pc := .pass } else { s with pc := .settle } := by
    unfold Sender.task
    rw [hpc]
  rw [htask]
  split
  · rename_i hcond
    exact h.same rfl rfl rfl hout rfl fun _ => hsock hcond.2.1
  · exact h.same rfl rfl rfl hout rfl (by simp)

theorem pinned_pass (h : Pinned s) (hpc : s.pc = .pass) : Pinned (s.task io) := by
  have hsock := h.draining (.inl hpc)
  have hout : s.pc ≠ .close ∧ s.pc ≠ .forget := by rw [hpc]; exact ⟨by simp, by simp⟩
  have hstore : (s.task io).pc.storing = false := by
    rcases task_pass_pc hpc io with h' | h' | h' <;> rw [h'] <;> rfl
  have hsame : (s.task io).sock = s.sock ∧ (s.task io).bound = s.bound ∧
      (s.task io).handler = s.handler := by
    unfold Sender.task
    rw [hpc]
    dsimp only
    split <;> exact ⟨rfl, rfl, rfl⟩
  exact h.same hsame.1 hsame.2.1 hsame.2.2 hout hstore fun _ => hsock

theorem pinned_task (h : Pinned s) (hcalm : s.pc.usesSock = true → s.handler = none) :
    Pinned (s.task io) := by
  cases hpc : s.pc with
  | take | get | look w | settle =>
    simp only [Sender.task, hpc]
    exact h.same rfl rfl rfl (by simp [hpc]) rfl (by simp)
  | check =>
    simp only [Sender.task, hpc]
    exact h.same rfl rfl rfl (by simp [hpc]) (by split <;> rfl) (by split <;> simp)
  | choose w => exact pinned_choose h hpc
  | bind w => exact pinned_bind h hpc (hcalm (by rw [hpc]; rfl))
  | store w bound =>
    obtain ⟨hhandler, hsock⟩ := h.stored w bound hpc
    rw [task_store hpc]
    have hset : Pinned { s with bound } := by
      refine ⟨h.draining, h.stored, fun hb => .inl (hsock hb), h.handler⟩
    exact hset.ended opened_ended (by simp [hpc])
  | unbind =>
    have hhandler := hcalm (by rw [hpc]; rfl)
    simp only [Sender.task, hpc]
    exact ⟨by simp, by simp, fun _ => .inr (.inr (.inl rfl)),
      fun hb => absurd (hhandler.symm.trans hb) nofun⟩
  | close =>
    have hhandler := hcalm (by rw [hpc]; rfl)
    simp only [Sender.task, hpc]
    exact ⟨by simp, by simp, fun _ => .inr (.inr (.inr rfl)),
      fun hb => absurd (hhandler.symm.trans hb) nofun⟩
  | forget =>
    have hhandler := hcalm (by rw [hpc]; rfl)
    rw [task_forget hpc]
    have hend : Ended { s with bound := false } _ := reloaded_ended
    refine ⟨fun hin => ?_, fun w bound hstore => ?_, fun hb => ?_, fun hb => ?_⟩
    · rcases hend.pc with hpc' | hpc' <;> rw [hpc'] at hin <;> simp at hin
    · rcases hend.pc with hpc' | hpc' <;> rw [hpc'] at hstore <;> exact nomatch hstore
    · exact absurd (hend.bound.symm.trans hb) Bool.false_ne_true
    · exact absurd (hhandler.symm.trans (hend.handler.symm.trans hb)) nofun
  | drain => exact pinned_drain h hpc (hcalm (by rw [hpc]; rfl))
  | pass => exact pinned_pass h hpc
  | pace =>
    have hsock := h.draining (.inr hpc)
    simp only [Sender.task, hpc]
    exact h.same rfl rfl rfl (by simp [hpc]) rfl fun _ => hsock

theorem pinned_status {up : Bool} (h : Pinned s) (hcalm : Calm s (.status up io)) :
    Pinned (s.step (.status up io)) := by
  obtain ⟨hstore, hdown⟩ := hcalm
  unfold Sender.step
  dsimp only
  split
  · exact h
  · refine ⟨fun hin => ?_, fun w bound hpc => ?_, fun hb => ?_, fun hb => ?_⟩
    · have hup : up = true := hdown.resolve_right fun hnot => hin.elim hnot.1 hnot.2
      rw [hup]
      exact bindToBridge_true.1 (h.draining hin)
    · have hpc' : s.pc = .store w bound := hpc
      rw [hpc'] at hstore
      exact absurd hstore.symm Bool.false_ne_true
    · cases hres : (bindToBridge up io s.sock).1 with
      | false => exact .inr (.inl rfl)
      | true =>
        refine .inl ?_
        cases up with
        | false => exact absurd (bindToBridge_false.symm.trans hres) Bool.false_ne_true
        | true => exact bindToBridge_true.2 hres
    · have hres : (bindToBridge up io s.sock).1 = true := Option.some.inj hb
      cases up with
      | false => exact absurd (bindToBridge_false.symm.trans hres) Bool.false_ne_true
      | true => exact bindToBridge_true.2 hres

theorem pinned_step (h : Pinned s) (hcalm : Calm s e) : Pinned (s.step e) := by
  cases e with
  | task io => exact pinned_task h hcalm
  | status up io => exact pinned_status h hcalm
  | save cfg => exact ⟨h.draining, h.stored, h.bound, h.handler⟩
  | notify => exact ⟨h.draining, h.stored, h.bound, h.handler⟩
  | log line => exact ⟨h.draining, h.stored, h.bound, h.handler⟩
  | give =>
    unfold Sender.step
    dsimp only
    split
    · exact h
    · exact ⟨h.draining, h.stored, h.bound, h.handler⟩
  | statusStored =>
    unfold Sender.step
    cases hhandler : s.handler with
    | none => exact h
    | some bound =>
      refine ⟨h.draining, fun w b hpc => ⟨rfl, (h.stored w b hpc).2⟩, fun hb => .inl ?_, nofun⟩
      have hb' : bound = true := hb
      exact h.handler (by rw [hhandler, hb'])

/-- **What is sent goes to the collector by the bridge**, if the handler and the task keep out of
    each other's way: each datagram leaves by a socket that is bound to the bridge, and for the
    address of a configuration that says to ship. -/
theorem sends_pinned (name : List UInt8) (cache : SyslogCfg) (es : List SenderEvent)
    (hes : Along Sender.step Calm (.boot name cache) es) :
    Along Sender.step (fun s e => s.sends e = true →
      s.sock = some true ∧ s.cfg.Ships ∧ s.dest = (s.cfg.serverIp, s.cfg.port))
      (.boot name cache) es := by
  have hstart : Pinned (.boot name cache) ∧ Tuned (.boot name cache) :=
    ⟨⟨fun h => h.elim (fun h => (nomatch h)) fun h => (nomatch h), nofun, nofun, nofun⟩,
      (boot_following name cache).tuned⟩
  refine hes.of_invariant (I := fun s => Pinned s ∧ Tuned s) hstart fun s e hI hcalm =>
    ⟨fun hsends => ?_, pinned_step hI.1 hcalm, tuned_step hI.2 e⟩
  have hpc : s.pc = .pass := by
    cases e with
    | task io => exact eq_of_beq (Bool.and_eq_true_iff.mp hsends).1
    | _ => exact absurd hsends Bool.false_ne_true
  have hsock := hI.1.draining (.inl hpc)
  refine ⟨hsock, hI.2.sock (by rw [hpc]; rfl) (by rw [hpc]; rfl) (by rw [hsock]; rfl), ?_⟩
  exact hI.2.dest (by rw [hpc]; rfl)

end

/-- A line, and a sender that is turned on and about to ship it. -/
def firstLine : List SenderEvent :=
  .log { level := 'I', msg := [72, 105] } :: turnOn.take 13

theorem sends_pinned_firstLine :
    let s := firstLine.foldl Sender.step (.boot [66] zeroCfg)
    s.sends (.task {}) = true ∧ s.sock = some true ∧ s.cfg.Ships ∧
      s.dest = (s.cfg.serverIp, s.cfg.port) := by
  have hcalm : Along Sender.step Calm (.boot [66] zeroCfg) (firstLine ++ [.task {}]) := by decide
  have h := (Lib.along_append.mp (sends_pinned [66] zeroCfg _ hcalm)).2.1
  have hsends : (firstLine.foldl Sender.step (.boot [66] zeroCfg)).sends (.task {}) = true := by
    decide
  exact ⟨hsends, h hsends⟩

/-- The bridge goes down under a drain, which does not look: the line leaves by a socket that is
    bound to nothing. -/
theorem sends_pinned_fails :
    ¬ ∀ (name : List UInt8) (cache : SyslogCfg) (es : List SenderEvent),
      Along Sender.step (fun s e => s.sends e = true → s.sock = some true) (.boot name cache) es :=
  fun h => absurd (h [66] zeroCfg (firstLine ++ [.status false {}, .task {}])) (by decide)

end Logs
end Wt32Router
