import Wt32Router.Dhcp.Confirmed

/-!
# Forgetting, by generations

A reservation is dropped at load when the boots since its client was last heard from exceed
`FORGET_AFTER_BOOTS`. Both ends of that are stamps: the generation of the boot, which
advances when flash was written, and the one in the record, which is the generation the
client was last heard from in.

> **`Attendance.forgotten_was_absent`**: a record that is dropped for its age is of a client
> that was heard from in none of the last five boots that wrote the table, if in each of
> those that did hear from it the last write came after.

The stamp in RAM is always right. The one in flash is as old as the last *save*, and being
heard from does not bring one about: a renewal after the boot's last save is lost with the
boot, and a RELEASE before it takes the stamp back a generation.

Which boots a client was heard from in, and which of them wrote that down, is followed by a
monitor, `Attendance`. Generations are 32-bit and may wrap; the invariant compares them as
numbers, and a generation that wrapped to 0 is behind everything.
-/

namespace Wt32Router
namespace Dhcp

/-- What is remembered of a boot that wrote the table. -/
structure BootRecord where
  /-- who it heard from -/
  heard : List Mac
  /-- who it had heard from, with no RELEASE since, when it last wrote the table -/
  stored : List Mac

structure Attendance where
  /-- heard from in this boot -/
  heard : List Mac
  /-- heard from in this boot, and not released since -/
  fresh : List Mac
  /-- `fresh` as of this boot's last write of the table, if it has made one -/
  stored : Option (List Mac)
  /-- the earlier boots that wrote the table, the latest first -/
  past : List BootRecord

def Attendance.start : Attendance := ⟨[], [], none, []⟩

/-- The clients a step hears from: those told they may use an address, and one noted on an
    address that `dhcp_server_note_observed_ip` records. -/
def System.hears (s : System) : Event → List Mac
  | .recv env m len => (s.acks (.recv env m len)).map Prod.fst
  | .noteObserved _ mac ip => if notable s.srv.cfg ip then [mac] else []
  | _ => []

def Event.releases (e : Event) : List Mac :=
  match e.request? with
  | some q => if q.type = dhcpRelease then [q.mac] else []
  | none => []

/-- The boots that wrote the table, if this one ended now. -/
def Attendance.closed (a : Attendance) : List BootRecord :=
  match a.stored with
  | some stored => ⟨a.heard, stored⟩ :: a.past
  | none => a.past

def Attendance.next (s : System) (e : Event) (a : Attendance) : Attendance :=
  if e.isReboot then ⟨[], [], none, a.closed⟩
  else
    { heard := s.hears e ++ a.heard
      fresh := s.hears e ++ a.fresh.filter fun mac => !e.releases.contains mac
      stored := if (s.written e).isSome then some a.fresh else a.stored
      past := a.past }

abbrev Attendance.step : System × Attendance → Event → System × Attendance :=
  Lib.watch System.step Attendance.next

/-- A generation is at most as many boots ahead of a stamp as the client has been away: the
    client is in the `k`-th list only if the stamp is no more than `k` behind. -/
def Stamped (gen : BitVec 32) (seen : BitVec 32) (mac : Mac) (boots : List (List Mac)) : Prop :=
  ∀ k heard, boots[k]? = some heard → mac ∈ heard → gen.toNat ≤ seen.toNat + k

structure Attendance.Sound (s : System) (a : Attendance) : Prop where
  inv : s.Inv
  table : ∀ i, s.srv.live i →
    Stamped s.srv.bootSeq (s.srv.leases i).lastSeenSeq (s.srv.leases i).mac
      (a.fresh :: a.past.map BootRecord.stored)
  flash : ∀ hdr recs, s.flash.bind parseBlob = some (hdr, recs) → ∀ t ∈ recs,
    Stamped hdr.bootSeq t.lastSeenSeq t.mac (a.closed.map BootRecord.stored)
  wrote : s.flash ≠ none → a.closed ≠ []

section

variable {st st' : Server} {env : Env} {m : DhcpMsg} {q : Request} {len : Nat}
  {outs : List Out} {mac : Mac} {ip : Ip} {now : Nat} {i j : Slot} {s : System} {e : Event}
  {a : Attendance} {gen seen : BitVec 32} {boots : List (List Mac)} {heard fresh : List Mac}
  {t : StoredLease}

/-! ## Stamps -/

theorem Stamped.of_le (h : gen.toNat ≤ seen.toNat) : Stamped gen seen mac boots :=
  fun k _ _ _ => Nat.le_trans h (Nat.le_add_right _ k)

theorem stamped_cons : Stamped gen seen mac (heard :: boots) ↔
    (mac ∈ heard → gen.toNat ≤ seen.toNat) ∧
      ∀ k h, boots[k]? = some h → mac ∈ h → gen.toNat ≤ seen.toNat + (k + 1) := by
  constructor
  · intro h
    exact ⟨fun hm => h 0 heard rfl hm, fun k l hl hm => h (k + 1) l hl hm⟩
  · rintro ⟨h0, hs⟩ k l hl hm
    cases k with
    | zero =>
      simp only [List.getElem?_cons_zero, Option.some.injEq] at hl
      exact h0 (hl ▸ hm)
    | succ k => exact hs k l hl hm

theorem Stamped.mono (h : Stamped gen seen mac (heard :: boots))
    (hsub : mac ∈ fresh → mac ∈ heard) :
    Stamped gen seen mac (fresh :: boots) := by
  obtain ⟨h0, hs⟩ := stamped_cons.mp h
  exact stamped_cons.mpr ⟨fun hm => h0 (hsub hm), hs⟩

theorem Stamped.next (h : Stamped gen seen mac boots) :
    Stamped (gen + 1) seen mac ([] :: boots) := by
  refine stamped_cons.mpr ⟨fun hm => absurd hm (by simp), fun k l hl hm => ?_⟩
  have hk := h k l hl hm
  have hle : (gen + 1).toNat ≤ gen.toNat + 1 := Lib.toNat_succ_le
  omega

/-- **A record that is forgotten is of a client that was away**: the five latest boots did
    not hear from it. -/
theorem Stamped.forgets {version : Nat} (h : Stamped gen t.lastSeenSeq t.mac boots)
    (hf : forgets (gen + 1) version t = true) {k : Nat} (hk : k < forgetAfterBoots)
    (hl : boots[k]? = some heard) : t.mac ∉ heard := by
  intro hm
  have hle := h k heard hl hm
  have hnext : (gen + 1).toNat ≤ gen.toNat + 1 := Lib.toNat_succ_le
  rw [Dhcp.forgets, Bool.and_eq_true, decide_eq_true_eq, decide_eq_true_eq] at hf
  have hage := hf.2
  unfold forgetAfterBoots at hk hage
  unfold recordAge at hage
  split at hage
  · rename_i hlt
    rw [BitVec.toNat_sub_of_le (BitVec.le_of_lt hlt)] at hage
    omega
  · exact absurd hage (by simp)

/-! ## What a message does to the stamps -/

/-- The stamp of an entry in use after a message: this boot's; or what it was, and the
    client was not told of an address; or one less than this boot's, and the client has
    released. -/
theorem Handled.stamps (h : TableInv st) (hq : readRequest m len = some q)
    (hh : Handled st env m q st' outs) (hj : st'.live j) :
    (st'.leases j).lastSeenSeq = st.bootSeq ∨
    (st.live j ∧ (st'.leases j).mac = (st.leases j).mac ∧
      (((st'.leases j).lastSeenSeq = (st.leases j).lastSeenSeq ∧
        (st'.leases j).mac ∉ (outs.filterMap Out.assigned?).map Prod.fst) ∨
      (q.type = dhcpRelease ∧ (st'.leases j).mac = q.mac ∧ outs.filterMap Out.assigned? = [] ∧
        st.bootSeq.toNat ≤ (st'.leases j).lastSeenSeq.toNat + 1))) := by
  cases hh.touched hq hj with
  | kept hlive hsame hacks _ =>
    rw [hsame]
    refine .inr ⟨hlive, rfl, .inl ⟨rfl, fun hm => ?_⟩⟩
    obtain ⟨p, hp, hpm⟩ := List.mem_map.mp hm
    exact hacks p hp hpm
  | offered hs h0 heq hm _ _ =>
    subst heq
    exact .inl ((commit_own_seen (h.select hs) hj hm h0).trans (select_bootSeq hs))
  | acked hs h0 heq hm _ =>
    subst heq
    exact .inl ((commit_own_seen (h.select hs) hj hm h0).trans (select_bootSeq hs))
  | released ht hlive hm heq hacks _ =>
    rw [heq]
    refine .inr ⟨hlive, rfl, .inr ⟨ht, hm, hacks, ?_⟩⟩
    dsimp only
    split
    · bv_omega
    · -- the first generation there is
      bv_omega

/-! ## What a step does to them -/

theorem Attendance.next_closed (hb : e.isReboot = false) (hw : s.written e = none) :
    (Attendance.next s e a).closed.map BootRecord.stored = a.closed.map BootRecord.stored := by
  unfold Attendance.next Attendance.closed
  rw [hb, hw]
  simp only [Bool.false_eq_true, if_false, Option.isSome_none]
  cases a.stored <;> rfl

theorem Attendance.next_closed_nil (hb : e.isReboot = false) (hw : s.written e = none)
    (hn : a.closed ≠ []) : (Attendance.next s e a).closed ≠ [] := by
  intro hnil
  have hmap := Attendance.next_closed (a := a) hb hw
  rw [hnil, List.map_nil] at hmap
  exact hn (List.map_eq_nil_iff.mp hmap.symm)

theorem Attendance.next_fresh (hb : e.isReboot = false) :
    (Attendance.next s e a).fresh =
      s.hears e ++ a.fresh.filter fun mac => !e.releases.contains mac := by
  unfold Attendance.next
  rw [hb]
  rfl

theorem Attendance.next_past (hb : e.isReboot = false) :
    (Attendance.next s e a).past = a.past := by
  unfold Attendance.next
  rw [hb]
  rfl

/-- A client that is in the list after a step and was not heard from in it was in it. -/
theorem Attendance.fresh_of_next (hb : e.isReboot = false)
    (hm : mac ∈ (Attendance.next s e a).fresh) (hh : mac ∉ s.hears e) : mac ∈ a.fresh := by
  rw [Attendance.next_fresh hb] at hm
  rcases List.mem_append.mp hm with hm | hm
  · exact absurd hm hh
  · exact (List.mem_filter.mp hm).1

/-- A step that writes nothing keeps the stamps sound if it does of each entry. -/
theorem Attendance.Sound.of_entries (h : Attendance.Sound s a) (hb : e.isReboot = false)
    (hw : s.written e = none) (hflash : (s.step e).flash = s.flash)
    (hent : ∀ i, (s.step e).srv.live i →
      Stamped (s.step e).srv.bootSeq ((s.step e).srv.leases i).lastSeenSeq
        ((s.step e).srv.leases i).mac
        ((Attendance.next s e a).fresh :: a.past.map BootRecord.stored)) :
    Attendance.Sound (s.step e) (Attendance.next s e a) where
  inv := h.inv.step
  table i hi := by
    rw [Attendance.next_past hb]
    exact hent i hi
  flash hdr recs hp t ht := by
    rw [Attendance.next_closed hb hw]
    exact h.flash hdr recs (hflash ▸ hp) t ht
  wrote hf := Attendance.next_closed_nil hb hw (h.wrote (hflash ▸ hf))

theorem Attendance.Sound.unheard (h : Attendance.Sound s a) (hb : e.isReboot = false)
    (hj : s.srv.live j) (hh : (s.srv.leases j).mac ∉ s.hears e) :
    Stamped s.srv.bootSeq (s.srv.leases j).lastSeenSeq (s.srv.leases j).mac
      ((Attendance.next s e a).fresh :: a.past.map BootRecord.stored) :=
  (h.table j hj).mono fun hm => Attendance.fresh_of_next hb hm hh

theorem Attendance.Sound.handled (h : Attendance.Sound s a) (he : e = .recv env m len)
    (hq : readRequest m len = some q)
    (hh : Handled s.srv env m q (s.step e).srv (s.outs e)) :
    Attendance.Sound (s.step e) (Attendance.next s e a) := by
  have hhears : s.hears e = ((s.outs e).filterMap Out.assigned?).map Prod.fst := by
    rw [he]; simp [System.hears, System.acks]
  have hrel : e.releases = if q.type = dhcpRelease then [q.mac] else [] := by
    rw [he]; simp [Event.releases, Event.request?, hq]
  have hboot : e.isReboot = false := by rw [he]; rfl
  refine h.of_entries hboot (by rw [he]; rfl) (by rw [he]; rfl) fun j hj => ?_
  rw [hh.bootSeq_eq]
  rcases hh.stamps h.inv.table hq hj with hnow | ⟨hlive, hmac, ⟨hseen, hno⟩ | ⟨ht, hown, ho, hle⟩⟩
  · exact .of_le (by rw [hnow])
  · rw [hmac] at hno
    rw [hseen, hmac]
    exact h.unheard hboot hlive (hhears ▸ hno)
  · -- a RELEASE: a generation behind, and no longer counted as heard from in this one
    refine stamped_cons.mpr ⟨fun hm => ?_, fun k _ _ _ => by omega⟩
    rw [Attendance.next_fresh hboot, hhears, ho, hrel, if_pos ht, hown] at hm
    simp at hm

theorem Attendance.Sound.noted (h : Attendance.Sound s a) {ip : Ip} :
    Attendance.Sound (s.step (.noteObserved now mac ip))
      (Attendance.next s (.noteObserved now mac ip) a) := by
  refine h.of_entries rfl rfl rfl fun j hj => ?_
  have hsrv : (s.step (.noteObserved now mac ip)).srv = noteObservedIp s.srv mac ip now := rfl
  have hhears : ∀ {mac'}, (notable s.srv.cfg ip = true → mac' ≠ mac) →
      mac' ∉ s.hears (.noteObserved now mac ip) := by
    intro mac' hne hm
    simp only [System.hears] at hm
    split at hm
    · rename_i hn
      exact hne hn (List.mem_singleton.mp hm)
    · exact absurd hm (by simp)
  rw [hsrv] at hj ⊢
  rw [noteObservedIp_bootSeq]
  rcases noteObservedIp_origin h.inv.table.mac hj with ⟨hlive, heq, hne⟩ | ⟨l, -, heq⟩
  · rw [heq]
    exact h.unheard rfl hlive (hhears hne)
  · rw [heq]
    exact .of_le (Nat.le_refl _)

theorem Attendance.Sound.polled (h : Attendance.Sound s a) {nvs : NvsResult} :
    Attendance.Sound (s.step (.poll now nvs)) (Attendance.next s (.poll now nvs) a) := by
  have hhears : s.hears (.poll now nvs) = [] := rfl
  have hrel : (Event.poll now nvs).releases = [] := rfl
  have hfresh : (Attendance.next s (.poll now nvs) a).fresh = a.fresh := by
    rw [Attendance.next_fresh rfl, hhears, hrel]
    simp
  have htable : ∀ i, (s.step (.poll now nvs)).srv.live i →
      Stamped (s.step (.poll now nvs)).srv.bootSeq
        ((s.step (.poll now nvs)).srv.leases i).lastSeenSeq
        ((s.step (.poll now nvs)).srv.leases i).mac
        ((Attendance.next s (.poll now nvs) a).fresh :: a.past.map BootRecord.stored) := by
    intro i hi
    rw [hfresh]
    rw [System.step_poll_srv] at hi ⊢
    split at hi
    · rename_i hsave
      obtain ⟨huse, hmac, -, -, -, hseen, -⟩ := markSaved_fields s.srv i
      rw [Server.live, huse] at hi
      rw [if_pos hsave, hmac, hseen, markSaved_bootSeq]
      exact h.table i hi
    · rename_i hsave
      rw [if_neg hsave]
      exact h.table i hi
  cases hw : s.written (.poll now nvs) with
  | none =>
    refine h.of_entries rfl hw ?_ htable
    rw [System.step_poll_flash, hw, Option.none_or]
  | some blob =>
    have hclosed : (Attendance.next s (.poll now nvs) a).closed =
        ⟨a.heard, a.fresh⟩ :: a.past := by
      unfold Attendance.next Attendance.closed
      rw [hw]
      simp [Event.isReboot, hhears]
    refine ⟨h.inv.step, fun i hi => ?_, fun hdr recs hp t ht => ?_, fun _ => ?_⟩
    · rw [Attendance.next_past rfl]
      exact htable i hi
    · rw [System.step_poll_flash, hw, Option.some_or, System.written_eq hw] at hp
      obtain ⟨hseq, i, hi, rfl⟩ := parseBlob_saveBlob_mem hp ht
      rw [hclosed, hseq]
      exact h.table i hi
    · rw [hclosed]
      simp

theorem Attendance.Sound.boot (h : Attendance.Sound s a) {cfg : Config} :
    Attendance.Sound (s.step (.reboot now cfg)) (Attendance.next s (.reboot now cfg) a) := by
  have hsrv : (s.step (.reboot now cfg)).srv = bootServer cfg s.flash now := rfl
  refine ⟨h.inv.step, fun i hi => ?_, fun hdr recs hp t ht => h.flash hdr recs hp t ht, h.wrote⟩
  rw [hsrv] at hi ⊢
  obtain ⟨hdr, recs, t, hp, -, ht, hl⟩ := bootServer_live hi
  rw [hl, bootServer_some hp, loadRecords_bootSeq]
  exact (h.flash hdr recs hp t ht).next

theorem Attendance.Sound.step (h : Attendance.Sound s a) (e : Event) :
    Attendance.Sound (s.step e) (Attendance.next s e a) := by
  cases e with
  | recv env m len =>
    rcases s.recv_cases env m len with ⟨hsrv, houts⟩ | ⟨q, hq, hh⟩
    · refine h.of_entries rfl rfl rfl fun j hj => ?_
      rw [hsrv] at hj ⊢
      refine h.unheard rfl hj ?_
      simp [System.hears, System.acks, houts]
    · exact h.handled rfl hq hh
  | noteObserved now mac ip => exact h.noted
  | setQuarantined now macs =>
    refine h.of_entries rfl rfl rfl fun j hj => ?_
    have hsrv : (s.step (.setQuarantined now macs)).srv = setQuarantined s.srv macs now := rfl
    rw [hsrv, Server.live, setQuarantined_leases] at hj
    rw [hsrv, setQuarantined_leases, setQuarantined_bootSeq]
    exact h.unheard rfl hj (by simp [System.hears])
  | poll now nvs => exact h.polled
  | reboot now cfg => exact h.boot

/-! ## Who is forgotten -/

/-- The last boots that wrote the table, as many as `FORGET_AFTER_BOOTS`. -/
def Attendance.recent (a : Attendance) : List BootRecord := a.closed.take forgetAfterBoots

/-- Of the recent boots, each that heard from the client wrote the table after that. -/
def Attendance.Kept (a : Attendance) (mac : Mac) : Prop :=
  ∀ b ∈ a.recent, mac ∈ b.heard → mac ∈ b.stored

/-- Every record the next boot forgets, of those that `P` holds of, is of a client none of
    the recent boots heard from; and there are such boots. -/
def Attendance.ForgetsAbsent (s : System) (a : Attendance) (P : Mac → Prop) : Prop :=
  ∀ hdr recs, s.flash.bind parseBlob = some (hdr, recs) → ∀ t ∈ recs,
    forgets (hdr.bootSeq + 1) hdr.version t = true → P t.mac →
      a.recent ≠ [] ∧ ∀ b ∈ a.recent, t.mac ∉ b.heard

theorem Attendance.Sound.forgotten (h : Attendance.Sound s a) :
    Attendance.ForgetsAbsent s a a.Kept := by
  intro hdr recs hp t ht hf hk
  refine ⟨?_, fun b hb hheard => ?_⟩
  · have hflash : s.flash ≠ none := by
      intro hnone
      rw [hnone] at hp
      exact absurd hp (by simp)
    obtain ⟨b, bs, hc⟩ := List.exists_cons_of_ne_nil (h.wrote hflash)
    simp [Attendance.recent, hc, forgetAfterBoots]
  · have hstored := hk b hb hheard
    obtain ⟨k, hk, hbk⟩ := List.getElem_of_mem hb
    unfold Attendance.recent at hk hbk
    rw [List.getElem_take] at hbk
    rw [List.length_take] at hk
    refine (h.flash hdr recs hp t ht).forgets hf (k := k) (by omega) ?_ hstored
    rw [List.getElem?_map, List.getElem?_eq_getElem (by omega), hbk]
    rfl

theorem Attendance.Sound.start (cfg : Config) (now : Nat) :
    Attendance.Sound (powerOn cfg none now) Attendance.start := by
  refine ⟨(System.Reachable.switchedOn cfg now).inv, fun i hi => ?_, fun _ _ hp => ?_,
    fun hf => absurd rfl hf⟩
  · exact absurd hi powerOn_not_live
  · exact absurd hp (by simp [powerOn])

/-- **Forgetting counts missed boots only**: in any run over any number of boots, a boot
    forgets the record of no client that one of the last five boots to write the table
    heard from, if each of the five that heard from it wrote the table after that. -/
theorem Attendance.forgotten_was_absent {cfg : Config} {es : List Event}
    (hrun : Lib.Along Attendance.step (fun p e => p.1.ok e)
      (powerOn cfg none now, Attendance.start) es) :
    Lib.Along Attendance.step
      (fun p e => e.isReboot = true → Attendance.ForgetsAbsent p.1 p.2 p.2.Kept)
      (powerOn cfg none now, Attendance.start) es :=
  hrun.of_invariant (I := fun p => Attendance.Sound p.1 p.2) (.start cfg now)
    fun _ e h _ => ⟨fun _ => h.forgotten, h.step e⟩

/-- A boot that tells a new client its address and writes that down, and goes on with some
    more before the power fails. -/
def bootOf (client : Mac) (host : Nat) (more : List Event) : List Event :=
  .sends 10 false dhcpRequest client (ip4 192 168 5 host) :: .poll 20000000 .ok ::
    (more ++ [.reboot 0 shipped])

/-- A client that is not there for five boots of others. -/
def sixBoots (more : List Event) : List Event :=
  bootOf 1 10 [] ++ bootOf 2 20 more ++ bootOf 3 30 more ++ bootOf 4 40 more ++
    bootOf 5 50 more ++ bootOf 6 60 more

theorem forgotten_was_absent_away :
    Lib.Along Attendance.step
      (fun p e => e.isReboot = true → Attendance.ForgetsAbsent p.1 p.2 p.2.Kept)
      (powerOn shipped none 0, Attendance.start) (sixBoots []) :=
  Attendance.forgotten_was_absent (by decide +kernel)

/-- The client renewing its lease, in a boot that has written the table. -/
def renewal : Event := .sends 30000000 false dhcpRequest 1 (ip4 192 168 5 10)

/-- A client that renews in each of six boots, after each has written the table for another,
    is forgotten. -/
theorem forgotten_not_absent : ¬ ∀ (cfg : Config) (now : Nat) (es : List Event),
    Lib.Along Attendance.step (fun p e => p.1.ok e) (powerOn cfg none now, Attendance.start) es →
      Lib.Along Attendance.step
        (fun p e => e.isReboot = true → Attendance.ForgetsAbsent p.1 p.2 fun _ => True)
        (powerOn cfg none now, Attendance.start) es := by
  intro hall
  have hrun := hall shipped 0 (sixBoots [renewal]) (by decide +kernel)
  let es := (sixBoots [renewal]).dropLast
  let p := es.foldl Attendance.step (powerOn shipped none 0, Attendance.start)
  have hsplit : sixBoots [renewal] = es ++ [.reboot 0 shipped] := by rfl
  rw [hsplit] at hrun
  have hlast := (Lib.along_append.mp hrun).2.1 rfl
  have hflash : p.1.flash.bind parseBlob =
      some (⟨storeMagic, storeVersion, 6, 6⟩, flashRecords p.1.flash) := by decide +kernel
  have hmem : (⟨1, ip4 192 168 5 10, 0, 1⟩ : StoredLease) ∈ flashRecords p.1.flash := by
    decide +kernel
  have habsent := (hlast _ _ hflash _ hmem (by decide) trivial).2
  have hheard : ∃ b ∈ p.2.recent, (1 : Mac) ∈ b.heard := by decide +kernel
  obtain ⟨b, hb, hm⟩ := hheard
  exact habsent b hb hm

end

end Dhcp
end Wt32Router
