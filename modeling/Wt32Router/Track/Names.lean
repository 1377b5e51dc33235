import Wt32Router.Track.Bridge
import Wt32Router.Track.Entries

/-!
# Where a client's name comes from

A name passes through three hands. The server takes it out of a request (`copy_hostname`) and, if
it acknowledges the request, posts it with the address as an event; the event waits in the queue of
the event loop, or is lost if that is full; and `on_client_ip_assigned` takes it out again, when
anything may have happened since, and copies what fits of it into the client's entry. Entries come
and go on their own.

> **`run_named`**: in every state of every run, a client's name is the front of one that this client
> itself has asked for an address under, since the device started, with nothing in it but letters,
> digits, dots, dashes and underscores.

What is posted and not yet delivered has to be part of the invariant (`Named`).
-/

namespace Wt32Router
namespace Track

open Dhcp (DhcpMsg Ip Mac Request copyHostname dhcpRequest handleMessage readRequest)

/-- What `post_assigned_event` puts into the event. -/
structure Posting where
  mac : Mac
  ip : Ip
  hostname : List UInt8
deriving DecidableEq

def postAssignedEvent : Dhcp.Out → Option Posting
  | .assigned mac ip hostname => some ⟨mac, ip, hostname⟩
  | .reply _ => none

/-- The bridge, and the events that have been posted to it and not yet delivered. -/
structure Router where
  bridge : Bridge
  queue : List Posting

inductive RouterEvent where
  | account (now : Nat) (ev : TrafficEvent)
  | sweep (now : Nat)
  | resolve (now : Nat) (answers : List (Mac × Ip)) (stas : List (Mac × Int))
  /-- anything that happens to the server, while the event loop's queue is full or is not -/
  | server (e : Dhcp.Event) (full : Bool)
  /-- the event loop delivers the oldest event -/
  | deliver (now : Nat)
  /-- such an event of another netif -/
  | elsewhere (now : Nat) (mac : Mac) (ip : Ip) (hostname : List UInt8)

/-- A device that has started, with this much in flash. -/
def Router.powerOn (cfg : Dhcp.Config) (flash : Option (List UInt8)) (now : Nat) : Router :=
  ⟨⟨.empty, Dhcp.powerOn cfg flash now⟩, []⟩

def Router.step (r : Router) : RouterEvent → Router
  | .account now ev => { r with bridge := r.bridge.step (.account now ev) }
  | .sweep now => { r with bridge := r.bridge.step (.sweep now) }
  | .resolve now answers stas => { r with bridge := r.bridge.step (.resolve now answers stas) }
  | .server (.reboot now cfg) _ => .powerOn cfg r.bridge.dhcp.flash now
  | .server e full =>
    { bridge := r.bridge.step (.server e)
      queue := if full then r.queue
        else r.queue ++ (r.bridge.dhcp.outs e).filterMap postAssignedEvent }
  | .deliver now =>
    match r.queue with
    | [] => r
    | p :: queue => ⟨r.bridge.step (.assigned now true p.mac p.ip p.hostname), queue⟩
  | .elsewhere now mac ip hostname =>
    { r with bridge := r.bridge.step (.assigned now false mac ip hostname) }

/-- What `copy_hostname` leaves as it is. -/
def isHostChar (c : UInt8) : Bool :=
  (97 ≤ c && c ≤ 122) || (65 ≤ c && c ≤ 90) || (48 ≤ c && c ≤ 57) || c == 46 || c == 45 || c == 95

/-- Among these events the client has asked for an address under this name. -/
def Asked (es : List RouterEvent) (mac : Mac) (hostname : List UInt8) : Prop :=
  ∃ env m len full q, .server (.recv env m len) full ∈ es ∧ readRequest m len = some q ∧
    q.type = dhcpRequest ∧ q.mac = mac ∧ q.hostname = hostname

/-- The name of an entry in use, if it has one, is the front of one that its client has asked
    under. -/
def TableNamed (es : List RouterEvent) (t : ClientTable) : Prop :=
  ∀ i, (t.clients i).active = true → (t.clients i).name = [] ∨
    ∃ hostname, Asked es (t.clients i).mac hostname ∧
      (t.clients i).name = hostname.take (nameMaxLen - 1)

/-- And so is each name on its way. -/
structure Named (es : List RouterEvent) (r : Router) : Prop where
  table : TableNamed es r.bridge.table
  queue : ∀ p ∈ r.queue, Asked es p.mac p.hostname

section

variable {t t' t'' : ClientTable} {mac : Mac} {ip : Ip} {now : Nat} {i : ClientSlot} {e : Client}
  {es fs : List RouterEvent} {r : Router} {hostname : List UInt8}

/-! ## What is asked under -/

theorem Asked.mono (h : Asked es mac hostname) (hsub : es ⊆ fs) : Asked fs mac hostname := by
  obtain ⟨env, m, len, full, q, hmem, hq⟩ := h
  exact ⟨env, m, len, full, q, hsub hmem, hq⟩

theorem copyHostname_chars (m : DhcpMsg) (off len : Nat) :
    ∀ c ∈ copyHostname m off len, isHostChar c = true := by
  unfold copyHostname
  refine List.forall_mem_map.mpr fun i _ => ?_
  dsimp only
  split
  · rename_i hchar
    simpa [isHostChar, or_assoc] using hchar
  · decide

theorem readRequest_chars {m : DhcpMsg} {len : Nat} {q : Request}
    (h : readRequest m len = some q) : ∀ c ∈ q.hostname, isHostChar c = true := by
  unfold readRequest at h
  split_ifs at h
  dsimp only at h
  split at h
  · exact absurd h (by simp)
  · split_ifs at h
    simp only [Option.some.injEq] at h
    rw [← h]
    dsimp only
    split
    · split
      · exact copyHostname_chars _ _ _
      · exact List.forall_mem_nil _
    · exact List.forall_mem_nil _

theorem Asked.chars (h : Asked es mac hostname) : ∀ c ∈ hostname, isHostChar c = true := by
  obtain ⟨-, m, len, -, q, -, hq, -, -, rfl⟩ := h
  exact readRequest_chars hq

/-- What the server posts it has been asked under. -/
theorem posted_asked {s : Dhcp.System} {ev : Dhcp.Event} {full : Bool} {p : Posting}
    (h : p ∈ (s.outs ev).filterMap postAssignedEvent) (hmem : .server ev full ∈ es) :
    Asked es p.mac p.hostname := by
  obtain ⟨o, ho, hp⟩ := List.mem_filterMap.mp h
  cases ev with
  | recv env m len =>
    rcases s.recv_cases env m len with ⟨-, hnone⟩ | ⟨q, hq, hh⟩
    · rw [hnone] at ho
      exact absurd ho List.not_mem_nil
    · generalize s.outs (.recv env m len) = outs at ho hh
      generalize (s.step (.recv env m len)).srv = st' at hh
      cases hh with
      | ignored hall =>
        rw [hall o ho] at hp
        exact absurd hp (by simp [postAssignedEvent])
      | offered _ _ _ =>
        rw [List.mem_singleton.mp ho] at hp
        exact absurd hp (by simp [postAssignedEvent])
      | acked htype _ _ _ _ =>
        rcases List.mem_cons.mp ho with rfl | ho
        · exact absurd hp (by simp [postAssignedEvent])
        · rw [List.mem_singleton.mp ho] at hp
          obtain rfl := Option.some.inj hp
          exact ⟨env, m, len, full, q, hmem, hq, htype, rfl, rfl⟩
      | naked _ _ _ _ =>
        rw [List.mem_singleton.mp ho] at hp
        exact absurd hp (by simp [postAssignedEvent])
      | elsewhere _ _ _ _ => exact absurd ho List.not_mem_nil
      | declined _ _ _ => exact absurd ho List.not_mem_nil
      | declinedUnknown _ _ => exact absurd ho List.not_mem_nil
      | released _ _ => exact absurd ho List.not_mem_nil
  | noteObserved _ _ _ => exact absurd ho List.not_mem_nil
  | setQuarantined _ _ => exact absurd ho List.not_mem_nil
  | poll _ _ => exact absurd ho List.not_mem_nil
  | reboot _ _ => exact absurd ho List.not_mem_nil

/-! ## What keeps the names -/

theorem TableNamed.mono (h : TableNamed es t) (hsub : es ⊆ fs) : TableNamed fs t := fun i hi =>
  (h i hi).imp id fun ⟨hostname, hasked, hname⟩ => ⟨hostname, hasked.mono hsub, hname⟩

theorem TableNamed.set (h : TableNamed es t) (hi : (t.clients i).active = true)
    (hmac : e.mac = (t.clients i).mac) (hname : e.name = (t.clients i).name) :
    TableNamed es (t.set i e) := by
  intro j hj
  by_cases hji : j = i
  · subst hji
    rw [ClientTable.set_same, hmac, hname]
    exact h j hi
  · rw [t.set_other e hji] at hj ⊢
    exact h j hj

theorem TableNamed.findOrCreate (h : TableNamed es t)
    (hf : findOrCreateLocked t mac now = some (t', i)) : TableNamed es t' := by
  rcases findOrCreateLocked_cases hf with ⟨-, rfl⟩ | ⟨-, -, rfl⟩
  · exact h
  · intro j hj
    by_cases hji : j = i
    · subst hji
      rw [ClientTable.set_same]
      exact .inl rfl
    · rw [t.set_other _ hji] at hj ⊢
      exact h j hj

@[simp] theorem updateClientIpLocked_name : (updateClientIpLocked e ip).name = e.name := by
  unfold updateClientIpLocked
  split <;> rfl

@[simp] theorem accountClient_name (ev : TrafficEvent) :
    (accountClient ev now e).name = e.name := by
  unfold accountClient
  dsimp only
  split
  · split <;> split <;> simp
  · split <;> rfl

theorem TableNamed.account {b : Bridge} (h : TableNamed es b.table) (ev : TrafficEvent) :
    TableNamed es (accountTraffic b now ev).table := by
  unfold accountTraffic
  split
  · exact h
  · rename_i t i hf
    exact (h.findOrCreate hf).set (findOrCreateLocked_entry hf).1 accountClient_mac
      (accountClient_name ev)

theorem TableNamed.sweep (h : TableNamed es t) : TableNamed es (Track.sweep t now).1 := by
  intro i hi
  obtain ⟨hactive, hmac, -, -⟩ := sweepClient_eq (e := t.clients i) hi
  have hname : (sweepClient now (t.clients i)).name = (t.clients i).name := by
    unfold sweepClient
    rw [if_pos hactive]
    split <;> rfl
  show (sweepClient now (t.clients i)).name = [] ∨ ∃ hostname,
    Asked es (sweepClient now (t.clients i)).mac hostname ∧
      (sweepClient now (t.clients i)).name = hostname.take (nameMaxLen - 1)
  rw [hmac, hname]
  exact h i hactive

theorem TableNamed.resolve {answers : List (Mac × Ip)} {stas : List (Mac × Int)}
    (h : TableNamed es t) : TableNamed es (Track.resolve t now answers stas) := by
  unfold Track.resolve
  have hanswers : TableNamed es (answers.foldl (resolveClient now) t) := by
    refine List.foldlRecOn answers _ h fun t h answer _ => ?_
    unfold resolveClient
    split
    · exact h
    · rename_i t₁ i hf
      split
      · exact (h.findOrCreate hf).set (findOrCreateLocked_entry hf).1 updateClientIpLocked_mac
          updateClientIpLocked_name
      · exact h.findOrCreate hf
  refine List.foldlRecOn stas _ hanswers fun t h sta _ => ?_
  unfold stationListed
  split
  · exact h
  · rename_i t₁ i hf
    exact (h.findOrCreate hf).set (findOrCreateLocked_entry hf).1 rfl rfl

/-- A name that is delivered is the client's whose entry it is put into. -/
theorem TableNamed.assigned (h : TableNamed es t) (hasked : Asked es mac hostname) :
    TableNamed es (onClientIpAssigned t now true mac ip hostname) := by
  unfold onClientIpAssigned
  rw [if_pos rfl]
  split
  · exact h
  · rename_i t₁ i hf
    have h₁ := h.findOrCreate hf
    obtain ⟨hi, himac⟩ := findOrCreateLocked_entry hf
    let e := if (t₁.clients i).ip = 0 then updateClientIpLocked (t₁.clients i) ip
      else t₁.clients i
    have hmac : e.mac = (t₁.clients i).mac := by
      unfold e
      split
      · exact updateClientIpLocked_mac
      · rfl
    have hname : e.name = (t₁.clients i).name := by
      unfold e
      split
      · exact updateClientIpLocked_name
      · rfl
    show TableNamed es (t₁.set i
      (if hostname ≠ [] then { e with name := hostname.take (nameMaxLen - 1) } else e))
    split
    · intro j hj
      by_cases hji : j = i
      · subst hji
        rw [ClientTable.set_same]
        exact .inr ⟨hostname, (hmac.trans himac).symm ▸ hasked, rfl⟩
      · rw [t₁.set_other _ hji] at hj ⊢
        exact h₁ j hj
    · exact h₁.set hi hmac hname

/-! ## Runs -/

theorem Named.powerOn (es : List RouterEvent) {cfg : Dhcp.Config} {flash : Option (List UInt8)} :
    Named es (.powerOn cfg flash now) where
  table i hi := absurd hi (by simp [Router.powerOn, ClientTable.empty])
  queue := List.forall_mem_nil _

theorem Named.step (h : Named es r) (e : RouterEvent) : Named (es ++ [e]) (r.step e) := by
  have hsub : es ⊆ es ++ [e] := List.subset_append_left _ _
  have htable := h.table.mono hsub
  have hqueue : ∀ p ∈ r.queue, Asked (es ++ [e]) p.mac p.hostname := fun p hp =>
    (h.queue p hp).mono hsub
  cases e with
  | account now ev => exact ⟨htable.account ev, hqueue⟩
  | sweep now => exact ⟨htable.sweep, hqueue⟩
  | resolve now answers stas => exact ⟨htable.resolve, hqueue⟩
  | deliver now =>
    show Named _ (match r.queue with
      | [] => r
      | p :: queue => ⟨r.bridge.step (.assigned now true p.mac p.ip p.hostname), queue⟩)
    cases hq : r.queue with
    | nil => exact ⟨htable, hqueue⟩
    | cons p queue =>
      rw [hq] at hqueue
      exact ⟨htable.assigned (hqueue p List.mem_cons_self), fun p' hp' =>
        hqueue p' (List.mem_cons_of_mem _ hp')⟩
  | elsewhere _ _ _ _ => exact ⟨htable, hqueue⟩
  | server ev full =>
    have hposted : ∀ p ∈ if full then r.queue
        else r.queue ++ (r.bridge.dhcp.outs ev).filterMap postAssignedEvent,
        Asked (es ++ [.server ev full]) p.mac p.hostname := by
      split
      · exact hqueue
      · exact List.forall_mem_append.mpr ⟨hqueue, fun p hp =>
          posted_asked hp (List.mem_append_right es List.mem_cons_self)⟩
    cases ev with
    | reboot now cfg => exact .powerOn _
    | recv _ _ _ => exact ⟨htable, hposted⟩
    | noteObserved _ _ _ => exact ⟨htable, hposted⟩
    | setQuarantined _ _ => exact ⟨htable, hposted⟩
    | poll _ _ => exact ⟨htable, hposted⟩

theorem Named.run (h : Named es r) (fs : List RouterEvent) :
    Named (es ++ fs) (fs.foldl Router.step r) := by
  induction fs generalizing es r with
  | nil => rwa [List.append_nil]
  | cons e fs ih =>
    rw [List.append_cons]
    exact ih (h.step e)

/-- The server's table is well formed on the way. -/
theorem Router.step_inv (h : r.bridge.dhcp.Inv) (e : RouterEvent) :
    (r.step e).bridge.dhcp.Inv := by
  cases e with
  | account now ev => exact Bridge.step_inv h (.account now ev)
  | sweep _ => exact h
  | resolve _ _ _ => exact h
  | deliver now =>
    show (match r.queue with
      | [] => r
      | p :: queue => ⟨r.bridge.step (.assigned now true p.mac p.ip p.hostname), queue⟩ :
        Router).bridge.dhcp.Inv
    cases r.queue with
    | nil => exact h
    | cons p queue => exact h
  | elsewhere _ _ _ _ => exact h
  | server ev full =>
    cases ev with
    | reboot now cfg => exact .powerOn h.flash
    | recv env m len => exact h.step (e := .recv env m len)
    | noteObserved now mac ip => exact h.step (e := .noteObserved now mac ip)
    | setQuarantined now macs => exact h.step (e := .setQuarantined now macs)
    | poll now nvs => exact h.step (e := .poll now nvs)

theorem Router.run_inv (h : r.bridge.dhcp.Inv) (es : List RouterEvent) :
    (es.foldl Router.step r).bridge.dhcp.Inv := by
  induction es generalizing r with
  | nil => exact h
  | cons e es ih => exact ih (Router.step_inv h e)

theorem TableNamed.chars (h : TableNamed es t) (hi : (t.clients i).active = true) :
    ∀ c ∈ (t.clients i).name, isHostChar c = true := by
  rcases h i hi with hnone | ⟨hostname, hasked, hname⟩
  · rw [hnone]
    exact List.forall_mem_nil _
  · rw [hname]
    exact fun c hc => hasked.chars c (List.mem_of_mem_take hc)

end

/-- **Every client is called what it has called itself**, as far as there is room. -/
theorem run_named (cfg : Dhcp.Config) (flash : Option (List UInt8)) (boot : Nat)
    (es : List RouterEvent) {t : ClientTable} {i : ClientSlot}
    (ht : (es.foldl Router.step (.powerOn cfg flash boot)).bridge.table = t)
    (hi : (t.clients i).active = true) :
    (∀ c ∈ (t.clients i).name, isHostChar c = true) ∧
      ((t.clients i).name = [] ∨ ∃ hostname, Asked es (t.clients i).mac hostname ∧
        (t.clients i).name = hostname.take (nameMaxLen - 1)) := by
  have htable : TableNamed es t := ht ▸ ((Named.powerOn []).run es).table
  exact ⟨htable.chars hi, htable i hi⟩

/-- A client asks under a name with a character that a name may not have. -/
theorem run_named_laptop :
    let m := { Dhcp.clientMsg dhcpRequest 0x020000000001 0 0 with
      options := Lib.beBytes 4 Dhcp.dhcpCookie ++
        [Dhcp.optMsgType, 1, dhcpRequest, Dhcp.optHostname, 4, 109, 121, 32, 112, Dhcp.optEnd] }
    let es := [.server (.recv { now := 2, wired := false } m 300) false, .deliver 3]
    let t := (es.foldl Router.step (.powerOn Dhcp.shipped none 1)).bridge.table
    let i : ClientSlot := ⟨0, by decide⟩
    (t.clients i).name = [109, 121, 45, 112] ∧
      (∀ c ∈ (t.clients i).name, isHostChar c = true) ∧
        ((t.clients i).name = [] ∨ ∃ hostname, Asked es (t.clients i).mac hostname ∧
          (t.clients i).name = hostname.take (nameMaxLen - 1)) := by
  intro m es t i
  exact ⟨by decide +kernel, run_named Dhcp.shipped none 1 es rfl (by decide +kernel)⟩

end Track
end Wt32Router
