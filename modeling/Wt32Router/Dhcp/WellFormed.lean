import Wt32Router.Dhcp.Generations

/-!
# The lease table is well formed

`TableInv` is what the allocator needs of the table within a boot. Across boots there is one
fact more, about the generations: **no entry is stamped ahead of the boot it is in**, and so
the entries a load restores, which carry the stamps of earlier boots, all count as not seen.

> **`System.table_wellFormed`**: in every state of every run, over any number of boots, no two
> entries share a MAC or a leased address and no stamp is ahead of the generation; and right
> after a load every entry is expired and not seen.

The generation is a 32-bit counter that every boot takes one past what flash holds. A run in
which it runs out is the one thing excluded: a generation of 0 is behind every stamp.
-/

namespace Wt32Router
namespace Dhcp

/-- There is a generation left for the next boot. -/
def GenerationLeft (flash : Option (List UInt8)) : Prop :=
  match flash.bind parseBlob with
  | some (hdr, _) => hdr.bootSeq + 1 ≠ 0
  | none => True

/-- Time does not go back within a boot, and a boot has a generation left. -/
def System.okGeneration (s : System) (e : Event) : Prop :=
  s.ok e ∧ (e.isReboot = true → GenerationLeft s.flash)

instance (flash : Option (List UInt8)) : Decidable (GenerationLeft flash) := by
  unfold GenerationLeft
  split <;> infer_instance

instance (s : System) (e : Event) : Decidable (s.okGeneration e) :=
  inferInstanceAs (Decidable (_ ∧ _))

/-- No two entries in use have the same MAC or the same leased address, and none is stamped
    ahead of this boot. -/
structure Server.WellFormed (st : Server) : Prop where
  mac : MacUnique st.leases
  ip : IpUnique st.leases
  stamp : ∀ i, st.live i → (st.leases i).lastSeenSeq ≤ st.bootSeq

/-- Every entry in use counts as not seen this boot, and its lease as expired. -/
def Server.Unclaimed (st : Server) : Prop :=
  ∀ i, st.live i → seenThisBoot st (st.leases i) = false ∧ (st.leases i).expiresUs = 0

/-- No stamp is ahead of the generation it is beside, in the table or in flash. -/
structure System.StampsPast (s : System) : Prop where
  inv : s.Inv
  table : ∀ i, s.srv.live i → (s.srv.leases i).lastSeenSeq ≤ s.srv.bootSeq
  flash : ∀ hdr recs, s.flash.bind parseBlob = some (hdr, recs) →
    ∀ t ∈ recs, t.lastSeenSeq ≤ hdr.bootSeq

section

variable {st st' : Server} {env : Env} {m : DhcpMsg} {q : Request} {len : Nat}
  {outs : List Out} {mac : Mac} {ip : Ip} {now : Nat} {i j : Slot} {s : System} {e : Event}
  {cfg : Config} {flash : Option (List UInt8)}

/-! ## What a step does to a stamp -/

/-- A message stamps an entry with this boot's generation or one before it, or not at all. -/
theorem Handled.stamp_le (h : TableInv st) (hq : readRequest m len = some q)
    (hh : Handled st env m q st' outs) (hj : st'.live j) :
    (st'.leases j).lastSeenSeq ≤ st.bootSeq ∨
      (st.live j ∧ (st'.leases j).lastSeenSeq = (st.leases j).lastSeenSeq) := by
  cases hh.touched hq hj with
  | kept hlive hsame _ _ => exact .inr ⟨hlive, by rw [hsame]⟩
  | offered hs h0 heq hm _ _ =>
    subst heq
    rw [commit_own_seen (h.select hs) hj hm h0, select_bootSeq hs]
    exact .inl (BitVec.le_refl _)
  | acked hs h0 heq hm _ =>
    subst heq
    rw [commit_own_seen (h.select hs) hj hm h0, select_bootSeq hs]
    exact .inl (BitVec.le_refl _)
  | released _ hlive _ heq _ _ =>
    rw [heq]
    dsimp only
    split
    · exact .inl (by bv_omega)
    · exact .inr ⟨hlive, rfl⟩

theorem System.StampsPast.of_entries (h : s.StampsPast) (hflash : (s.step e).flash = s.flash)
    (hseq : (s.step e).srv.bootSeq = s.srv.bootSeq)
    (hent : ∀ i, (s.step e).srv.live i →
      ((s.step e).srv.leases i).lastSeenSeq ≤ s.srv.bootSeq) : (s.step e).StampsPast where
  inv := h.inv.step
  table i hi := hseq ▸ hent i hi
  flash hdr recs hp := h.flash hdr recs (hflash ▸ hp)

theorem System.StampsPast.noted (h : s.StampsPast) :
    (s.step (.noteObserved now mac ip)).StampsPast := by
  have hsrv : (s.step (.noteObserved now mac ip)).srv = noteObservedIp s.srv mac ip now := rfl
  refine h.of_entries rfl (by rw [hsrv, noteObservedIp_bootSeq]) fun j hj => ?_
  rw [hsrv] at hj ⊢
  rcases noteObservedIp_origin h.inv.table.mac hj with ⟨hlive, heq, -⟩ | ⟨l, -, heq⟩
  · rw [heq]
    exact h.table j hlive
  · rw [heq]
    exact BitVec.le_refl _

theorem System.StampsPast.polled (h : s.StampsPast) {nvs : NvsResult} :
    (s.step (.poll now nvs)).StampsPast := by
  refine ⟨h.inv.step, ?_, fun hdr recs hp t ht => ?_⟩
  · refine System.poll_srv (P := fun st => ∀ i, st.live i →
      (st.leases i).lastSeenSeq ≤ st.bootSeq) now nvs h.table fun i hi => ?_
    obtain ⟨huse, -, -, -, -, hseen, -⟩ := markSaved_fields s.srv i
    rw [Server.live, huse] at hi
    rw [hseen, markSaved_bootSeq]
    exact h.table i hi
  · rw [System.step_poll_flash] at hp
    cases hw : s.written (.poll now nvs) with
    | none =>
      rw [hw, Option.none_or] at hp
      exact h.flash hdr recs hp t ht
    | some blob =>
      rw [hw, Option.some_or, System.written_eq hw] at hp
      obtain ⟨hseq, i, hi, rfl⟩ := parseBlob_saveBlob_mem hp ht
      rw [hseq]
      exact h.table i hi

/-! ## What a load leaves -/

theorem GenerationLeft.next {hdr : StoredHdr} {recs : List StoredLease}
    (h : GenerationLeft flash) (hp : flash.bind parseBlob = some (hdr, recs)) :
    hdr.bootSeq + 1 ≠ 0 := by
  unfold GenerationLeft at h
  rw [hp] at h
  exact h

theorem bootServer_stamp
    (hpast : ∀ hdr recs, flash.bind parseBlob = some (hdr, recs) →
      ∀ t ∈ recs, t.lastSeenSeq ≤ hdr.bootSeq)
    (hleft : GenerationLeft flash) (hi : (bootServer cfg flash now).live i) :
    ((bootServer cfg flash now).leases i).lastSeenSeq < (bootServer cfg flash now).bootSeq := by
  obtain ⟨hdr, recs, t, hp, -, ht, hl⟩ := bootServer_live hi
  have hle := hpast hdr recs hp t ht
  have hne := hleft.next hp
  rw [hl, bootServer_some hp, loadRecords_bootSeq]
  have hstamp : (restoredLease {} t (dropObserved (keptRecords (hdr.bootSeq + 1) hdr.version
      recs) i.val)).lastSeenSeq = t.lastSeenSeq := rfl
  rw [hstamp]
  bv_omega

theorem System.StampsPast.boot (h : s.StampsPast) (hleft : GenerationLeft s.flash) :
    (s.step (.reboot now cfg)).StampsPast :=
  ⟨h.inv.step, fun _ hi => BitVec.le_of_lt (bootServer_stamp h.flash hleft hi), h.flash⟩

theorem System.StampsPast.unclaimed (h : s.StampsPast) (hleft : GenerationLeft s.flash) :
    (s.step (.reboot now cfg)).srv.Unclaimed := by
  intro i hi
  have hlt : ((bootServer cfg s.flash now).leases i).lastSeenSeq <
      (bootServer cfg s.flash now).bootSeq := bootServer_stamp h.flash hleft hi
  refine ⟨?_, (bootServer_expired s.flash i).1⟩
  rw [Bool.eq_false_iff, ne_eq, seenThisBoot_iff]
  exact BitVec.not_le.mpr hlt

/-! ## Runs -/

theorem System.StampsPast.step (h : s.StampsPast) (hok : s.okGeneration e) :
    (s.step e).StampsPast := by
  cases e with
  | recv env m len =>
    rcases s.recv_cases env m len with ⟨hsrv, -⟩ | ⟨q, hq, hh⟩
    · refine h.of_entries rfl (by rw [hsrv]) fun j hj => ?_
      rw [hsrv] at hj ⊢
      exact h.table j hj
    · refine h.of_entries rfl hh.bootSeq_eq fun j hj => ?_
      rcases hh.stamp_le h.inv.table hq hj with hle | ⟨hlive, heq⟩
      · exact hle
      · rw [heq]
        exact h.table j hlive
  | noteObserved now mac ip => exact h.noted
  | setQuarantined now macs =>
    have hsrv : (s.step (.setQuarantined now macs)).srv = setQuarantined s.srv macs now := rfl
    refine h.of_entries rfl (by rw [hsrv, setQuarantined_bootSeq]) fun j hj => ?_
    rw [hsrv, Server.live, setQuarantined_leases] at hj
    rw [hsrv, setQuarantined_leases]
    exact h.table j hj
  | poll now nvs => exact h.polled
  | reboot now cfg => exact h.boot (hok.2 rfl)

theorem System.StampsPast.start (cfg : Config) (now : Nat) :
    (powerOn cfg none now).StampsPast := by
  refine ⟨(System.Reachable.switchedOn cfg now).inv, fun i hi => ?_, fun _ _ hp => ?_⟩
  · exact absurd hi powerOn_not_live
  · exact absurd hp (by simp [powerOn])

/-- **The lease table is well formed in every reachable state**, over any sequence of
    messages, notes, pushes of the cut-off set, saves and boots; and right after a load, every
    entry counts as not seen and its lease as expired. -/
theorem System.table_wellFormed
    (h : Lib.Reachable System.step System.init System.okGeneration s) :
    s.srv.WellFormed ∧ ∀ now cfg, GenerationLeft s.flash →
      (s.step (.reboot now cfg)).srv.WellFormed ∧ (s.step (.reboot now cfg)).srv.Unclaimed := by
  have hpast : s.StampsPast :=
    h.invariant (fun _ ⟨cfg, now, hs⟩ => hs ▸ .start cfg now) fun _ _ hI hok => hI.step hok
  refine ⟨⟨hpast.inv.table.mac, hpast.inv.table.ip, hpast.table⟩, fun now cfg hleft => ?_⟩
  have hboot : (s.step (.reboot now cfg)).StampsPast := hpast.boot hleft
  exact ⟨⟨hboot.inv.table.mac, hboot.inv.table.ip, hboot.table⟩, hpast.unclaimed hleft⟩

/-- Two clients are told their addresses and saved, and come back after a reboot, one of them
    seen on an address of its own. -/
theorem table_wellFormed_rejoined :
    let es := [Event.sends 10 false dhcpRequest 1 (ip4 192 168 5 10),
      .sends 20 false dhcpRequest 2 (ip4 192 168 5 11), .poll 20000000 .ok, .reboot 0 shipped,
      .sends 30 false dhcpRequest 2 (ip4 192 168 5 11),
      .noteObserved 40 1 (ip4 192 168 5 60)]
    let s := es.foldl System.step (powerOn shipped none 0)
    s.srv.WellFormed ∧ ∀ now cfg, GenerationLeft s.flash →
      (s.step (.reboot now cfg)).srv.WellFormed ∧ (s.step (.reboot now cfg)).srv.Unclaimed :=
  System.table_wellFormed ((Lib.Reachable.init ⟨shipped, 0, rfl⟩).run _ (by decide +kernel))

end

end Dhcp
end Wt32Router
