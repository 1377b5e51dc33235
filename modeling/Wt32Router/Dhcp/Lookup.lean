import Wt32Router.Dhcp.Lease

/-!
# Address bookkeeping: the lookups

The four scans every allocation decision rests on. Each is a first-match scan of the
table in slot order, so its specification is `Fin.find?`'s; the lemmas here state what a
hit and a miss *mean*, and nothing after this file unfolds a scan.

The three address lookups differ on purpose, and telling them apart is most of what the
allocator's correctness is about:

| function | matches | ignores quarantined | ignores lapsed |
|---|---|---|---|
| `findByIpLocked` | leased | no | no |
| `findByAnyIpLocked` | leased or observed | yes | no |
| `ipInUseLocked` | leased or observed | yes | leased only |
-/

namespace Wt32Router
namespace Dhcp

def ipOffset (ip : Ip) (delta : Nat) : Ip := ip + BitVec.ofNat 32 delta

def ipDeclined (st : Server) (ip : Ip) : Bool := st.declined.contains ip

def findByMacLocked (st : Server) (mac : Mac) : Option Slot :=
  Fin.find? fun i => (st.leases i).inUse && (st.leases i).mac == mac

/-- `find_by_ip_locked`: the leased address only. -/
def findByIpLocked (st : Server) (ip : Ip) : Option Slot :=
  Fin.find? fun i => (st.leases i).inUse && (st.leases i).ip == ip

/-- `find_by_any_ip_locked`: an address claimed either way, by a client not cut off. -/
def findByAnyIpLocked (st : Server) (ip : Ip) : Option Slot :=
  Fin.find? fun i => (st.leases i).inUse && !(st.leases i).quarantined &&
    ((st.leases i).ip == ip || (st.leases i).observedIp == ip)

/-- The test `ip_in_use_locked` makes of one entry: seen using the address, or holding an
    unexpired lease for it, and not cut off. -/
def Lease.uses (e : Lease) (ip : Ip) (now : Nat) : Bool :=
  e.inUse && !e.quarantined && (e.observedIp == ip || (e.ip == ip && decide (now ≤ e.expiresUs)))

/-- `ip_in_use_locked`: somebody other than `except` is really on this address. -/
def ipInUseLocked (st : Server) (ip : Ip) (except : Option Slot) (now : Nat) : Bool :=
  (Fin.find? fun i => some i != except && (st.leases i).uses ip now).isSome

def seenThisBoot (st : Server) (e : Lease) : Bool := decide (st.bootSeq ≤ e.lastSeenSeq)

section

variable {st : Server} {mac : Mac} {ip : Ip} {i : Slot} {now : Nat} {except : Option Slot}

theorem findByMacLocked_some (h : findByMacLocked st mac = some i) :
    st.live i ∧ (st.leases i).mac = mac := by
  have hp := (Fin.find?_eq_some_iff.mp h).1
  simpa using hp

theorem findByMacLocked_none (h : findByMacLocked st mac = none) (hi : st.live i) :
    (st.leases i).mac ≠ mac := by
  have hp := Fin.find?_eq_none_iff.mp h i
  simpa [hi] using hp

theorem findByIpLocked_some (h : findByIpLocked st ip = some i) :
    st.live i ∧ (st.leases i).ip = ip := by
  have hp := (Fin.find?_eq_some_iff.mp h).1
  simpa using hp

theorem findByIpLocked_none (h : findByIpLocked st ip = none) (hi : st.live i) :
    (st.leases i).ip ≠ ip := by
  have hp := Fin.find?_eq_none_iff.mp h i
  simpa [hi] using hp

theorem findByAnyIpLocked_none (h : findByAnyIpLocked st ip = none) (hi : st.live i)
    (hq : (st.leases i).quarantined = false) :
    (st.leases i).ip ≠ ip ∧ (st.leases i).observedIp ≠ ip := by
  have hp := Fin.find?_eq_none_iff.mp h i
  simpa [hi, hq] using hp

theorem findByAnyIpLocked_isSome (h : findByAnyIpLocked st ip ≠ none) :
    ∃ i, st.live i ∧ (st.leases i).quarantined = false ∧
      ((st.leases i).ip = ip ∨ (st.leases i).observedIp = ip) := by
  obtain ⟨i, hi⟩ := Option.ne_none_iff_exists'.mp h
  have hp := (Fin.find?_eq_some_iff.mp hi).1
  refine ⟨i, ?_⟩
  simpa [and_assoc] using hp

theorem ipInUseLocked_iff : ipInUseLocked st ip except now = true ↔
    ∃ i, some i ≠ except ∧ (st.leases i).uses ip now = true := by
  unfold ipInUseLocked
  rw [Option.isSome_iff_ne_none, ne_eq, Fin.find?_eq_none_iff]
  simp

theorem ipInUseLocked_false_iff : ipInUseLocked st ip except now = false ↔
    ∀ i, some i ≠ except → (st.leases i).uses ip now = false := by
  rw [← Bool.not_eq_true, ipInUseLocked_iff]
  simp

theorem Lease.uses_iff {e : Lease} : e.uses ip now = true ↔
    e.inUse = true ∧ e.quarantined = false ∧
      (e.observedIp = ip ∨ (e.ip = ip ∧ now ≤ e.expiresUs)) := by
  simp [Lease.uses, and_assoc]

/-- The weaker of the two "spoken for" tests: an address nobody has an entry for is an
    address nobody is on. -/
theorem not_uses_of_findByAnyIp (h : findByAnyIpLocked st ip = none) :
    (st.leases i).uses ip now = false := by
  rw [← Bool.not_eq_true, Lease.uses_iff]
  rintro ⟨hi, hq, huse⟩
  obtain ⟨hne, hno⟩ := findByAnyIpLocked_none h hi hq
  rcases huse with ho | ⟨hl, -⟩
  · exact hno ho
  · exact hne hl

end

/-! ## The table's keys

Two uniqueness facts every run keeps (`TableInv`, in `Dhcp/System.lean`), under the names the rest
of the development uses them by. -/

def MacUnique (t : Slot → Lease) : Prop :=
  Lib.KeyUnique (fun e : Lease => e.inUse = true) Lease.mac t

/-- No two entries in use have the same leased address, other than none. -/
def IpUnique (t : Slot → Lease) : Prop :=
  Lib.KeyUnique (fun e : Lease => e.inUse = true ∧ e.ip ≠ 0) Lease.ip t

theorem findByMacLocked_eq {st : Server} {i : Slot} (hu : MacUnique st.leases)
    (hi : st.live i) : findByMacLocked st (st.leases i).mac = some i := by
  cases h : findByMacLocked st (st.leases i).mac with
  | none => exact absurd rfl (findByMacLocked_none h hi)
  | some j =>
    obtain ⟨hj, hm⟩ := findByMacLocked_some h
    rw [hu j i hj hi hm]

theorem findByIpLocked_eq {st : Server} {i : Slot} (hu : IpUnique st.leases)
    (hi : st.live i) (hne : (st.leases i).ip ≠ 0) :
    findByIpLocked st (st.leases i).ip = some i := by
  cases h : findByIpLocked st (st.leases i).ip with
  | none => exact absurd rfl (findByIpLocked_none h hi)
  | some j =>
    obtain ⟨hj, hip⟩ := findByIpLocked_some h
    rw [hu j i ⟨hj, by rw [hip]; exact hne⟩ ⟨hi, hne⟩ hip]

end Dhcp
end Wt32Router
