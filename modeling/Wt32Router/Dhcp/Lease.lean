import Wt32Router.Lib.Slots

/-!
# The state of the DHCP server

`main/dhcp_server.c` keeps everything in file-scope statics: the lease table, the
declined list, the boot generation, the dirty flag, and the ranges it serves. They are
one record here, `Server`, and every function of the file is a function on it.

Three conventions hold throughout.

* **Addresses are numbers.** The code keeps an IPv4 address as a `uint32_t` in network
  byte order and converts with `lwip_ntohl`/`lwip_htonl` whenever it compares or counts.
  An `Ip` is the number those conversions give, so both are the identity here; on the
  wire and in flash an address is its four bytes most significant first.
* **A pointer into the table is a slot.** `lease_t *` is a `Slot`, and `NULL` is `none`.
* **Times are microseconds since this boot**, as `esp_timer_get_time()` counts them. They
  are naturals: the clock starts at 0, and the two differences the file takes
  are compared with a positive bound, where a negative one and a truncated one answer
  alike.

Logging is left out everywhere, and with it `note_wired_range_full`, which only logs.
-/

namespace Wt32Router
namespace Dhcp

/-- An IPv4 address, as `lwip_ntohl` of the code's word. -/
abbrev Ip := BitVec 32

/-- A MAC address, first octet most significant. -/
abbrev Mac := BitVec 48

/-- The address written `a.b.c.d`. -/
def ip4 (a b c d : Nat) : Ip :=
  BitVec.ofNat 32 (a * 0x1000000 + b * 0x10000 + c * 0x100 + d)

/-! ## Constants -/

/-- `DHCP_SERVER_MAX_LEASES`. -/
def maxLeases : Nat := 32

def maxDeclined : Nat := 8

def leaseTimeS : Nat := 7200

def leaseTimeNoDnsS : Nat := 120

def offerHoldS : Nat := 30

def saveDebounceUs : Nat := 10 * 1000 * 1000

def forgetAfterBoots : Nat := 5

/-! ## Configuration -/

/-- One served range, `[start, last]` inclusive. -/
structure ServedRange where
  start : Ip
  last : Ip
deriving DecidableEq, Repr

/-- `ip_in_range`: membership of one served range. A range that starts at 0 is no range. -/
def ipInRange (ip : Ip) (r : ServedRange) : Bool :=
  ip != 0 && r.start != 0 && decide (r.start ≤ ip) && decide (ip ≤ r.last)

/-- The test `dhcp_server_start` makes of a wired range it was given: ends nowhere, runs
    backwards, overlaps the pool, holds the bridge's own address, or is off the subnet. -/
def wiredRangeBad (ip netmask : Ip) (pool wired : ServedRange) : Bool :=
  wired.last == 0 || decide (wired.last < wired.start) ||
    (decide (wired.start ≤ pool.last) && decide (pool.start ≤ wired.last)) ||
    ipInRange ip wired ||
    (wired.start &&& netmask) != (ip &&& netmask) ||
    (wired.last &&& netmask) != (ip &&& netmask)

/-- What `dhcp_server_start` leaves in `s_server_ip`, `s_netmask`, `s_pool_start/end` and
    `s_wired_start/end`. The fields that are proofs are the checks it has made, so a
    configuration it would refuse cannot be written down. -/
structure Config where
  serverIp : Ip
  netmask : Ip
  pool : ServedRange
  wired : ServedRange
  serverIp_ne : serverIp ≠ 0
  pool_start_ne : pool.start ≠ 0
  pool_last_ne : pool.last ≠ 0
  pool_le : pool.start ≤ pool.last
  wired_ok : wired.start ≠ 0 → wiredRangeBad serverIp netmask pool wired = false
deriving DecidableEq

/-- `dhcp_server_start`, as far as it decides the ranges. `none` is
    `ESP_ERR_INVALID_ARG`; a bad wired range is not refused but switched off. -/
def dhcpServerStart (ip netmask : Ip) (pool wired : ServedRange) : Option Config :=
  if h : ip ≠ 0 ∧ pool.start ≠ 0 ∧ pool.last ≠ 0 ∧ pool.start ≤ pool.last then
    if hw : wired.start ≠ 0 ∧ wiredRangeBad ip netmask pool wired = true then
      some ⟨ip, netmask, pool, ⟨0, 0⟩, h.1, h.2.1, h.2.2.1, h.2.2.2,
        fun h0 => absurd rfl h0⟩
    else
      some ⟨ip, netmask, pool, wired, h.1, h.2.1, h.2.2.1, h.2.2.2,
        fun h0 => Bool.eq_false_iff.mpr fun hb => hw ⟨h0, hb⟩⟩
  else none

/-- The configuration `app_main` starts the server with: the bridge on 192.168.5.1/24,
    the wired range `ETH_DHCP_START`–`ETH_DHCP_END` and the pool `WIFI_DHCP_START`–
    `WIFI_DHCP_END`. -/
def shipped : Config where
  serverIp := ip4 192 168 5 1
  netmask := ip4 255 255 255 0
  pool := ⟨ip4 192 168 5 10, ip4 192 168 5 101⟩
  wired := ⟨ip4 192 168 5 2, ip4 192 168 5 9⟩
  serverIp_ne := by decide
  pool_start_ne := by decide
  pool_last_ne := by decide
  pool_le := by decide
  wired_ok := by decide

example : dhcpServerStart shipped.serverIp shipped.netmask shipped.pool shipped.wired =
    some shipped := by decide

/-- The range the top of `select_address_locked` chooses for the port a message came in
    on. -/
def servedRange (cfg : Config) (wired : Bool) : ServedRange :=
  if wired && cfg.wired.start != 0 then cfg.wired else cfg.pool

/-! ## The lease table -/

/-- `lease_t`. -/
structure Lease where
  inUse : Bool := false
  mac : Mac := 0
  /-- address this server leased -/
  ip : Ip := 0
  /-- address the client was seen using when that is not `ip`, else 0 -/
  observedIp : Ip := 0
  /-- `ip` as last written to flash -/
  savedIp : Ip := 0
  /-- `observed_ip` as last written to flash -/
  savedObservedIp : Ip := 0
  /-- 0 for a reservation nobody has claimed this boot -/
  expiresUs : Nat := 0
  lastSeenSeq : BitVec 32 := 0
  lastSeenUs : Nat := 0
  quarantined : Bool := false
deriving DecidableEq, Repr

/-- A pointer into `s_leases`. -/
abbrev Slot := Fin maxLeases

/-- The statics of `dhcp_server.c`. -/
structure Server where
  cfg : Config
  leases : Slot → Lease
  declined : List Ip
  bootSeq : BitVec 32
  dirty : Bool
  dirtySinceUs : Nat
  restoredCount : Nat

/-- `e->in_use` of the entry in a slot. -/
abbrev Server.live (st : Server) (i : Slot) : Prop := (st.leases i).inUse = true

/-- `mark_dirty_locked`. -/
def Server.markDirty (st : Server) (now : Nat) : Server :=
  if st.dirty then st else { st with dirty := true, dirtySinceUs := now }

def Server.setLease (st : Server) (i : Slot) (l : Lease) : Server :=
  { st with leases := Function.update st.leases i l }

/-- `e->in_use = false`, and nothing else about the entry. -/
def Server.dropLease (st : Server) (i : Slot) : Server :=
  st.setLease i { st.leases i with inUse := false }

/-- `persisted_observed_ip`: what the observed address of this entry should look like in
    flash. A cut-off client contributes nothing. -/
def persistedObservedIp (e : Lease) : Ip :=
  if e.quarantined then 0 else e.observedIp

/-! ### What the writes leave alone -/

section

variable (st : Server) (now : Nat) (i j : Slot) (l : Lease)

@[simp] theorem Server.markDirty_leases : (st.markDirty now).leases = st.leases := by
  unfold Server.markDirty; split <;> rfl

@[simp] theorem Server.markDirty_cfg : (st.markDirty now).cfg = st.cfg := by
  unfold Server.markDirty; split <;> rfl

@[simp] theorem Server.markDirty_declined : (st.markDirty now).declined = st.declined := by
  unfold Server.markDirty; split <;> rfl

@[simp] theorem Server.markDirty_bootSeq : (st.markDirty now).bootSeq = st.bootSeq := by
  unfold Server.markDirty; split <;> rfl

@[simp] theorem Server.markDirty_dirty : (st.markDirty now).dirty = true := by
  unfold Server.markDirty; split
  · assumption
  · rfl

@[simp] theorem Server.setLease_cfg : (st.setLease i l).cfg = st.cfg := rfl

@[simp] theorem Server.setLease_declined : (st.setLease i l).declined = st.declined := rfl

@[simp] theorem Server.setLease_bootSeq : (st.setLease i l).bootSeq = st.bootSeq := rfl

@[simp] theorem Server.setLease_dirty : (st.setLease i l).dirty = st.dirty := rfl

@[simp] theorem Server.setLease_same : (st.setLease i l).leases i = l := by
  simp [Server.setLease]

@[simp] theorem Server.setLease_ne (h : j ≠ i) :
    (st.setLease i l).leases j = st.leases j := by
  simp [Server.setLease, h]

@[simp] theorem Server.dropLease_cfg : (st.dropLease i).cfg = st.cfg := rfl

@[simp] theorem Server.dropLease_declined : (st.dropLease i).declined = st.declined := rfl

@[simp] theorem Server.dropLease_bootSeq : (st.dropLease i).bootSeq = st.bootSeq := rfl

@[simp] theorem Server.dropLease_dirty : (st.dropLease i).dirty = st.dirty := rfl

@[simp] theorem Server.dropLease_same :
    (st.dropLease i).leases i = { st.leases i with inUse := false } := by
  simp [Server.dropLease]

@[simp] theorem Server.dropLease_ne (h : j ≠ i) :
    (st.dropLease i).leases j = st.leases j := by
  simp [Server.dropLease, h]

theorem Server.dropLease_live (h : (st.dropLease i).live j) :
    j ≠ i ∧ (st.dropLease i).leases j = st.leases j := by
  by_cases hj : j = i
  · subst hj
    simp [Server.live] at h
  · exact ⟨hj, st.dropLease_ne i j hj⟩

end

end Dhcp
end Wt32Router
