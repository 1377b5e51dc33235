import Wt32Router.Lib.DoubleBuffer
import Wt32Router.Wan.Filter

/-!
# What a verdict is computed from

The comment over `s_active` promises that a reader "takes the pointer once and uses it
throughout, so it can never observe a half-written rule set". The wrappers do take it once.
Here their reads are single steps, as are the writes of a publish (`memset`, then each field),
and the library's double buffer says when the promise holds.

> **`verdict_of_one_rule_set`**: if no publish picks the buffer a wrapper is still reading,
> all the fields the wrapper has read come from one published rule set, and its verdict is
> that rule set's.

The two publishes it takes to break it are an uplink that comes and goes while the WiFi task
is preempted inside the port loop.
-/

namespace Wt32Router
namespace Wan

open Lib

/-- The fields of `wan_rules_t`. -/
inductive RuleField where
  | port (i : Fin maxPorts)
  | proto (i : Fin maxPorts)
  | nports
  | dnsIp
  | up
deriving DecidableEq

/-- A field as a word of memory. -/
def Rules.word (r : Rules) : RuleField → BitVec 32
  | .port i => (r.ports i).port.setWidth 32
  | .proto i => (r.ports i).proto.toBitVec.setWidth 32
  | .nports => r.nports.setWidth 32
  | .dnsIp => r.dnsIp
  | .up => if r.up then 1 else 0

/-! ## The reads of a verdict -/

abbrev RuleReads := Reads RuleField (BitVec 32) Bool

/-- The port loop: `i < r->nports`, then `ports[i].port`, then `ports[i].proto`. -/
def portListedReads (dport : Nat) (want : UInt8) : List (Fin maxPorts) → RuleReads
  | [] => .done false
  | i :: is =>
    .read .nports fun n =>
      if i.val < n.toNat then
        .read (.port i) fun port =>
          if port.toNat = dport then
            .read (.proto i) fun proto =>
              if proto = want.toBitVec.setWidth 32 then .done true
              else portListedReads dport want is
          else portListedReads dport want is
      else .done false

/-- `egress_allowed` from the ports on. The resolver's address is read twice. -/
def egressPortsReads (proto : Nat) (dest : Ip) (dport : Nat) : RuleReads :=
  let others : RuleReads :=
    if proto = ipProtoUdp ∧ dport = 123 then .done true
    else
      portListedReads dport (if proto = ipProtoUdp then wanProtoUdp else wanProtoTcp)
        (List.finRange maxPorts)
  if dport = 53 then
    .read .dnsIp fun dns =>
      if dns ≠ 0 then .read .dnsIp fun dns => if dest = dns then .done true else others
      else others
  else others

/-- `egress_allowed`. -/
def egressReads (f : WanFrame) : RuleReads :=
  if f.ethType = ethtypeArp then .done true
  else match f.ip with
  | none => .done false
  | some ip =>
    if f.ethType ≠ ethtypeIp ∨ iphHl ip ≠ 5 then .done false
    else if iphProto ip = ipProtoUdp ∧ l4Ports f = some (68, 67) then .done true
    else .read .up fun up =>
      if up = 0 then .done false
      else if iphProto ip = ipProtoIcmp then .done (icmpType f == icmpEcho)
      else if iphProto ip = ipProtoUdp ∨ iphProto ip = ipProtoTcp then
        match l4Ports f with
        | none => .done false
        | some (_, dport) => egressPortsReads (iphProto ip) (ipDest ip) dport
      else .done false

/-- `ingress_allowed` from the ports on. -/
def ingressPortsReads (proto : Nat) (src : Ip) (sport dport : Nat) : RuleReads :=
  let others : RuleReads :=
    if proto = ipProtoUdp ∧ sport = 123 then .done true
    else .done (decide (ipNaptPortRangeStart ≤ dport ∧ dport ≤ ipNaptPortRangeEnd))
  if dport = 68 then .done true
  else if proto = ipProtoUdp ∧ sport = 53 then
    .read .dnsIp fun dns =>
      if dns ≠ 0 then .read .dnsIp fun dns => if src = dns then .done true else others
      else others
  else others

/-- `ingress_allowed`. -/
def ingressReads (f : WanFrame) : RuleReads :=
  if f.ethType = ethtypeArp then .done true
  else match f.ip with
  | none => .done false
  | some ip =>
    if f.ethType ≠ ethtypeIp ∨ iphHl ip ≠ 5 then .done false
    else if iphProto ip = ipProtoIcmp then
      .done (icmpType f == icmpEr || icmpType f == icmpDur || icmpType f == icmpTe)
    else if iphProto ip = ipProtoUdp ∨ iphProto ip = ipProtoTcp then
      match l4Ports f with
      | none => .done false
      | some (sport, dport) => ingressPortsReads (iphProto ip) (ipSrc ip) sport dport
    else .done false

inductive WrapperCall where
  | output (p : Option Pbuf)
  | input (p : Option Pbuf)
deriving DecidableEq

/-- The reads of `sta_output_wrapper` and `sta_input_wrapper` through the pointer they took. -/
def WrapperCall.reads : WrapperCall → RuleReads
  | .output p => match frameWindow p with
    | none => .done true
    | some f => egressReads f
  | .input p => match frameWindow p with
    | none => .done true
    | some f => ingressReads f

/-- The verdict on a rule set that does not change. -/
def WrapperCall.verdict : WrapperCall → Rules → Bool
  | .output p, r => staOutput p r
  | .input p, r => staInput p r

section

variable {r : Rules} {dport sport proto : Nat} {want : UInt8} {addr : Ip} {f : WanFrame}

theorem word_nports : (r.word .nports).toNat = r.nports.toNat := by
  have hlt := r.nports.isLt
  simp only [Rules.word, BitVec.toNat_setWidth]
  omega

theorem word_port {i : Fin maxPorts} : (r.word (.port i)).toNat = (r.ports i).port.toNat := by
  have hlt := (r.ports i).port.isLt
  simp only [Rules.word, BitVec.toNat_setWidth]
  omega

theorem word_proto {i : Fin maxPorts} :
    r.word (.proto i) = want.toBitVec.setWidth 32 ↔ (r.ports i).proto = want := by
  constructor
  · intro h
    have hnat := congrArg BitVec.toNat h
    simp only [Rules.word, BitVec.toNat_setWidth] at hnat
    apply UInt8.toBitVec_inj.mp
    apply BitVec.eq_of_toNat_eq
    have h1 := (r.ports i).proto.toBitVec.isLt
    have h2 := want.toBitVec.isLt
    omega
  · rintro rfl
    rfl

theorem word_up : r.word .up = 0 ↔ r.up = false := by
  cases hup : r.up <;> simp [Rules.word, hup]

theorem portListedReads_eval (is : List (Fin maxPorts)) :
    (portListedReads dport want is).eval r.word = portListed r dport want is := by
  -- slot by slot, as the loop goes
  induction is with
  | nil => rfl
  | cons i is ih =>
    rw [portListedReads, portListed, Reads.eval_read, word_nports]
    split
    · rw [Reads.eval_read, word_port]
      split
      · rw [Reads.eval_read]
        by_cases hproto : (r.ports i).proto = want
        · rw [if_pos (word_proto.mpr hproto), if_pos hproto, Reads.eval_done]
        · rw [if_neg (mt word_proto.mp hproto), if_neg hproto, ih]
      · exact ih
    · rfl

theorem dnsReads_eval {others : RuleReads} {verdict : Bool}
    (hothers : others.eval r.word = verdict) :
    (Reads.read RuleField.dnsIp fun dns =>
      if dns ≠ 0 then .read .dnsIp fun dns => if addr = dns then .done true else others
      else others).eval r.word = if r.dnsIp ≠ 0 ∧ addr = r.dnsIp then true else verdict := by
  have hword : r.word .dnsIp = r.dnsIp := rfl
  rw [Reads.eval_read, hword]
  by_cases hdns : r.dnsIp = 0
  · rw [if_neg (not_not.mpr hdns), if_neg (fun h => h.1 hdns), hothers]
  · rw [if_pos hdns, Reads.eval_read, hword]
    by_cases haddr : addr = r.dnsIp
    · rw [if_pos haddr, if_pos ⟨hdns, haddr⟩, Reads.eval_done]
    · have hno : ¬ (r.dnsIp ≠ 0 ∧ addr = r.dnsIp) := fun h => haddr h.2
      rw [if_neg haddr, if_neg hno, hothers]

theorem egressPortsReads_eval :
    (egressPortsReads proto addr dport).eval r.word = egressPorts r proto addr dport := by
  have hothers : (if proto = ipProtoUdp ∧ dport = 123 then Reads.done true
      else portListedReads dport (if proto = ipProtoUdp then wanProtoUdp else wanProtoTcp)
        (List.finRange maxPorts)).eval r.word =
      if proto = ipProtoUdp ∧ dport = 123 then true
      else portListed r dport (if proto = ipProtoUdp then wanProtoUdp else wanProtoTcp)
        (List.finRange maxPorts) := by
    split
    · rfl
    · exact portListedReads_eval _
  unfold egressPortsReads egressPorts
  dsimp only
  -- the resolver is looked up only for its own port
  by_cases hport : dport = 53
  · rw [if_pos hport, dnsReads_eval hothers]
    simp only [hport, true_and]
  · have hno : ¬ (dport = 53 ∧ r.dnsIp ≠ 0 ∧ addr = r.dnsIp) := fun h => hport h.1
    rw [if_neg hport, if_neg hno, hothers]

theorem egressReads_eval : (egressReads f).eval r.word = egressAllowed f r := by
  unfold egressReads egressAllowed
  split
  · rfl
  · cases hip : f.ip with
    | none => rfl
    | some ip =>
      dsimp only
      split
      · rfl
      · split
        · rfl
        · rw [Reads.eval_read]
          cases hup : r.up with
          | false => rw [if_pos (word_up.mpr hup), Reads.eval_done, Bool.not_false, if_pos rfl]
          | true =>
            have hword : r.word .up ≠ 0 :=
              fun h => Bool.false_ne_true ((word_up.mp h).symm.trans hup)
            rw [if_neg hword, Bool.not_true, if_neg Bool.false_ne_true]
            split
            · rfl
            · split
              · cases hports : l4Ports f with
                | none => rfl
                | some ports => exact egressPortsReads_eval
              · rfl

theorem ingressPortsReads_eval :
    (ingressPortsReads proto addr sport dport).eval r.word =
      ingressPorts r proto addr sport dport := by
  have hothers : (if proto = ipProtoUdp ∧ sport = 123 then Reads.done true
      else .done (decide (ipNaptPortRangeStart ≤ dport ∧ dport ≤ ipNaptPortRangeEnd)) :
        RuleReads).eval r.word =
      if proto = ipProtoUdp ∧ sport = 123 then true
      else decide (ipNaptPortRangeStart ≤ dport ∧ dport ≤ ipNaptPortRangeEnd) := by
    split <;> rfl
  unfold ingressPortsReads ingressPorts
  dsimp only
  split
  · rfl
  · by_cases hport : proto = ipProtoUdp ∧ sport = 53
    · rw [if_pos hport, dnsReads_eval hothers]
      simp only [hport.1, hport.2, true_and]
    · have hno : ¬ (proto = ipProtoUdp ∧ sport = 53 ∧ r.dnsIp ≠ 0 ∧ addr = r.dnsIp) :=
        fun h => hport ⟨h.1, h.2.1⟩
      rw [if_neg hport, if_neg hno, hothers]

theorem ingressReads_eval : (ingressReads f).eval r.word = ingressAllowed f r := by
  unfold ingressReads ingressAllowed
  split
  · rfl
  · cases hip : f.ip with
    | none => rfl
    | some ip =>
      dsimp only
      split
      · rfl
      · split
        · rfl
        · split
          · cases hports : l4Ports f with
            | none => rfl
            | some ports => exact ingressPortsReads_eval
          · rfl

theorem reads_eval (c : WrapperCall) : c.reads.eval r.word = c.verdict r := by
  cases c with
  | output p =>
    rw [WrapperCall.reads, WrapperCall.verdict, staOutput]
    cases frameWindow p with
    | none => rfl
    | some f => exact egressReads_eval
  | input p =>
    rw [WrapperCall.reads, WrapperCall.verdict, staInput]
    cases frameWindow p with
    | none => rfl
    | some f => exact ingressReads_eval

end

/-! ## Publishing -/

/-- The fields in the order `publish_rules` fills them in. -/
def ruleFields : List RuleField :=
  (List.finRange maxPorts).flatMap (fun i => [.port i, .proto i]) ++ [.nports, .dnsIp, .up]

theorem mem_ruleFields (f : RuleField) : f ∈ ruleFields := by
  cases f with
  | port i => simp [ruleFields]
  | proto i => simp [ruleFields]
  | nports => simp [ruleFields]
  | dnsIp => simp [ruleFields]
  | up => simp [ruleFields]

/-- `memset`, and then the fields. -/
def publishWrites (r : Rules) : List (RuleField × BitVec 32) :=
  ruleFields.map (fun f => (f, (fun _ => 0 : RuleField → BitVec 32) f)) ++
    ruleFields.map fun f => (f, r.word f)

open DoubleBuffer

theorem publishWrites_complete (r : Rules) (m : RuleField → BitVec 32) :
    writeAll (publishWrites r) m = r.word := by
  funext f
  -- whatever `memset` left, every field is written after it
  rw [publishWrites, writeAll_append, writeAll_map, if_pos (mem_ruleFields f)]

/-- `s_rules`, `publish_rules` and the wrappers. -/
def sRules : Layout Rules RuleField (BitVec 32) WrapperCall Bool where
  field := Rules.word
  script := publishWrites
  reads := WrapperCall.reads
  complete := publishWrites_complete

/-- **A verdict is computed from one rule set**, as long as no publish begins in the buffer
    the wrapper is reading. -/
theorem verdict_of_one_rule_set (r₀ : Rules) (es : List (Event Rules WrapperCall))
    (h : Along (watch sRules.step published) Undisturbed (sRules.start r₀, [r₀]) es) :
    let now := es.foldl (watch sRules.step published) (sRules.start r₀, [r₀])
    ∀ c, now.1.reader = some c →
      ∃ r ∈ now.2, (∀ p ∈ c.seen, p.2 = r.word p.1) ∧
        ∀ verdict, c.rest = .done verdict → verdict = c.call.verdict r := by
  intro now c hc
  obtain ⟨r, hr, hreads⟩ := reads_one_record h c hc
  refine ⟨r, hr, hreads.seen, fun verdict hdone => ?_⟩
  have hrest : c.rest.eval r.word = c.call.reads.eval r.word := hreads.rest
  rwa [hdone, Reads.eval_done, reads_eval] at hrest

/-- The start of a TCP connection to port 80, as far as the filter looks. -/
def webFrame : Pbuf where
  payload := List.replicate 12 0 ++ [0x08, 0x00, 0x45] ++ List.replicate 8 0 ++ [6] ++
    List.replicate 10 0 ++ [0x04, 0xD2, 0, 80]

def webRules : Rules := ⟨fun _ => ⟨80, wanProtoTcp⟩, 1, 0, true⟩

def publishSteps (r : Rules) : List (Event Rules WrapperCall) :=
  .begin r :: List.replicate (publishWrites r).length .write ++ [.flip]

/-- A wrapper is overtaken between two reads: once by a whole publish, and then by the
    `memset` of the next one. Every rule set ever published allows the frame. -/
def overtaken : List (Event Rules WrapperCall) :=
  [.take (.output (some webFrame)), .read] ++ publishSteps webRules ++
    .begin webRules :: List.replicate ruleFields.length .write ++ [.read]

theorem verdict_of_one_rule_set_fails :
    ¬ ∀ (r₀ : Rules) (es : List (Event Rules WrapperCall)),
      let now := es.foldl (watch sRules.step published) (sRules.start r₀, [r₀])
      ∀ c, now.1.reader = some c → ∃ r ∈ now.2, ∀ p ∈ c.seen, p.2 = r.word p.1 := by
  intro h
  let now := overtaken.foldl (watch sRules.step published) (sRules.start webRules, [webRules])
  have hread : now.1.reader.map (·.seen) = some [(.nports, 0), (.up, 1)] := by decide +kernel
  have hone : ∀ r ∈ now.2, r.word .nports = 1 := by decide +kernel
  obtain ⟨c, hc, hseen⟩ := Option.map_eq_some_iff.mp hread
  obtain ⟨r, hr, hall⟩ := h webRules overtaken c hc
  have hzero : 0 = r.word .nports := hall (.nports, 0) (by rw [hseen]; exact List.mem_cons_self)
  rw [hone r hr] at hzero
  exact absurd hzero (by decide)

/-- Overtaken by one publish only, it ends as it began. -/
theorem verdict_of_one_rule_set_overtaken_once :
    let es := [.take (.output (some webFrame)), .read] ++ publishSteps webRules ++
      [.read, .read, .read]
    let now := es.foldl (watch sRules.step published) (sRules.start webRules, [webRules])
    ∀ c, now.1.reader = some c →
      ∃ r ∈ now.2, (∀ p ∈ c.seen, p.2 = r.word p.1) ∧
        ∀ verdict, c.rest = .done verdict → verdict = c.call.verdict r :=
  verdict_of_one_rule_set webRules _ (by decide)

end Wan
end Wt32Router
