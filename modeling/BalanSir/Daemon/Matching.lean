/-
# What a rule of the configuration matches

A packet that a configured rule is for, and the arguments `nft` is given for it.
-/

import BalanSir.Control.Provider
import BalanSir.Daemon.Adapters
import BalanSir.Executor.Matchers
import BalanSir.Executor.Service
import BalanSir.Net.Ipv6

namespace BalanSir.Daemon

open Common Executor Option
open Net (IpAddr Cidr)
open PolicyCompiler (compile)

def AddrMeets (given : Option IpAddr) (addr : IpAddr) : Prop :=
  ∀ a ∈ given, a.isUnspecified = true ∨ addr = a

def PortMeets (given : Option UInt16) (port : Option UInt16) : Prop :=
  ∀ x ∈ given, x = 0 ∨ port = some x

def ProtocolMeets (given : Option UInt8) (protocol : UInt8) : Prop :=
  ∀ n ∈ given, n = 0 ∨ protocol = n

/-- The packet satisfies every criterion of the rule but the domain. -/
structure Meets (rule : DesiredRule) (p : Packet) : Prop where
  src : AddrMeets (rule.flow.bind (·.srcIp)) p.src
  dst : AddrMeets (rule.flow.bind (·.dstIp)) p.dst
  sport : PortMeets (rule.flow.bind (·.srcPort)) p.sport
  dport : PortMeets (rule.flow.bind (·.dstPort)) p.dport
  protocol : ProtocolMeets (rule.flow.bind (·.protocol)) p.l4proto

def renderedArgs (rule : DesiredRule) : Option (List String) :=
  (specFor (PolicyCompiler.compile rule)).map (·.render)

variable {addr : IpAddr}

theorem cidrForAddr_of_unspecified (h : addr.isUnspecified) : cidrForAddr addr = none := if_pos h

theorem cidrForAddr_of_specified (h : addr.isUnspecified = false) :
    ∃ cidr, cidrForAddr addr = some cidr ∧ Cidr.ofText cidr = some (Cidr.host addr) ∧
      (':' ∈ cidr.toList ↔ isIpv6 addr) := by
  unfold cidrForAddr
  rw [if_neg (Bool.eq_false_iff.1 h)]
  cases addr with
  | v4 a =>
    refine ⟨_, rfl, Cidr.ofText_host_v4 a, ?_⟩
    have hc := Net.notMem_ipv4Text (show ':'.isDigit = false by decide) (by decide) a
    simp [IpAddr.toText, isIpv6, hc]
  | v6 a =>
    refine ⟨_, rfl, Cidr.ofText_host_v6 a, ?_⟩
    simp [IpAddr.toText, isIpv6, Net.colon_mem_ipv6Text a]

theorem cidrHits_of_host {cidr : String} {addr x : IpAddr}
    (h : Cidr.ofText cidr = some (Cidr.host addr)) : cidrHits cidr x ↔ x = addr := by
  rw [cidrHits, h]
  exact Cidr.contains_host addr x

theorem familyText_cidrForAddr : ∀ cidr ∈ cidrForAddr addr, FamilyText cidr := by
  intro cidr hc x hx
  cases hu : addr.isUnspecified with
  | true =>
    rw [cidrForAddr_of_unspecified hu] at hc
    cases hc
  | false =>
    obtain ⟨cidr', hc', hh, hco⟩ := cidrForAddr_of_specified hu
    obtain rfl : cidr' = cidr := Option.some.inj (hc'.symm.trans hc)
    rw [hco, (cidrHits_of_host hh).1 hx]

theorem hits_address (given : Option IpAddr) (x : IpAddr) :
    fieldHits (cidrForAddr (given.getD (.v4 0))) (cidrHits · x) ↔ AddrMeets given x := by
  cases given with
  | none =>
    exact iff_of_true rfl nofun
  | some addr =>
    have hm : AddrMeets (some addr) x ↔ addr.isUnspecified = true ∨ x = addr := by
      simp [AddrMeets]
    rw [getD_some, hm]
    cases hu : addr.isUnspecified with
    | true =>
      rw [cidrForAddr_of_unspecified hu]
      exact iff_of_true rfl (.inl rfl)
    | false =>
      obtain ⟨cidr, hc, hh, -⟩ := cidrForAddr_of_specified hu
      rw [hc, fieldHits_some, cidrHits_of_host hh]
      simp

theorem hits_port (given : Option UInt16) (port : Option UInt16) :
    fieldHits (portMatcher (given.getD 0)) (fun x => port == some x) ↔
      PortMeets given port := by
  cases given with
  | none => exact iff_of_true rfl nofun
  | some x =>
    have hm : PortMeets (some x) port ↔ x = 0 ∨ port = some x := by simp [PortMeets]
    rw [hm, portMatcher]
    by_cases hx : x = 0
    · simp [hx]
    · simp [hx]

theorem hits_protocol (given : Option UInt8) (protocol : UInt8) :
    fieldHits (protoOf (given.getD 0)) (fun x => x.number == protocol) ↔
      ∀ n ∈ given, n = 6 ∨ n = 17 → protocol = n := by
  cases given with
  | none => exact iff_of_true rfl nofun
  | some n =>
    have hm : (∀ m ∈ some n, m = 6 ∨ m = 17 → protocol = m) ↔
        (n = 6 ∨ n = 17 → protocol = n) := by simp
    rw [hm]
    by_cases ht : n = 6
    · subst ht
      show ((6 : UInt8) == protocol) = true ↔ _
      rw [beq_iff_eq]
      exact ⟨fun h _ => h.symm, fun h => (h (.inl rfl)).symm⟩
    · by_cases hu : n = 17
      · subst hu
        show ((17 : UInt8) == protocol) = true ↔ _
        rw [beq_iff_eq]
        exact ⟨fun h _ => h.symm, fun h => (h (.inr rfl)).symm⟩
      · have hn : protoOf n = none := by
          unfold protoOf
          split
          · exact absurd rfl ht
          · exact absurd rfl hu
          · rfl
        simp [hn, ht, hu]

theorem argsHit_renderedArgs {rule : DesiredRule}
    (ha : rule.action = .allow ∨ rule.action = .block ∨ rule.action = .reject) :
    ∃ args, renderedArgs rule = some args ∧ ∀ p : Packet, argsHit p args ↔
      AddrMeets (rule.flow.bind (·.srcIp)) p.src ∧ AddrMeets (rule.flow.bind (·.dstIp)) p.dst ∧
      PortMeets (rule.flow.bind (·.srcPort)) p.sport ∧
      PortMeets (rule.flow.bind (·.dstPort)) p.dport ∧
      ∀ n ∈ rule.flow.bind (·.protocol), n = 6 ∨ n = 17 → p.l4proto = n := by
  obtain ⟨verdict, hs⟩ : ∃ verdict, specFor (compile rule) =
      some (ruleSpec (compile rule) verdict none) := by
    have hr : (compile rule).action = rule.action := rfl
    rcases ha with h | h | h
    · exact ⟨.accept, by rw [specFor, hr, h, toNftSpec, hr, h]; rfl⟩
    · exact ⟨.drop, by rw [specFor, hr, h, toNftSpec, hr, h]; rfl⟩
    · exact ⟨.reject, by rw [specFor, hr, h, toNftSpec, hr, h]; rfl⟩
  refine ⟨_, by rw [renderedArgs, hs, map_some], fun p => ?_⟩
  rw [argsHit_render familyText_cidrForAddr familyText_cidrForAddr, NftRuleSpec.hits]
  simp only [Bool.and_eq_true]
  rw [← hits_address, ← hits_address, ← hits_port, ← hits_port, ← hits_protocol]
  simp only [ruleSpec, fieldHits_none]
  tauto

def tcpPacket (rule : DesiredRule) : Packet where
  iifname := "lan0"
  src := (rule.flow.bind (·.srcIp)).getD (.v4 0)
  dst := (rule.flow.bind (·.dstIp)).getD (.v4 0)
  l4proto := 6
  sport := rule.flow.bind (·.srcPort)
  dport := rule.flow.bind (·.dstPort)

theorem addrMeets_getD (given : Option IpAddr) (addr : IpAddr) :
    AddrMeets given (given.getD addr) := by
  rintro a ha
  exact .inr (by rw [Option.mem_def.1 ha, getD_some])

theorem portMeets_self (given : Option UInt16) : PortMeets given given := fun _ hx => .inr hx

/-- **When the arguments match what the rule says:** when the protocol is absent, `0`, TCP or UDP.
-/
theorem rendered_exact_iff (rule : DesiredRule)
    (haction : rule.action = .allow ∨ rule.action = .block ∨ rule.action = .reject) :
    ∃ args, renderedArgs rule = some args ∧ ((∀ p : Packet, argsHit p args = true ↔ Meets rule p) ↔
        ∀ n ∈ rule.flow.bind (·.protocol), n = 0 ∨ n = 6 ∨ n = 17) := by
  obtain ⟨args, ha, hh⟩ := argsHit_renderedArgs haction
  refine ⟨args, ha, fun he n hn => ?_, fun hpr p => ?_⟩
  · by_contra ho
    -- a packet of TCP gets the verdict, and is not of the protocol
    have hhi : argsHit (tcpPacket rule) args :=
      (hh _).2 ⟨addrMeets_getD _ _, addrMeets_getD _ _, portMeets_self _, portMeets_self _,
        fun m hm h => absurd (.inr (Option.some.inj (hm.symm.trans hn) ▸ h)) ho⟩
    rcases ((he _).1 hhi).protocol n hn with hz | ht
    · exact ho (.inl hz)
    · exact ho (.inr (.inl ht.symm))
  · rw [hh]
    constructor
    · rintro ⟨hsr, hds, hs, hd, hp⟩
      exact ⟨hsr, hds, hs, hd, fun n hn => (hpr n hn).imp id (hp n hn)⟩
    · rintro ⟨hsr, hds, hs, hd, hp⟩
      refine ⟨hsr, hds, hs, hd, fun n hn hk => ?_⟩
      rcases hp n hn with rfl | h
      · exact absurd hk (by decide)
      · exact h

def httpsRule : DesiredRule where
  id := 2
  action := .allow
  priority := 0
  flow := some
    { dstIp := some (.v6 0x20010db8000000000000000000000005), dstPort := some 443,
      protocol := some 6 }

theorem rendered_exact_https :
    renderedArgs httpsRule = some ["meta", "l4proto", "tcp", "ip6", "daddr", "2001:db8::5/128",
      "th", "dport", "443", "accept", "comment", "\"balansir:2\""] ∧
    ∃ args, renderedArgs httpsRule = some args ∧
      ∀ p : Packet, argsHit p args = true ↔ Meets httpsRule p := by
  obtain ⟨args, ha, hi⟩ := rendered_exact_iff httpsRule (.inl rfl)
  refine ⟨by decide +kernel, args, ha, hi.2 fun n hn => ?_⟩
  cases hn
  decide

def icmpConfig : Control.DesiredConfig where
  rules := [{ id := 1, action := "block", protocol := some "icmp" }]

def icmpRule : DesiredRule where
  id := 1
  action := .block
  priority := 0
  flow := some { protocol := some 1 }

/-- The rule for ICMP drops a packet of TCP. -/
theorem icmp_rule_drops_tcp :
    Control.DesiredState.ofConfig icmpConfig = .ok { rules := [icmpRule] } ∧
      icmpRule.domain = none ∧
      renderedArgs icmpRule = some ["drop", "comment", "\"balansir:1\""] ∧
      argsHit (tcpPacket icmpRule) ["drop", "comment", "\"balansir:1\""] = true ∧
      ¬Meets icmpRule (tcpPacket icmpRule) := by
  refine ⟨by decide +kernel, rfl, by decide +kernel, by decide +kernel, fun h => ?_⟩
  exact absurd (h.protocol 1 rfl) (by decide)

end BalanSir.Daemon
