/-
# The gateway datapath

`NftablesGatewayBackend::apply`, and the packets that its rules keep out.
-/

import BalanSir.Common.Gateway
import BalanSir.Executor.Chains
import BalanSir.Executor.Packet
import BalanSir.Executor.Words

namespace BalanSir.Executor

open List

open Common (Error GatewayConfig GatewayResult defaultMgmtPorts)
open Lib (Prog Ends tagged dropAll)
open NftablesBackend
open NftRuleSpec (hits outcome)

def gatewayNatTag : String := "balansir:gateway:masq"

def gatewayFwdTag : String := "balansir:gateway:fwd"

def gatewayMgmtTag : String := "balansir:gateway:mgmt"

/-- `NftablesGatewayBackend`, with the system its backend works on. -/
structure NftablesGatewayBackend where
  system : System := {}
  applied : Option GatewayConfig := none
  deriving DecidableEq

namespace NftablesGatewayBackend

def conntrackRule (state : String) (verdict : NftVerdict) : NftRuleSpec :=
  { ctState := some state, verdict := verdict, comment := some gatewayFwdTag }

def conntrackStates : List (String × NftVerdict) :=
  [("established,related", .accept), ("invalid", .drop)]

def masqueradeRule (config : GatewayConfig) : NftRuleSpec :=
  { srcCidr := some config.lanSubnet, oifname := some config.wanInterface, verdict := .masquerade,
    comment := some gatewayNatTag }

def establishedRule : NftRuleSpec :=
  { ctState := some "established,related", verdict := .accept, comment := some gatewayMgmtTag }

def loopbackRule : NftRuleSpec :=
  { srcCidr := some "127.0.0.0/8", iifname := some "lo", verdict := .accept,
    comment := some gatewayMgmtTag }

def mgmtProtos (port : UInt16) : List NftProto := if port = 53 then [.tcp, .udp] else [.tcp]

def lanRule (config : GatewayConfig) (port : UInt16) (proto : NftProto) : NftRuleSpec :=
  { proto := some proto, srcCidr := some config.lanSubnet, dport := some port,
    iifname := some config.lanInterface, verdict := .accept, comment := some gatewayMgmtTag }

def tailscaleRule (port : UInt16) (proto : NftProto) : NftRuleSpec :=
  { proto := some proto, srcCidr := some "100.64.0.0/10", dport := some port, verdict := .accept,
    comment := some gatewayMgmtTag }

def postroutingHook : List String := ["type", "nat", "hook", "postrouting", "priority", "100", ";"]

def inputHook : List String :=
  ["type", "filter", "hook", "input", "priority", "0", "policy", "drop", ";"]

def ensureBaseChains : Prog System Error Unit := do
  ensureHookedChain .postrouting postroutingHook
  ensureHookedChain .input inputHook

def writeError : CmdError → String
  | .exit text => text
  | .io text => text
  | .noBinary => ""

def setIpForward (enabled : Bool) : Prog System Error Unit := fun s =>
  match s.command (Kernel.writeIpForward enabled) with
  | (.ok _, s) => (.ok (), s)
  | (.error e, s) => (.error (.fatal ("sysctl ip_forward: " ++ writeError e)), s)

def removeAllRules (name : ChainName) (tag : String) : Prog System Error Unit := fun s =>
  Lib.loop (hasCommentInChain name tag) (removeRuleByCommentInChain name tag) (work name s + 1) s

def applyForwardConntrack : Prog System Error Unit := do
  removeAllRules .forward gatewayFwdTag
  conntrackStates.forM fun (state, verdict) =>
    addRuleToChain .forward (conntrackRule state verdict)

def applyNat (config : GatewayConfig) : Prog System Error Unit := do
  removeAllRules .postrouting gatewayNatTag
  addRuleToChain .postrouting (masqueradeRule config)

def addMgmtRules (rule : UInt16 → NftProto → NftRuleSpec) : Prog System Error Unit :=
  defaultMgmtPorts.forM fun port =>
    (mgmtProtos port).forM fun proto => addRuleToChain .input (rule port proto)

def applyManagement (config : GatewayConfig) : Prog System Error Unit := do
  removeAllRules .input gatewayMgmtTag
  addRuleToChain .input establishedRule
  addRuleToChain .input loopbackRule
  addMgmtRules (lanRule config)
  addMgmtRules tailscaleRule

def onSystem {α : Type} (m : Prog System Error α) : Prog NftablesGatewayBackend Error α := fun g =>
  match m g.system with
  | (r, s) => (r, { g with system := s })

def record (config : GatewayConfig) : Prog NftablesGatewayBackend Error Unit := fun g =>
  (.ok (), { g with applied := some config })

def applyResult (config : GatewayConfig) : GatewayResult :=
  { ok := true
    detail := "NAT (masquerade on " ++ config.wanInterface
      ++ "), forwarding, conntrack and management firewall applied (LAN " ++ config.lanSubnet
      ++ " via " ++ config.lanInterface ++ ")" }

def apply (debug : String → String) (config : GatewayConfig) :
    Prog NftablesGatewayBackend Error GatewayResult :=
  match config.validate with
  | .error e => throw (.misconfiguration (e.toText debug))
  | .ok () => do
    onSystem ensureBaseChains
    onSystem (setIpForward true)
    onSystem applyForwardConntrack
    onSystem (applyNat config)
    onSystem (applyManagement config)
    record config
    return applyResult config

/-- **The loop of `remove_all_rules` ends**, from every state and whatever the pending commands do,
and `removeAllRules` is what it does. -/
theorem removeAllRules_ends (name : ChainName) (tag : String) (s : System) :
    Lib.While (hasCommentInChain name tag) (removeRuleByCommentInChain name tag) s
      (removeAllRules name tag s) :=
  Lib.while_loop (fun _ _ _ => work_lt_of_removed) (Nat.lt_succ_self _)

variable {tag : String} {k : Kernel} {name : ChainName} {c : Chain}

def Removing (k : Kernel) (name : ChainName) (c : Chain) (tag : String) (j : ℕ) (s : System) :
    Prop :=
  ∃ rules, (tagged NftRuleSpec.comment (some tag) rules).length = j ∧
    dropAll NftRuleSpec.comment (some tag) rules =
      dropAll NftRuleSpec.comment (some tag) c.rules ∧
    At (k.setChain name { c with rules := rules }) s

theorem ends_hasCommentInChain_removing {j : ℕ} :
    Ends (Removing k name c tag j) (hasCommentInChain name tag) (decide (j ≠ 0))
      (Removing k name c tag j) := by
  rintro s ⟨rules, rfl, hr, hs⟩
  obtain ⟨s', h, hs'⟩ := ends_hasCommentInChain tag s hs
  refine ⟨s', ?_, rules, rfl, hr, hs'⟩
  rw [h, isSome_handleOf]
  simp

theorem ends_removeRuleByCommentInChain_removing {j : ℕ} :
    Ends (Removing k name c tag (j + 1)) (removeRuleByCommentInChain name tag) ()
      (Removing k name c tag j) := by
  rintro s ⟨rules, hj, hr, hs⟩
  obtain ⟨s', h, hs'⟩ := ends_removeRuleByCommentInChain tag s hs
  refine ⟨s', h, _, ?_, ?_, hs'⟩
  · rw [Lib.tagged_dropFirst_self, length_tail, hj, Nat.add_sub_cancel]
  · rw [Lib.dropAll_dropFirst, hr]

theorem ends_removeAllRules (tag : String) :
    Ends (At (k.setChain name c)) (removeAllRules name tag) () (At (k.setChain name { c with
        rules := dropAll NftRuleSpec.comment (some tag) c.rules })) := by
  intro s hs
  have hb : (tagged NftRuleSpec.comment (some tag) c.rules).length < work name s + 1 := by
    have hle : (tagged NftRuleSpec.comment (some tag) c.rules).length ≤ c.rules.length :=
      length_filter_le ..
    rw [work, hs.2, Kernel.rules_setChain]
    omega
  obtain ⟨s', h, rules, hn, hr, hs'⟩ :=
    Ends.loop (fun _ => ends_hasCommentInChain_removing)
      (fun _ => ends_removeRuleByCommentInChain_removing) ends_hasCommentInChain_removing hb s
      ⟨c.rules, rfl, rfl, hs⟩
  refine ⟨s', h, ?_⟩
  rw [Lib.dropAll_of_not_mem (List.length_eq_zero_iff.1 hn)] at hr
  rw [← hr]
  exact hs'

theorem ends_forM_addRules {α : Type} {f : α → Prog System Error Unit} {g : α → List NftRuleSpec}
    (h : ∀ a (c : Chain), Ends (At (k.setChain name c)) (f a) ()
      (At (k.setChain name { c with rules := c.rules ++ g a }))) (l : List α) :
    Ends (At (k.setChain name c)) (l.forM f) ()
      (At (k.setChain name { c with rules := c.rules ++ l.flatMap g })) :=
  Ends.forM (I := fun rules => At (k.setChain name { c with rules := rules }))
    (fun rules a => h a { c with rules := rules }) l c.rules

variable (rule : UInt16 → NftProto → NftRuleSpec)

def mgmtRules : List NftRuleSpec :=
  defaultMgmtPorts.flatMap fun port => (mgmtProtos port).flatMap fun proto => [rule port proto]

theorem ends_addMgmtRules : Ends (At (k.setChain .input c)) (addMgmtRules rule) ()
      (At (k.setChain .input { c with rules := c.rules ++ mgmtRules rule })) :=
  ends_forM_addRules (fun _ _ => ends_forM_addRules (fun _ _ => ends_addRuleToChain _) _) _

def managementRules (config : GatewayConfig) : List NftRuleSpec :=
  establishedRule :: loopbackRule :: (mgmtRules (lanRule config) ++ mgmtRules tailscaleRule)

def conntrackRules : List NftRuleSpec :=
  conntrackStates.flatMap fun (state, verdict) => [conntrackRule state verdict]

def replaceTagged (tag : String) (rules : List NftRuleSpec) (c : Chain) : Chain :=
  { c with rules := dropAll NftRuleSpec.comment (some tag) c.rules ++ rules }

theorem ends_applyForwardConntrack : Ends (At (k.setChain .forward c)) applyForwardConntrack ()
      (At (k.setChain .forward (replaceTagged gatewayFwdTag conntrackRules c))) :=
  (ends_removeAllRules gatewayFwdTag).bind
    (ends_forM_addRules (fun _ _ => ends_addRuleToChain _) conntrackStates)

theorem ends_applyNat (config : GatewayConfig) :
    Ends (At (k.setChain .postrouting c)) (applyNat config) ()
      (At (k.setChain .postrouting (replaceTagged gatewayNatTag [masqueradeRule config] c))) :=
  (ends_removeAllRules gatewayNatTag).bind (ends_addRuleToChain _)

theorem ends_applyManagement (config : GatewayConfig) :
    Ends (At (k.setChain .input c)) (applyManagement config) ()
      (At (k.setChain .input (replaceTagged gatewayMgmtTag (managementRules config) c))) := by
  have hr : (replaceTagged gatewayMgmtTag (managementRules config) c).rules =
      dropAll NftRuleSpec.comment (some gatewayMgmtTag) c.rules ++ [establishedRule] ++
        [loopbackRule] ++ mgmtRules (lanRule config) ++ mgmtRules tailscaleRule := by
    simp [replaceTagged, managementRules]
  have hc : replaceTagged gatewayMgmtTag (managementRules config) c =
      { c with rules := (replaceTagged gatewayMgmtTag (managementRules config) c).rules } := rfl
  rw [hc, hr]
  exact (ends_removeAllRules gatewayMgmtTag).bind ((ends_addRuleToChain establishedRule).bind
    ((ends_addRuleToChain loopbackRule).bind ((ends_addMgmtRules (lanRule config)).bind
      (ends_addMgmtRules tailscaleRule))))

def basePostrouting (k : Kernel) : Chain :=
  k.postrouting.getD { hook := hookText postroutingHook }

def baseInput (k : Kernel) : Chain :=
  { k.input.getD { hook := hookText (splitPolicy none inputHook).2 } with policy := .drop }

def gatewayKernel (config : GatewayConfig) (k : Kernel) : Kernel :=
  { k with
    forward := replaceTagged gatewayFwdTag conntrackRules k.forward
    postrouting := some (replaceTagged gatewayNatTag [masqueradeRule config] (basePostrouting k))
    input := some (replaceTagged gatewayMgmtTag (managementRules config) (baseInput k))
    ipForward := true }

theorem ends_setIpForward (enabled : Bool) :
    Ends (At k) (setIpForward enabled) () (At { k with ipForward := enabled }) := by
  rintro s ⟨hq, rfl⟩
  refine ⟨s.after { s.kernel with ipForward := enabled }, ?_, hq.after _, rfl⟩
  simp only [setIpForward, System.command, hq.outcome_eq 0, Kernel.writeIpForward]

theorem ends_onSystem {α : Type} {P Q : System → Prop} {m : Prog System Error α} {a : α}
    (h : Ends P m a Q) : Ends (fun g : NftablesGatewayBackend => P g.system) (onSystem m) a
      fun g => Q g.system := by
  intro g hg
  obtain ⟨s, hm, hs⟩ := h g.system hg
  refine ⟨{ g with system := s }, ?_, hs⟩
  simp only [onSystem, hm]

theorem ends_ensureBaseChains : Ends (At k) ensureBaseChains ()
      (At ((k.setChain .postrouting (basePostrouting k)).setChain .input (baseInput k))) := by
  have hp : splitPolicy none postroutingHook = (none, postroutingHook) := by decide
  have hi : splitPolicy none inputHook =
      (some "drop", (splitPolicy none inputHook).2) := by decide
  exact (ends_ensureHookedChain hp).bind (ends_ensureHookedChain_policy hi rfl)

theorem ends_of_chain {m : Prog System Error Unit} {f : Chain → Chain}
    (h : ∀ (k : Kernel) (c : Chain), Ends (At (k.setChain name c)) m ()
      (At (k.setChain name (f c)))) (hc : k.chain name = some c) :
    Ends (At k) m () (At (k.setChain name (f c))) := by
  have hk := h k c
  rwa [Kernel.setChain_eq_self hc] at hk

variable {config : GatewayConfig} {p : Packet} {r : NftRuleSpec}

/-- **`apply` refines `gatewayKernel`** with a valid configuration and commands that do not fail. -/
theorem ends_apply (debug : String → String) (hv : config.validate = .ok ()) :
    Ends (fun g => At k g.system) (apply debug config) (applyResult config)
      fun g => At (gatewayKernel config k) g.system ∧ g.applied = some config := by
  unfold apply
  rw [hv]
  refine (ends_onSystem ends_ensureBaseChains).bind ?_
  refine (ends_onSystem (ends_setIpForward true)).bind ?_
  refine (ends_onSystem (ends_of_chain (fun _ _ => ends_applyForwardConntrack) rfl)).bind ?_
  refine (ends_onSystem (ends_of_chain (fun _ _ => ends_applyNat config) rfl)).bind ?_
  refine (ends_onSystem (ends_of_chain (fun _ _ => ends_applyManagement config) rfl)).bind ?_
  exact fun g hg => ⟨{ g with applied := some config }, rfl, hg, rfl⟩

theorem mem_mgmtRules {rule : UInt16 → NftProto → NftRuleSpec} : r ∈ mgmtRules rule ↔
      ∃ port ∈ defaultMgmtPorts, ∃ proto ∈ mgmtProtos port, r = rule port proto := by
  simp [mgmtRules]

def gatewayRules (config : GatewayConfig) : ChainName → List NftRuleSpec
  | .postrouting => [masqueradeRule config]
  | .forward => conntrackRules
  | .input => managementRules config
  | .output | .prerouting => []

/-- The subnet as a whole is a CIDR in one word. `validate` only looks at what stands before its
last slash. -/
structure SubnetReadable (config : GatewayConfig) : Prop where
  word : ∀ c ∈ config.lanSubnet.toList, plainChar c = true
  cidr : (Net.Cidr.ofText config.lanSubnet).isSome = true

theorem SubnetReadable.isPlain_subnet (h : SubnetReadable config) :
    isPlain config.lanSubnet.toList = true := by
  have hne : config.lanSubnet ≠ "" := fun hn => by
    have hc := h.cidr
    rw [hn] at hc
    revert hc
    decide
  simpa [isPlain, hne] using h.word

/-- `nft` adds the rules of the gateway that the backend means. -/
def RulesReadAsMeant (config : GatewayConfig) : Prop :=
  ∀ name, ∀ r ∈ gatewayRules config name, r.ReadAsMeant

/-- **`nft` reads the rules of the gateway as they are meant**, with a readable subnet. -/
theorem rulesReadAsMeant (hv : config.validate = .ok ()) (hs : SubnetReadable config) :
    RulesReadAsMeant config := by
  intro name r hr
  have hn : ∀ name ∈ [config.wanInterface, config.lanInterface], '"' ∉ name.toList :=
    fun name hm hq =>
      absurd ((GatewayConfig.interfaces_of_validate hv).2 name hm _ hq) (by decide)
  have hw := hn _ mem_cons_self
  have hl := hn _ (mem_cons_of_mem _ mem_cons_self)
  have ht : ∀ tag ∈ [gatewayNatTag, gatewayFwdTag, gatewayMgmtTag], '"' ∉ tag.toList := by decide
  simp only [forall_mem_cons] at ht
  refine NftRuleSpec.Plain.readAsMeant ?_
  cases name with
  | postrouting =>
    rw [List.mem_singleton.1 hr]
    constructor <;> simp [masqueradeRule, hs.isPlain_subnet, hw, ht]
  | forward =>
    simp only [gatewayRules, conntrackRules, conntrackStates, flatMap_cons, flatMap_nil,
      append_nil, mem_append, mem_singleton] at hr
    rcases hr with rfl | rfl <;> constructor <;> simp [conntrackRule, ht] <;> decide
  | input =>
    simp only [gatewayRules, managementRules, mem_cons, mem_append, mem_mgmtRules] at hr
    rcases hr with rfl | rfl | ⟨_, -, _, -, rfl⟩ | ⟨_, -, _, -, rfl⟩ <;> constructor <;>
      simp [establishedRule, loopbackRule, lanRule, tailscaleRule, hs.isPlain_subnet, hl, ht] <;>
      decide
  | output => exact nomatch hr
  | prerouting => exact nomatch hr

/-- With a subnet that goes on behind the CIDR, `nft` reads another rule. -/
example : ¬(lanRule ⟨"eth1", "eth0", "192.168.3.0/24 accept #"⟩ 22 .tcp).ReadAsMeant := by
  unfold NftRuleSpec.ReadAsMeant
  decide +kernel

def homeGateway : GatewayConfig :=
  { wanInterface := "eth1", lanInterface := "eth0", lanSubnet := "192.168.3.0/24" }

def sshFrom (src : Net.IpAddr) : Packet :=
  { iifname := "eth1", src := src, dst := .ofOctets 203 0 113 7, l4proto := 6, dport := some 22 }

theorem readable_homeGateway : SubnetReadable homeGateway := ⟨by decide, by decide +kernel⟩

end NftablesGatewayBackend

end BalanSir.Executor
