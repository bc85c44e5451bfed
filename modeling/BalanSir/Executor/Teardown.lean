/-
# Applying the gateway again, and removing it

`apply` after `apply`, and `NftablesGatewayBackend::remove`.
-/

import BalanSir.Executor.Gateway

namespace BalanSir.Executor

open Kernel List

open Common (Error GatewayConfig GatewayResult)
open Lib (Prog Ends tagged dropAll)
open NftablesBackend

namespace NftablesGatewayBackend

def gatewayChains : List (ChainName × String × String) :=
  [(.postrouting, gatewayNatTag, "NAT"), (.forward, gatewayFwdTag, "forward conntrack"),
    (.input, gatewayMgmtTag, "management firewall")]

def removeChain (removed : List String) (entry : ChainName × String × String) :
    Prog System Error (List String) := do
  let (name, tag, what) := entry
  if ← hasCommentInChain name tag then
    Lib.mapError (fun e => .fatal ("remove " ++ what ++ ": " ++ e.toText)) (removeAllRules name tag)
    return removed ++ [what]
  else
    return removed

def clear : Prog NftablesGatewayBackend Error Unit := fun g => (.ok (), { g with applied := none })

def removeResult (removed : List String) : GatewayResult :=
  { ok := true
    detail := if removed.isEmpty then "gateway datapath not applied (nothing to remove)"
      else "removed: " ++ String.intercalate ", " removed }

def remove : Prog NftablesGatewayBackend Error GatewayResult := do
  let removed ← onSystem (gatewayChains.foldlM removeChain [])
  unless removed.isEmpty do
    onSystem (setIpForward false)
  clear
  return removeResult removed

variable {k : Kernel} {name : ChainName} {tag : String}
  {entries : List (ChainName × String × String)}

theorem ends_hasCommentInChain_at (name : ChainName) (tag : String) :
    Ends (At k) (hasCommentInChain name tag)
      (decide (tagged NftRuleSpec.comment (some tag) (k.rules name) ≠ [])) (At k) := by
  cases hc : k.chain name with
  | some c =>
    rw [rules_of_chain hc, ← isSome_handleOf]
    have h : Ends (At (k.setChain name c)) (hasCommentInChain name tag) _ _ :=
      ends_hasCommentInChain tag
    rwa [setChain_eq_self hc] at h
  | none =>
    -- `nft` says that there is no such chain, which the lookup takes for no handle
    rintro s ⟨hq, rfl⟩
    refine ⟨s.after s.kernel, ?_, hq.after _, rfl⟩
    have hl : Kernel.list name s.kernel = .error Kernel.noSuchFile := by
      simp only [Kernel.list, hc]
    have hf : findHandleByCommentInChain name tag s = (.ok none, s.after s.kernel) := by
      rw [findHandleByCommentInChain, Lib.prog_bind]
      simp only [nftTolerating, System.command, hq.outcome_eq 0, hl]
      rfl
    rw [hasCommentInChain, hf]
    simp [Kernel.rules, hc]

def dropTagged (name : ChainName) (tag : String) (k : Kernel) : Kernel :=
  match k.chain name with
  | some c => k.setChain name { c with rules := dropAll NftRuleSpec.comment (some tag) c.rules }
  | none => k

theorem dropTagged_of_not_mem (h : tagged NftRuleSpec.comment (some tag) (k.rules name) = []) :
    dropTagged name tag k = k := by
  unfold dropTagged
  cases hc : k.chain name with
  | none => rfl
  | some c =>
    rw [rules_of_chain hc] at h
    simp only [Lib.dropAll_of_not_mem h]
    exact setChain_eq_self hc

theorem rules_dropTagged_of_ne {other : ChainName} (h : other ≠ name) :
    (dropTagged name tag k).rules other = k.rules other := by
  unfold dropTagged
  cases hc : k.chain name with
  | none => rfl
  | some c => cases name <;> cases other <;> first | rfl | exact absurd rfl h

def found (k : Kernel) : List (ChainName × String × String) → List String
  | [] => []
  | (name, tag, what) :: entries =>
    (if tagged NftRuleSpec.comment (some tag) (k.rules name) = [] then [] else [what]) ++
      found k entries

theorem found_dropTagged (h : name ∉ entries.map Prod.fst) :
    found (dropTagged name tag k) entries = found k entries := by
  induction entries with
  | nil => rfl
  | cons entry entries ih =>
    simp only [map_cons, mem_cons, not_or] at h
    rw [found, found, ih h.2, rules_dropTagged_of_ne (Ne.symm h.1)]

theorem ends_removeChain (removed : List String) (name : ChainName) (tag what : String) :
    Ends (At k) (removeChain removed (name, tag, what)) (removed ++ found k [(name, tag, what)])
      (At (dropTagged name tag k)) := by
  refine (ends_hasCommentInChain_at name tag).bind ?_
  by_cases h : tagged NftRuleSpec.comment (some tag) (k.rules name) = []
  · have hf : found k [(name, tag, what)] = [] := by simp [found, h]
    rw [hf, dropTagged_of_not_mem h, append_nil]
    simp only [h]
    exact Lib.ends_pure removed
  · have hf : found k [(name, tag, what)] = [what] := by simp [found, h]
    simp only [h, ne_eq]
    rw [hf]
    cases hc : k.chain name with
    | none => exact absurd (by simp [Kernel.rules, hc]) h
    | some c =>
      have hr : Ends (At (k.setChain name c)) (removeAllRules name tag) () _ :=
        ends_removeAllRules tag
      rw [setChain_eq_self hc] at hr
      simp only [dropTagged, hc]
      exact hr.mapError.bind (Lib.ends_pure _)

theorem ends_removeChains (h : (entries.map Prod.fst).Nodup) (removed : List String) :
    Ends (At k) (entries.foldlM removeChain removed) (removed ++ found k entries)
      (At (entries.foldl (fun k entry => dropTagged entry.1 entry.2.1 k) k)) := by
  induction entries generalizing k removed with
  | nil =>
    rw [found, append_nil]
    exact Lib.ends_pure removed
  | cons entry entries ih =>
    obtain ⟨name, tag, what⟩ := entry
    rw [map_cons, nodup_cons] at h
    have hf : removed ++ found k ((name, tag, what) :: entries) =
        (removed ++ found k [(name, tag, what)]) ++ found (dropTagged name tag k) entries := by
      rw [found_dropTagged h.1]
      simp [found]
    rw [hf]
    exact (ends_removeChain removed name tag what).bind (ih h.2 _)

def removedKernel (k : Kernel) : Kernel :=
  let k' := gatewayChains.foldl (fun k entry => dropTagged entry.1 entry.2.1 k) k
  if (found k gatewayChains).isEmpty then k' else { k' with ipForward := false }

/-- **`remove` refines `removedKernel`** when no command fails. -/
theorem ends_remove : Ends (fun g => At k g.system) remove (removeResult (found k gatewayChains))
      fun g => At (removedKernel k) g.system ∧ g.applied = none := by
  have hc : ∀ k : Kernel, Ends (fun g : NftablesGatewayBackend => At k g.system) clear ()
      fun g => At k g.system ∧ g.applied = none :=
    fun _ g hg => ⟨{ g with applied := none }, rfl, hg, rfl⟩
  refine (ends_onSystem (ends_removeChains (by decide) [])).bind ?_
  rw [nil_append]
  unfold removedKernel
  cases (found k gatewayChains).isEmpty with
  | true => exact (hc _).bind (Lib.ends_pure _)
  | false =>
    exact (ends_onSystem (ends_setIpForward false)).bind ((hc _).bind (Lib.ends_pure _))

def GatewayTagged (r : NftRuleSpec) : Prop := ∃ entry ∈ gatewayChains, r.comment = some entry.2.1
  deriving Decidable

variable {r : NftRuleSpec} {config : GatewayConfig}

theorem comment_of_mem_managementRules (h : r ∈ managementRules config) :
    r.comment = some gatewayMgmtTag := by
  simp only [managementRules, mem_cons, mem_append, mem_mgmtRules] at h
  rcases h with rfl | rfl | ⟨_, -, _, -, rfl⟩ | ⟨_, -, _, -, rfl⟩ <;> rfl

variable {entry : ChainName × String × String}
  {configs : List GatewayConfig} {debug : String → String} {rules : List NftRuleSpec}

theorem comment_of_mem_gatewayRules (he : entry ∈ gatewayChains)
    (hr : r ∈ gatewayRules config entry.1) : r.comment = some entry.2.1 := by
  simp only [gatewayChains, mem_cons, not_mem_nil, or_false] at he
  rcases he with rfl | rfl | rfl
  · rw [List.mem_singleton.1 hr]
    rfl
  · have ha : ∀ r ∈ conntrackRules, r.comment = some gatewayFwdTag := by decide
    exact ha r hr
  · exact comment_of_mem_managementRules hr

theorem nodup_mgmtRules {rule : UInt16 → NftProto → NftRuleSpec}
    (hpo : ∀ port proto, (rule port proto).dport = some port)
    (hp : ∀ port proto, (rule port proto).proto = some proto) : (mgmtRules rule).Nodup := by
  have hk : ((mgmtRules rule).map fun r => (r.dport, r.proto)).Nodup := by
    simp only [mgmtRules, map_flatMap, map_cons, hpo, hp]
    decide
  exact List.Nodup.of_map _ hk

theorem nodup_gatewayRules (config : GatewayConfig) (name : ChainName) :
    (gatewayRules config name).Nodup := by
  cases name with
  | postrouting => exact nodup_singleton _
  | forward => exact (by decide : conntrackRules.Nodup)
  | input =>
    have hla : (mgmtRules (lanRule config)).Nodup :=
      nodup_mgmtRules (fun _ _ => rfl) (fun _ _ => rfl)
    have hta : (mgmtRules tailscaleRule).Nodup :=
      nodup_mgmtRules (fun _ _ => rfl) (fun _ _ => rfl)
    -- the rules of the LAN name an interface, those of Tailscale none
    have hd : (mgmtRules (lanRule config)).Disjoint (mgmtRules tailscaleRule) := by
      intro r hl ht
      obtain ⟨_, -, _, -, rfl⟩ := mem_mgmtRules.1 hl
      obtain ⟨_, -, _, -, h⟩ := mem_mgmtRules.1 ht
      simpa [lanRule, tailscaleRule] using congrArg NftRuleSpec.iifname h
    have hp : ∀ r ∈ mgmtRules (lanRule config) ++ mgmtRules tailscaleRule,
        r.dport ≠ none := by
      intro r hr
      rcases List.mem_append.1 hr with hr | hr
      all_goals
        obtain ⟨port, -, proto, -, rfl⟩ := mem_mgmtRules.1 hr
        simp [lanRule, tailscaleRule]
    refine List.nodup_cons.2 ⟨fun h => ?_, List.nodup_cons.2 ⟨fun h => ?_, ?_⟩⟩
    · rcases List.mem_cons.1 h with h | h
      · simpa [establishedRule, loopbackRule] using congrArg NftRuleSpec.ctState h
      · exact hp _ h rfl
    · exact hp _ h rfl
    · exact List.nodup_append'.2 ⟨hla, hta, hd⟩
  | output => exact nodup_nil
  | prerouting => exact nodup_nil

theorem rules_gatewayKernel (config : GatewayConfig) (k : Kernel) (he : entry ∈ gatewayChains) :
    (gatewayKernel config k).rules entry.1 =
      dropAll NftRuleSpec.comment (some entry.2.1) (k.rules entry.1) ++
        gatewayRules config entry.1 := by
  simp only [gatewayChains, mem_cons, not_mem_nil, or_false] at he
  rcases he with rfl | rfl | rfl
  · cases hp : k.postrouting <;>
      simp [gatewayKernel, basePostrouting, replaceTagged, gatewayRules, Kernel.rules,
        Kernel.chain, hp]
  · rfl
  · cases hi : k.input <;>
      simp [gatewayKernel, baseInput, replaceTagged, gatewayRules, Kernel.rules, Kernel.chain, hi]

def applyAll (debug : String → String) (configs : List GatewayConfig) :
    Prog NftablesGatewayBackend Error Unit :=
  configs.forM fun config => do
    let _ ← apply debug config

theorem ends_applyAll (debug : String → String)
    (hv : ∀ config ∈ configs, config.validate = .ok ()) :
    Ends (fun g => At k g.system) (applyAll debug configs) ()
      fun g => At (configs.foldl (fun k config => gatewayKernel config k) k) g.system := by
  induction configs generalizing k with
  | nil => exact Lib.ends_pure ()
  | cons config configs ih =>
    rw [forall_mem_cons] at hv
    refine Ends.bind ((ends_apply debug hv.1).bind (Lib.ends_pure ())) ?_
    exact fun g hg => ih hv.2 g hg.1

theorem validate_of_apply {g g' : NftablesGatewayBackend}
    {result : GatewayResult} (h : apply debug config g = (.ok result, g')) :
    config.validate = .ok () := by
  unfold apply at h
  cases hv : config.validate with
  | ok u => rfl
  | error e =>
    rw [hv] at h
    cases h

theorem validate_of_applyAll
    {g g' : NftablesGatewayBackend} (h : applyAll debug configs g = (.ok (), g')) :
    ∀ config ∈ configs, config.validate = .ok () := by
  induction configs generalizing g with
  | nil => simp
  | cons config configs ih =>
    have hc : applyAll debug (config :: configs) g =
        ((apply debug config >>= fun _ => pure ()) >>= fun _ => applyAll debug configs) g := rfl
    rw [hc, Lib.prog_bind, Lib.prog_bind] at h
    rcases ha : apply debug config g with ⟨_ | result, g₁⟩
    · rw [ha] at h
      cases h
    · rw [ha] at h
      exact List.forall_mem_cons.2 ⟨validate_of_apply ha, ih h⟩

theorem rules_foldl_gatewayKernel (configs : List GatewayConfig) (last : GatewayConfig) (k : Kernel)
    (he : entry ∈ gatewayChains) :
    ((configs ++ [last]).foldl (fun k config => gatewayKernel config k) k).rules entry.1 =
      dropAll NftRuleSpec.comment (some entry.2.1) (k.rules entry.1) ++
        gatewayRules last entry.1 := by
  induction configs generalizing k with
  | nil => exact rules_gatewayKernel last k he
  | cons config configs ih =>
    rw [cons_append, foldl_cons, ih (gatewayKernel config k), rules_gatewayKernel config k he,
      Lib.dropAll_replace fun _ => comment_of_mem_gatewayRules he]

/-- **What a sequence of applies leaves:** under the tag of each of the gateway's chains the rules
of the last configuration, none twice, and the others as before. -/
theorem applyAll_rules {last : GatewayConfig} {g g' : NftablesGatewayBackend} (hq : g.system.Quiet)
    (hsubnets : ∀ config ∈ configs ++ [last], SubnetReadable config)
    (h : applyAll debug (configs ++ [last]) g = (.ok (), g')) :
    (∀ config ∈ configs ++ [last], RulesReadAsMeant config) ∧ ∀ entry ∈ gatewayChains,
      tagged NftRuleSpec.comment (some entry.2.1) (g'.system.kernel.rules entry.1) =
          gatewayRules last entry.1 ∧ (gatewayRules last entry.1).Nodup ∧
        dropAll NftRuleSpec.comment (some entry.2.1) (g'.system.kernel.rules entry.1) =
          dropAll NftRuleSpec.comment (some entry.2.1) (g.system.kernel.rules entry.1) := by
  have hv := validate_of_applyAll h
  refine ⟨fun config hc => rulesReadAsMeant (hv config hc) (hsubnets config hc), fun entry he => ?_⟩
  obtain ⟨g₁, hr, hk⟩ := ends_applyAll debug hv g ⟨hq, rfl⟩
  rw [h] at hr
  cases hr
  have ht : ∀ r ∈ gatewayRules last entry.1, r.comment = some entry.2.1 :=
    fun _ => comment_of_mem_gatewayRules he
  rw [hk.2, rules_foldl_gatewayKernel configs last g.system.kernel he]
  exact ⟨Lib.tagged_replace ht, nodup_gatewayRules last entry.1, Lib.dropAll_replace ht⟩

def cabinGateway : GatewayConfig :=
  { wanInterface := "eth1", lanInterface := "br0", lanSubnet := "10.0.0.0/24" }

theorem applyAll_cabin_then_home :
    ∃ g', applyAll id ([cabinGateway] ++ [homeGateway]) {} = (.ok (), g') ∧
      (∀ config ∈ [cabinGateway] ++ [homeGateway], RulesReadAsMeant config) ∧
      ∀ entry ∈ gatewayChains,
        tagged NftRuleSpec.comment (some entry.2.1) (g'.system.kernel.rules entry.1) =
            gatewayRules homeGateway entry.1 ∧ (gatewayRules homeGateway entry.1).Nodup ∧
          dropAll NftRuleSpec.comment (some entry.2.1) (g'.system.kernel.rules entry.1) =
            dropAll NftRuleSpec.comment (some entry.2.1) (Kernel.rules {} entry.1) := by
  have hv : ∀ config ∈ [cabinGateway] ++ [homeGateway], config.validate = .ok () := by
    decide +kernel
  obtain ⟨g', hr, -⟩ := ends_applyAll id hv {} ⟨by simp [System.Quiet], rfl⟩
  refine ⟨g', hr, applyAll_rules (by simp [System.Quiet]) ?_ hr⟩
  rw [forall_mem_append, forall_mem_singleton, forall_mem_singleton]
  exact ⟨⟨by decide, by decide +kernel⟩, readable_homeGateway⟩

def strayRule : NftRuleSpec := { verdict := .accept, comment := some gatewayNatTag }

def strayKernel : Kernel := { forward := { rules := [strayRule] } }

/-- A rule under the tag of another chain survives: each chain is searched for its own tag. -/
theorem strayRule_survives_apply :
    ¬∀ (debug : String → String) (configs : List GatewayConfig) (last : GatewayConfig)
      (g g' : NftablesGatewayBackend), g.system.Quiet →
      applyAll debug (configs ++ [last]) g = (.ok (), g') →
      ∀ name ∈ [ChainName.postrouting, .forward, .input],
        (g'.system.kernel.rules name).filter (fun r => GatewayTagged r) =
            gatewayRules last name ∧
          (g'.system.kernel.rules name).filter (fun r => ¬GatewayTagged r) =
            (g.system.kernel.rules name).filter (fun r => ¬GatewayTagged r) := by
  intro h
  have hq : (System.mk strayKernel []).Quiet := by simp [System.Quiet]
  have hv : ∀ config ∈ [] ++ [homeGateway], config.validate = .ok () := by decide +kernel
  obtain ⟨g', hr, hk⟩ := ends_applyAll id hv { system := { kernel := strayKernel } }
    ⟨hq, rfl⟩
  have hf := (h id [] homeGateway _ g' hq hr .forward (by decide)).1
  rw [hk.2] at hf
  revert hf
  decide +kernel

def InputAccepts (k : Kernel) (p : Packet) : Prop :=
  ∀ c, k.chain .input = some c → (c.decides p).1 = .accept

/-- `k'` is as open as `k` was and has nothing of the gateway in it. -/
structure Restored (k k' : Kernel) : Prop where
  accepts : ∀ p, InputAccepts k' p ↔ InputAccepts k p
  untagged : ∀ name, ∀ r ∈ k'.rules name, ¬GatewayTagged r
  forwarding : k'.ipForward = k.ipForward

def undoneKernel (k : Kernel) : Kernel :=
  { k with
    forward := replaceTagged gatewayFwdTag [] k.forward
    postrouting := some (replaceTagged gatewayNatTag [] (basePostrouting k))
    input := some (replaceTagged gatewayMgmtTag [] (baseInput k))
    ipForward := false }

theorem dropAll_rules_replaceTagged {c : Chain} (h : ∀ r ∈ rules, r.comment = some tag) :
    dropAll NftRuleSpec.comment (some tag) (replaceTagged tag rules c).rules =
      (replaceTagged tag [] c).rules := by
  simp only [replaceTagged, Lib.dropAll_replace h, append_nil]

theorem removedKernel_gatewayKernel (config : GatewayConfig) (k : Kernel) :
    removedKernel (gatewayKernel config k) = undoneKernel k := by
  have hn : ∀ r ∈ [masqueradeRule config], r.comment = some gatewayNatTag :=
    fun r hr => by rw [List.mem_singleton.1 hr]; rfl
  have hfw : ∀ r ∈ conntrackRules, r.comment = some gatewayFwdTag := by decide
  have hm : ∀ r ∈ managementRules config, r.comment = some gatewayMgmtTag :=
    fun _ => comment_of_mem_managementRules
  -- the masquerade rule of `apply` is there to be found
  have hf : (found (gatewayKernel config k) gatewayChains).isEmpty = false := by
    have hne : tagged NftRuleSpec.comment (some gatewayNatTag)
        ((gatewayKernel config k).rules .postrouting) ≠ [] := by
      have he : (ChainName.postrouting, gatewayNatTag, "NAT") ∈ gatewayChains := by decide
      have hru : (gatewayKernel config k).rules .postrouting =
          dropAll NftRuleSpec.comment (some gatewayNatTag) (k.rules .postrouting) ++
            [masqueradeRule config] :=
        rules_gatewayKernel config k he
      rw [hru, Lib.tagged_replace hn]
      exact cons_ne_nil _ _
    simp only [gatewayChains, found, if_neg hne]
    rfl
  unfold removedKernel
  rw [hf]
  simp only [gatewayChains, foldl_cons, dropTagged, gatewayKernel, Kernel.chain, Kernel.setChain,
    dropAll_rules_replaceTagged hn, dropAll_rules_replaceTagged hfw, dropAll_rules_replaceTagged hm]
  rfl

def AtHome (name : ChainName) (r : NftRuleSpec) : Prop :=
  ∃ entry ∈ gatewayChains, entry.1 = name ∧ r.comment = some entry.2.1

def decidingRule (rules : List NftRuleSpec) (p : Packet) : Option NftRuleSpec :=
  rules.find? fun r => r.hits p

variable (c : Chain)

/-- It dropped by default, and its tagged rules accepted only what the others do. -/
structure ClosedInput : Prop where
  unmatched : ∀ p, decidingRule c.rules p = none → c.policy = .drop
  standing : ∀ p r, decidingRule c.rules p = some r → r.comment = some gatewayMgmtTag →
    (r.verdict = .accept ↔
      (decidingRule (dropAll NftRuleSpec.comment (some gatewayMgmtTag) c.rules) p).map
        NftRuleSpec.verdict = some .accept)

/-- The kernels on which `remove` undoes `apply`. -/
structure Undoable (k : Kernel) : Prop where
  forwarding : k.ipForward = false
  tags : ∀ name, ∀ r ∈ k.rules name, GatewayTagged r → AtHome name r
  input : ∃ c, k.input = some c ∧ ClosedInput c

theorem decides_accept_iff (p : Packet) : (c.decides p).1 = .accept ↔
      match decidingRule c.rules p with
      | some r => r.verdict = .accept
      | none => c.policy = .accept := by
  unfold Chain.decides firstVerdict Lib.firstMatch decidingRule
  cases c.rules.find? fun r => r.hits p with
  | some r => rfl
  | none => cases c.policy <;> simp [Policy.verdict]

theorem decidingRule_dropAll {p : Packet}
    (h : decidingRule rules p = some r) (hr : r.comment ≠ some tag) :
    decidingRule (dropAll NftRuleSpec.comment (some tag) rules) p = some r := by
  obtain ⟨hit, before, after, rfl, hb⟩ := List.find?_eq_some_iff_append.1 h
  refine List.find?_eq_some_iff_append.2 ⟨hit, dropAll NftRuleSpec.comment (some tag) before,
    dropAll NftRuleSpec.comment (some tag) after, ?_, ?_⟩
  · simp [dropAll, hr]
  · intro a ha
    exact hb a (Lib.mem_dropAll.1 ha).1

theorem decidingRule_dropAll_none {p : Packet} (h : decidingRule rules p = none) :
    decidingRule (dropAll NftRuleSpec.comment (some tag) rules) p = none := by
  unfold decidingRule at h ⊢
  rw [find?_eq_none] at h ⊢
  exact fun r hr => h r (Lib.mem_dropAll.1 hr).1

def undoneInput : Chain :=
  { c with policy := .drop, rules := dropAll NftRuleSpec.comment (some gatewayMgmtTag) c.rules }

/-- **When the input chain they leave accepts what the chain accepted.** -/
theorem accepts_undoneInput_iff :
    (∀ p, ((undoneInput c).decides p).1 = .accept ↔ (c.decides p).1 = .accept) ↔
      ClosedInput c := by
  simp only [decides_accept_iff]
  constructor
  · intro h
    constructor
    · intro p hp
      have hp' := h p
      simp only [undoneInput, hp, decidingRule_dropAll_none hp] at hp'
      cases hc : c.policy with
      | drop => rfl
      | accept => exact absurd (hp'.2 hc) (by decide)
    · intro p r hp hr
      have hp' := h p
      simp only [undoneInput, hp] at hp'
      rw [← hp']
      cases decidingRule (dropAll NftRuleSpec.comment (some gatewayMgmtTag) c.rules) p with
      | none => simp
      | some r' => simp
  · intro h p
    cases hp : decidingRule c.rules p with
    | none =>
      simp only [undoneInput, decidingRule_dropAll_none hp, h.unmatched p hp]
    | some r =>
      by_cases hr : r.comment = some gatewayMgmtTag
      · have hi := h.standing p r hp hr
        simp only [undoneInput, hi]
        cases decidingRule (dropAll NftRuleSpec.comment (some gatewayMgmtTag) c.rules) p with
        | none => simp
        | some r' => simp
      · simp only [undoneInput, decidingRule_dropAll hp hr]

theorem mem_rules_undoneKernel {k : Kernel} {name : ChainName} :
    r ∈ (undoneKernel k).rules name ↔ r ∈ k.rules name ∧ ¬AtHome name r := by
  have hp : (basePostrouting k).rules = k.rules .postrouting := by
    cases h : k.postrouting <;> simp [basePostrouting, Kernel.rules, Kernel.chain, h]
  have hi : (baseInput k).rules = k.rules .input := by
    cases h : k.input <;> simp [baseInput, Kernel.rules, Kernel.chain, h]
  have hd : ∀ (tag : String) (c : Chain), r ∈ (replaceTagged tag [] c).rules ↔
      r ∈ c.rules ∧ r.comment ≠ some tag := by
    simp [replaceTagged, Lib.mem_dropAll]
  cases name with
  | postrouting =>
    rw [show (undoneKernel k).rules .postrouting =
      (replaceTagged gatewayNatTag [] (basePostrouting k)).rules from rfl, hd, hp]
    simp [AtHome, gatewayChains]
  | forward =>
    rw [show (undoneKernel k).rules .forward =
      (replaceTagged gatewayFwdTag [] k.forward).rules from rfl, hd]
    simp [AtHome, gatewayChains, Kernel.rules, Kernel.chain]
  | input =>
    rw [show (undoneKernel k).rules .input =
      (replaceTagged gatewayMgmtTag [] (baseInput k)).rules from rfl, hd, hi]
    simp [AtHome, gatewayChains]
  | output => simp [undoneKernel, Kernel.rules, Kernel.chain, AtHome, gatewayChains]
  | prerouting => simp [undoneKernel, Kernel.rules, Kernel.chain, AtHome, gatewayChains]

theorem untagged_undoneKernel_iff (k : Kernel) :
    (∀ name, ∀ r ∈ (undoneKernel k).rules name, ¬GatewayTagged r) ↔
      ∀ name, ∀ r ∈ k.rules name, GatewayTagged r → AtHome name r := by
  simp only [mem_rules_undoneKernel]
  constructor
  · intro h name r hr ht
    by_contra hh
    exact h name r ⟨hr, hh⟩ ht
  · rintro h name r ⟨hr, hh⟩ ht
    exact hh (h name r hr ht)

theorem accepts_undoneKernel_iff (k : Kernel) :
    (∀ p, InputAccepts (undoneKernel k) p ↔ InputAccepts k p) ↔
      ∃ c, k.input = some c ∧ ClosedInput c := by
  have ha : ∀ p, InputAccepts (undoneKernel k) p ↔
      ((replaceTagged gatewayMgmtTag [] (baseInput k)).decides p).1 = .accept := by
    simp [InputAccepts, undoneKernel, Kernel.chain]
  cases hin : k.input with
  | none =>
    refine iff_of_false (fun h => ?_) (by simp)
    have hp := (h (sshFrom (.ofOctets 198 51 100 9))).2
      (by simp [InputAccepts, Kernel.chain, hin])
    rw [ha, baseInput, hin] at hp
    revert hp
    decide +kernel
  | some c =>
    have hba : replaceTagged gatewayMgmtTag [] (baseInput k) = undoneInput c := by
      simp [replaceTagged, baseInput, undoneInput, hin]
    have hb : ∀ p, InputAccepts k p ↔ (c.decides p).1 = .accept := by
      simp [InputAccepts, Kernel.chain, hin]
    simp only [ha, hba, hb, accepts_undoneInput_iff, Option.some.injEq, exists_eq_left']

/-- **When removing the gateway undoes applying it:** exactly when forwarding was off, every tag
stood in its own chain, and the input hook had a chain that dropped by default. -/
theorem apply_remove_restores_iff (debug : String → String) {config : GatewayConfig}
    (hv : config.validate = .ok ()) (hsubnet : SubnetReadable config)
    {g : NftablesGatewayBackend} (hq : g.system.Quiet) :
    ∃ applied g₁ removed g₂, apply debug config g = (.ok applied, g₁) ∧
      remove g₁ = (.ok removed, g₂) ∧ RulesReadAsMeant config ∧
      (Restored g.system.kernel g₂.system.kernel ↔ Undoable g.system.kernel) := by
  obtain ⟨g₁, hap, hk₁, -⟩ := ends_apply debug hv g ⟨hq, rfl⟩
  obtain ⟨g₂, hr, ⟨-, hk₂⟩, -⟩ := ends_remove g₁ hk₁
  refine ⟨_, g₁, _, g₂, hap, hr, rulesReadAsMeant hv hsubnet, ?_⟩
  rw [hk₂, removedKernel_gatewayKernel]
  constructor
  · rintro ⟨ha, hu, hf⟩
    exact ⟨hf.symm, (untagged_undoneKernel_iff _).1 hu, (accepts_undoneKernel_iff _).1 ha⟩
  · rintro ⟨hf, ht, hi⟩
    exact ⟨(accepts_undoneKernel_iff _).2 hi, (untagged_undoneKernel_iff _).2 ht, hf.symm⟩

theorem closedInput_of_drop {c : Chain} (hpo : c.policy = .drop)
    (hru : ∀ r ∈ c.rules, r.comment ≠ some gatewayMgmtTag) : ClosedInput c :=
  ⟨fun _ _ => hpo, fun _ _ hp hr => absurd hr (hru _ (mem_of_find?_eq_some hp))⟩

def closedHost : Kernel := { input := some { policy := .drop } }

theorem undoable_closedHost : Undoable closedHost where
  forwarding := rfl
  tags := by
    intro name r hr
    cases name <;> simp [closedHost, Kernel.rules, Kernel.chain] at hr
  input := ⟨_, rfl, closedInput_of_drop rfl (by simp)⟩

theorem apply_remove_closedHost_restores :
    ∃ applied g₁ removed g₂, apply id homeGateway { system := { kernel := closedHost } } =
        (.ok applied, g₁) ∧
      remove g₁ = (.ok removed, g₂) ∧ Restored closedHost g₂.system.kernel := by
  obtain ⟨applied, g₁, removed, g₂, ha, hr, -, hi⟩ :=
    apply_remove_restores_iff id (by decide +kernel : homeGateway.validate = .ok ())
      readable_homeGateway (g := { system := { kernel := closedHost } }) (by simp [System.Quiet])
  exact ⟨applied, g₁, removed, g₂, ha, hr, hi.2 undoable_closedHost⟩

/-- On a host that forwards already, forwarding is off after both and the input chain drops all. -/
theorem apply_remove_not_restored :
    ¬∀ (debug : String → String) (config : GatewayConfig) (g : NftablesGatewayBackend),
      config.validate = .ok () → g.system.Quiet →
      ∀ applied g₁ removed g₂, apply debug config g = (.ok applied, g₁) →
        remove g₁ = (.ok removed, g₂) → Restored g.system.kernel g₂.system.kernel := by
  intro h
  have hv : homeGateway.validate = .ok () := by decide +kernel
  have hq : (System.mk { ipForward := true } []).Quiet := by simp [System.Quiet]
  obtain ⟨g₁, ha, hk₁, -⟩ :=
    ends_apply id hv { system := { kernel := { ipForward := true } } } ⟨hq, rfl⟩
  obtain ⟨g₂, hr, ⟨-, hk₂⟩, -⟩ := ends_remove g₁ hk₁
  have hf := (h id homeGateway _ hv hq _ g₁ _ g₂ ha hr).forwarding
  rw [hk₂] at hf
  cases hf

end NftablesGatewayBackend

end BalanSir.Executor
