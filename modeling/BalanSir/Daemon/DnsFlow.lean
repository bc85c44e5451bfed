/-
# From domains to addresses

`FlowCompiler` replaces a rule with a domain by one for each address in the `DnsRegistry`.
-/

import BalanSir.Common.Types
import Mathlib.Data.List.Forall2
import Mathlib.Data.List.Nodup
import Mathlib.Data.List.Pairwise

namespace BalanSir.Daemon

open Common List
open Net (IpAddr)

def derivedRuleId (base : UInt32) (ip : IpAddr) : UInt32 :=
  fnv1a32 ([base.toUInt8, (base >>> 8).toUInt8, (base >>> 16).toUInt8, (base >>> 24).toUInt8]
    ++ ip.toText.toList.map fun c => UInt8.ofNat c.toNat)

/-- `RegistryEntry`: addresses and when they expire; `none` never does. -/
structure RegistryEntry where
  ips : List IpAddr
  expires : Option ℕ := none
  deriving DecidableEq

/-- `DnsRegistry`, by domain in lower case. -/
structure DnsRegistry where
  inner : String → Option RegistryEntry := fun _ => none

namespace DnsRegistry

variable (domain : String)

def insert (ips : List IpAddr) (reg : DnsRegistry) : DnsRegistry where
  inner := Function.update reg.inner domain.toLower (some { ips := ips })

def insertWithTtl (ips : List IpAddr) (ttl now : ℕ) (reg : DnsRegistry) : DnsRegistry where
  inner := Function.update reg.inner domain.toLower
    (some { ips := ips, expires := some (now + ttl) })

def remove (reg : DnsRegistry) : DnsRegistry where
  inner := Function.update reg.inner domain.toLower none

def resolve (now : ℕ) (reg : DnsRegistry) : Option (List IpAddr) × DnsRegistry :=
  match reg.inner domain.toLower with
  | some { ips := ips, expires := some expires } =>
    if expires ≤ now then (none, reg.remove domain) else (some ips, reg)
  | some { ips := ips, expires := none } => (some ips, reg)
  | none => (none, reg)

def view (reg : DnsRegistry) (now : ℕ) (domain : String) : Option (List IpAddr) :=
  (reg.resolve domain now).1

end DnsRegistry

/-- `FlowCompiler`, with the registry it shares. -/
structure FlowCompiler where
  registry : DnsRegistry := {}

def withAddress (rule : DesiredRule) (flow : FlowCriteria) (ip : IpAddr) : DesiredRule where
  id := derivedRuleId rule.id ip
  action := rule.action
  priority := rule.priority
  flow := some { flow with dstIp := some ip, dstDomain := none }

def compileRuleWith (resolve : String → Option (List IpAddr)) (rule : DesiredRule) :
    List DesiredRule :=
  match rule.flow with
  | none => [rule]
  | some flow =>
    match flow.dstDomain with
    | none => [rule]
    | some domain => ((resolve domain).getD []).map (withAddress rule flow)

def compileWith (resolve : String → Option (List IpAddr)) (state : DesiredState) :
    DesiredState where
  rules := state.rules.flatMap (compileRuleWith resolve)
  drivers := state.drivers

namespace FlowCompiler

def compileRule (now : ℕ) (rule : DesiredRule) (c : FlowCompiler) :
    List DesiredRule × FlowCompiler :=
  match rule.flow with
  | none => ([rule], c)
  | some flow =>
    match flow.dstDomain with
    | none => ([rule], c)
    | some domain =>
      match c.registry.resolve domain now with
      | (none, registry) => ([], { registry := registry })
      | (some ips, registry) => (ips.map (withAddress rule flow), { registry := registry })

def compileRules (now : ℕ) : List DesiredRule → FlowCompiler → List DesiredRule × FlowCompiler
  | [], c => ([], c)
  | rule :: rules, c =>
    let (compiled, c) := compileRule now rule c
    let (rest, c) := compileRules now rules c
    (compiled ++ rest, c)

def compile (now : ℕ) (state : DesiredState) (c : FlowCompiler) : DesiredState × FlowCompiler :=
  let (rules, c) := compileRules now state.rules c
  ({ rules := rules, drivers := state.drivers }, c)

end FlowCompiler

namespace DnsRegistry

def fresh (now : ℕ) (entry : RegistryEntry) : Option (List IpAddr) :=
  match entry.expires with
  | some expires => if expires ≤ now then none else some entry.ips
  | none => some entry.ips

theorem view_eq (reg : DnsRegistry) (now : ℕ) (domain : String) :
    reg.view now domain = (reg.inner domain.toLower).bind (fresh now) := by
  unfold view resolve
  rcases reg.inner domain.toLower with _ | ⟨ips, _ | expires⟩
  · rfl
  · rfl
  · by_cases h : expires ≤ now <;> simp [fresh, h]

theorem resolve_eq_self_or_remove (domain : String) (now : ℕ) (reg : DnsRegistry) :
    (reg.resolve domain now).2 = reg ∨
      (reg.view now domain = none ∧ (reg.resolve domain now).2 = reg.remove domain) := by
  unfold view resolve
  rcases reg.inner domain.toLower with _ | ⟨ips, _ | expires⟩
  · exact .inl rfl
  · exact .inl rfl
  · by_cases h : expires ≤ now <;> simp [h]

theorem view_resolve (reg : DnsRegistry) (domain : String) (now : ℕ) {t : ℕ}
    (h : reg.view t = reg.view now) : (reg.resolve domain now).2.view t = reg.view t := by
  rcases resolve_eq_self_or_remove domain now reg with hr | ⟨hn, hr⟩
  · rw [hr]
  · rw [hr]
    funext d
    rw [view_eq]
    by_cases hd : d.toLower = domain.toLower
    · have hd' : reg.view now d = reg.view now domain := by rw [view_eq, view_eq, hd]
      rw [h, hd', hn]
      simp [remove, hd]
    · rw [view_eq]
      simp [remove, hd]

end DnsRegistry

namespace FlowCompiler

theorem compileRule_eq (now : ℕ) (rule : DesiredRule) (c : FlowCompiler) :
    (compileRule now rule c).1 = compileRuleWith (c.registry.view now) rule ∧
      ∀ t, c.registry.view t = c.registry.view now →
        (compileRule now rule c).2.registry.view t = c.registry.view t := by
  unfold compileRule compileRuleWith
  cases rule.flow with
  | none => exact ⟨rfl, fun _ _ => rfl⟩
  | some flow =>
    cases hd : flow.dstDomain with
    | none => simp [hd]
    | some domain =>
      have hv := fun t => c.registry.view_resolve domain now (t := t)
      simp only [hd, DnsRegistry.view]
      rcases hr : c.registry.resolve domain now with ⟨_ | ips, registry⟩
      · exact ⟨rfl, fun t ht => by simpa [hr] using hv t ht⟩
      · exact ⟨rfl, fun t ht => by simpa [hr] using hv t ht⟩

theorem compileRules_eq (now : ℕ) (rules : List DesiredRule) (c : FlowCompiler) :
    (compileRules now rules c).1 = rules.flatMap (compileRuleWith (c.registry.view now)) ∧
      ∀ t, c.registry.view t = c.registry.view now →
        (compileRules now rules c).2.registry.view t = c.registry.view t := by
  induction rules generalizing c with
  | nil => exact ⟨rfl, fun _ _ => rfl⟩
  | cons rule rules ih =>
    obtain ⟨h₁, hv₁⟩ := compileRule_eq now rule c
    obtain ⟨h₂, hv₂⟩ := ih (compileRule now rule c).2
    have hn := hv₁ now rfl
    constructor
    · show (compileRule now rule c).1 ++ (compileRules now rules (compileRule now rule c).2).1 = _
      rw [h₁, h₂, hn, flatMap_cons]
    · intro t ht
      show (compileRules now rules (compileRule now rule c).2).2.registry.view t = _
      rw [hv₂ t (by rw [hv₁ t ht, hn, ht]), hv₁ t ht]

theorem compile_eq (now : ℕ) (state : DesiredState) (c : FlowCompiler) :
    (compile now state c).1 = compileWith (c.registry.view now) state := by
  show DesiredState.mk _ _ = DesiredState.mk _ _
  rw [(compileRules_eq now state.rules c).1]

theorem view_compile {now t : ℕ} (state : DesiredState) {c : FlowCompiler}
    (h : c.registry.view t = c.registry.view now) :
    (compile now state c).2.registry.view t = c.registry.view t :=
  (compileRules_eq now state.rules c).2 t h

end FlowCompiler

section

variable {resolve : String → Option (List IpAddr)} {rule : DesiredRule}

theorem compileRuleWith_of_domain_none (h : rule.domain = none) :
    compileRuleWith resolve rule = [rule] := by
  unfold compileRuleWith
  cases hf : rule.flow with
  | none => rfl
  | some flow =>
    have hd : flow.dstDomain = none := by simpa [DesiredRule.domain, hf] using h
    simp [hd]

theorem mem_compileRuleWith {r : DesiredRule} (h : r ∈ compileRuleWith resolve rule) :
    (rule.domain = none ∧ r = rule) ∨
      ∃ flow domain ips ip, rule.flow = some flow ∧ flow.dstDomain = some domain ∧
        resolve domain = some ips ∧ ip ∈ ips ∧ r = withAddress rule flow ip := by
  unfold compileRuleWith at h
  cases hf : rule.flow with
  | none =>
    rw [hf] at h
    exact .inl ⟨by simp [DesiredRule.domain, hf], List.mem_singleton.1 h⟩
  | some flow =>
    rw [hf] at h
    cases hd : flow.dstDomain with
    | none =>
      simp only [hd] at h
      exact .inl ⟨by simp [DesiredRule.domain, hf, hd], List.mem_singleton.1 h⟩
    | some domain =>
      simp only [hd] at h
      obtain ⟨ip, hip, rfl⟩ := List.mem_map.1 h
      cases hr : resolve domain with
      | none => simp [hr] at hip
      | some ips =>
        exact .inr ⟨flow, domain, ips, ip, rfl, hd, hr, by simpa [hr] using hip, rfl⟩

theorem domainFree_compileWith (state : DesiredState) : (compileWith resolve state).DomainFree := by
  intro r hr
  obtain ⟨rule, -, hr⟩ := List.mem_flatMap.1 hr
  rcases mem_compileRuleWith hr with ⟨hd, rfl⟩ | ⟨flow, _, _, ip, -, -, -, -, rfl⟩
  · exact hd
  · rfl

variable {state : DesiredState}

theorem compileWith_of_domainFree (h : state.DomainFree) : compileWith resolve state = state := by
  have hru : state.rules.flatMap (compileRuleWith resolve) = state.rules := by
    rw [flatMap_congr fun r hr => compileRuleWith_of_domain_none (h r hr)]
    simp
  show DesiredState.mk _ _ = state
  rw [hru]

/-- **Compilation is idempotent**, and its fixed points are the states without domains. -/
theorem compileWith_eq_self_iff : compileWith resolve state = state ↔ state.DomainFree :=
  ⟨fun h => h ▸ domainFree_compileWith state, compileWith_of_domainFree⟩

def resolved (resolve : String → Option (List IpAddr)) (rule : DesiredRule) : List IpAddr :=
  (rule.domain.bind resolve).getD []

def ReplacedBy (resolve : String → Option (List IpAddr)) (rule : DesiredRule)
    (part : List DesiredRule) : Prop :=
  (rule.domain = none → part = [rule]) ∧
    (rule.domain ≠ none → List.Forall₂ (fun ip r =>
      r.action = rule.action ∧ r.priority = rule.priority ∧
        r.flow = rule.flow.map fun flow => { flow with dstIp := some ip, dstDomain := none })
      (resolved resolve rule) part)

def NoCollision (resolve : String → Option (List IpAddr)) (rules : List DesiredRule) : Prop :=
  ∀ rule ∈ rules, ∀ ip ∈ resolved resolve rule,
    (∀ plain ∈ rules, plain.domain = none → derivedRuleId rule.id ip ≠ plain.id) ∧
    ∀ rule' ∈ rules, ∀ ip' ∈ resolved resolve rule',
      derivedRuleId rule.id ip = derivedRuleId rule'.id ip' → rule = rule' ∧ ip = ip'

instance (resolve : String → Option (List IpAddr)) (rules : List DesiredRule) :
    Decidable (NoCollision resolve rules) :=
  List.decidableBAll _ _

theorem resolved_of_domain_none (h : rule.domain = none) : resolved resolve rule = [] := by
  rw [resolved, h]
  rfl

variable (resolve) in
theorem compileRuleWith_of_domain (h : rule.domain ≠ none) : ∃ flow, rule.flow = some flow ∧
      compileRuleWith resolve rule = (resolved resolve rule).map (withAddress rule flow) := by
  unfold compileRuleWith resolved DesiredRule.domain at *
  cases hf : rule.flow with
  | none =>
    rw [hf] at h
    exact absurd rfl h
  | some flow =>
    rw [hf, Option.bind_some] at h
    obtain ⟨domain, hd⟩ := Option.ne_none_iff_exists'.1 h
    exact ⟨flow, rfl, by simp only [Option.bind_some, hd]⟩

theorem replacedBy_compileRuleWith (rule : DesiredRule) :
    ReplacedBy resolve rule (compileRuleWith resolve rule) := by
  constructor
  · exact compileRuleWith_of_domain_none
  · intro h
    obtain ⟨flow, hf, hc⟩ := compileRuleWith_of_domain resolve h
    rw [hc, hf, forall₂_map_right_iff, forall₂_same]
    exact fun ip _ => ⟨rfl, rfl, rfl⟩

theorem ids_compileRuleWith (rule : DesiredRule) : (compileRuleWith resolve rule).map (·.id) =
      if rule.domain = none then [rule.id]
      else (resolved resolve rule).map (derivedRuleId rule.id) := by
  split_ifs with h
  · rw [compileRuleWith_of_domain_none h, map_singleton]
  · obtain ⟨flow, -, hc⟩ := compileRuleWith_of_domain resolve h
    rw [hc, map_map]
    simp only [Function.comp_def, withAddress]

theorem mem_ids_compileRuleWith {id : UInt32} :
    id ∈ (compileRuleWith resolve rule).map (·.id) ↔ (rule.domain = none ∧ id = rule.id) ∨
        ∃ ip ∈ resolved resolve rule, derivedRuleId rule.id ip = id := by
  rw [ids_compileRuleWith]
  split_ifs with h
  · simp [h, resolved_of_domain_none h]
  · simp [h]

theorem distinctIds_compileWith_iff (hd : state.DistinctIds) :
    (compileWith resolve state).DistinctIds ↔
      (∀ rule ∈ state.rules, ((compileRuleWith resolve rule).map (·.id)).Nodup) ∧
      ∀ rule ∈ state.rules, ∀ rule' ∈ state.rules, rule ≠ rule' →
        ((compileRuleWith resolve rule).map (·.id)).Disjoint
          ((compileRuleWith resolve rule').map (·.id)) := by
  show ((state.rules.flatMap (compileRuleWith resolve)).map (·.id)).Nodup ↔ _
  rw [map_flatMap, nodup_flatMap]
  refine and_congr_right fun _ => ⟨fun h rule hr rule' hr' hne => ?_, fun h => ?_⟩
  · have : Std.Symm (Function.onFun List.Disjoint
        fun rule => (compileRuleWith resolve rule).map (·.id)) :=
      ⟨fun _ _ h id hid hid' => h hid' hid⟩
    exact h.forall hr hr' hne
  · exact (List.Nodup.of_map _ hd).pairwise_of_forall_ne h

theorem distinctIds_compileWith (hd : state.DistinctIds)
    (hi : ∀ rule ∈ state.rules, (resolved resolve rule).Nodup) :
    (compileWith resolve state).DistinctIds ↔ NoCollision resolve state.rules := by
  rw [distinctIds_compileWith_iff hd]
  constructor
  · rintro ⟨hs, ho⟩ rule hr ip hip
    have hm : derivedRuleId rule.id ip ∈ (compileRuleWith resolve rule).map (·.id) :=
      mem_ids_compileRuleWith.2 (.inr ⟨ip, hip, rfl⟩)
    constructor
    · intro plain hp hn hid
      have hne : rule ≠ plain := by
        rintro rfl
        rw [resolved_of_domain_none hn] at hip
        exact absurd hip not_mem_nil
      exact ho rule hr plain hp hne hm (mem_ids_compileRuleWith.2 (.inl ⟨hn, hid⟩))
    · intro rule' hr' ip' hip' hid
      by_cases hru : rule = rule'
      · subst hru
        have hdo : rule.domain ≠ none := by
          intro hn
          rw [resolved_of_domain_none hn] at hip
          exact absurd hip not_mem_nil
        have hno := hs rule hr
        rw [ids_compileRuleWith, if_neg hdo] at hno
        exact ⟨rfl, inj_on_of_nodup_map hno hip hip' hid⟩
      · exact absurd (mem_ids_compileRuleWith.2 (.inr ⟨ip', hip', hid.symm⟩))
          (ho rule hr rule' hr' hru hm)
  · intro h
    constructor
    · intro rule hr
      rw [ids_compileRuleWith]
      split_ifs
      · exact nodup_singleton _
      · exact (hi rule hr).map_on fun ip hip ip' hip' hid =>
          ((h rule hr ip hip).2 rule hr ip' hip' hid).2
    · intro rule hr rule' hr' hne id hid hid'
      rcases mem_ids_compileRuleWith.1 hid with ⟨hn, rfl⟩ | ⟨ip, hip, rfl⟩
      · rcases mem_ids_compileRuleWith.1 hid' with ⟨-, hid⟩ | ⟨ip', hip', hid⟩
        · exact hne (inj_on_of_nodup_map hd hr hr' hid)
        · exact (h rule' hr' ip' hip').1 rule hr hn hid
      · rcases mem_ids_compileRuleWith.1 hid' with ⟨hn, hid⟩ | ⟨ip', hip', hid⟩
        · exact (h rule hr ip hip).1 rule' hr' hn hid
        · exact hne ((h rule hr ip hip).2 rule' hr' ip' hip' hid.symm).1

end

theorem DnsRegistry.nodup_view {reg : DnsRegistry}
    (hr : ∀ domain entry, reg.inner domain = some entry → entry.ips.Nodup) (now : ℕ)
    (rule : DesiredRule) : (resolved (reg.view now) rule).Nodup := by
  unfold resolved
  cases hi : rule.domain.bind (reg.view now) with
  | none => exact nodup_nil
  | some ips =>
    obtain ⟨domain, -, hv⟩ := Option.bind_eq_some_iff.1 hi
    rw [DnsRegistry.view_eq] at hv
    obtain ⟨entry, hen, hf⟩ := Option.bind_eq_some_iff.1 hv
    have hs : some entry.ips = some ips := by
      rw [← hf]
      unfold DnsRegistry.fresh at hf ⊢
      split at hf
      · split_ifs at hf with he
        rw [if_neg he]
      · rfl
    rw [← Option.some.inj hs]
    exact hr _ entry hen

/-- **When the compiled ids are distinct**: exactly when no derived id is that of another pair of
rule and address or of a rule without a domain. -/
theorem compile_distinct_iff (now : ℕ) {state : DesiredState} (c : FlowCompiler)
    (hd : state.DistinctIds)
    (hreg : ∀ domain entry, c.registry.inner domain = some entry → entry.ips.Nodup) :
    ((c.compile now state).1.DistinctIds ∧
      ∃ parts, (c.compile now state).1.rules = parts.flatten ∧
        List.Forall₂ (ReplacedBy (c.registry.view now)) state.rules parts) ↔
      NoCollision (c.registry.view now) state.rules := by
  rw [FlowCompiler.compile_eq, distinctIds_compileWith hd fun rule _ =>
    DnsRegistry.nodup_view hreg now rule, and_iff_left_iff_imp]
  refine fun _ => ⟨state.rules.map (compileRuleWith (c.registry.view now)), ?_, ?_⟩
  · exact flatMap_def ..
  · rw [forall₂_map_right_iff, forall₂_same]
    exact fun rule _ => replacedBy_compileRuleWith rule

def exampleCompiler : FlowCompiler where
  registry := DnsRegistry.insert "api.example.com"
    [.ofOctets 203 0 113 5, .ofOctets 203 0 113 6] {}

theorem nodup_exampleCompiler (domain : String) (entry : RegistryEntry)
    (h : exampleCompiler.registry.inner domain = some entry) : entry.ips.Nodup := by
  simp only [exampleCompiler, DnsRegistry.insert, Function.update_apply] at h
  split_ifs at h
  cases h
  decide

def blockExample : DesiredRule where
  id := 7
  action := .block
  priority := 100
  flow := some { dstDomain := some "api.example.com" }

theorem blockExample_distinct :
    (exampleCompiler.compile 0 { rules := [blockExample] }).1.DistinctIds :=
  ((compile_distinct_iff 0 exampleCompiler (by decide) nodup_exampleCompiler).2
    (by decide +kernel)).1

/-- Beside a rule that is authored with the hash of the rule and the address as its id. -/
theorem blockExample_not_distinct :
    DesiredState.DistinctIds { rules := [blockExample, ⟨3204893363, .allow, 1, none⟩] } ∧
      ¬(exampleCompiler.compile 0
        { rules := [blockExample, ⟨3204893363, .allow, 1, none⟩] }).1.DistinctIds := by
  decide +kernel

end BalanSir.Daemon
