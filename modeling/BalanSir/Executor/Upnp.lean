/-
# UPnP port mappings

`NftablesExecutor::upnp_op`: a mapping is a DNAT rule of the prerouting chain, found again by a
comment of its port and protocol. The calls are compared with a map from port and protocol to the
target.
-/

import BalanSir.Executor.Chains
import BalanSir.Executor.Words
import BalanSir.Lib.Run

namespace BalanSir.Executor

open Kernel Executor.System

open Common (Error UpnpOp UpnpOpResult)
open Lib (Prog EndedIn Triple tagged dropFirst Along)
open NftablesBackend

namespace NftablesExecutor

def upnpRuleTag : String := "balansir:upnp"

def validateUpnpMapping (externalPort : UInt16) (proto internalIp : String)
    (internalPort : UInt16) : Except Error Unit :=
  if externalPort = 0 ∨ internalPort = 0 then
    .error (.misconfiguration "UPnP: port 0 is not a valid mapping")
  else
    match Net.IpAddr.ofText internalIp with
    | none => .error (.misconfiguration ("UPnP: invalid internal IP " ++ internalIp))
    | some addr =>
      if addr.isLoopback || addr.isMulticast || addr.isUnspecified then
        .error (.misconfiguration
          ("UPnP: refused mapping to unusable internal IP " ++ internalIp))
      else if proto.toLower ≠ "tcp" ∧ proto.toLower ≠ "udp" then
        .error (.misconfiguration ("UPnP: unsupported proto " ++ proto.toLower))
      else .ok ()

def upnpComment (externalPort : UInt16) (proto : String) : String :=
  upnpRuleTag ++ ":" ++ toString externalPort ++ ":" ++ proto

def upnpRule (externalPort : UInt16) (proto : String) (addr : BitVec 32) (internalPort : UInt16)
    (wanInterface : String) : NftRuleSpec :=
  { proto := some (if proto = "tcp" then .tcp else .udp), dport := some externalPort,
    iifname := some wanInterface, verdict := .dnat addr internalPort,
    comment := some (upnpComment externalPort proto) }

def preroutingHook : List String := ["type", "nat", "hook", "prerouting", "priority", "0", ";"]

def listChain (name : ChainName) : Prog System Error (List NftRuleSpec) :=
  System.nft ("nft list chain " ++ name.toText ++ " failed: ") (Kernel.list name)

def countUpnpRules : Prog System Error UInt32 := do
  let rules ← Lib.mapError (fun e => .fatal ("UPnP chain list: " ++ e.toText))
    (listChain .prerouting)
  return UInt32.ofNat (rules.countP fun r => r.render.any (containsText upnpRuleTag))

def installMapping (externalPort : UInt16) (proto internalIp : String) (addr : BitVec 32)
    (internalPort : UInt16) (wanInterface : String) : Prog System Error UpnpOpResult := do
  addRuleToChain .prerouting (upnpRule externalPort proto addr internalPort wanInterface)
  let installed ← countUpnpRules
  return { installed := installed
           detail := proto ++ " " ++ wanInterface ++ ":" ++ toString externalPort ++ " -> "
             ++ internalIp ++ ":" ++ toString internalPort }

def replaceMapping (externalPort : UInt16) (proto internalIp : String) (internalPort : UInt16)
    (wanInterface : String) : Prog System Error UpnpOpResult := do
  removeRuleByCommentInChain .prerouting (upnpComment externalPort proto)
  match Net.ipv4OfText internalIp with
  | none => throw (.misconfiguration ("UPnP: internal IP " ++ internalIp
      ++ " is not IPv4: invalid IPv4 address syntax"))
  | some addr => installMapping externalPort proto internalIp addr internalPort wanInterface

def upnpOp : UpnpOp → Prog System Error UpnpOpResult
  | .addPortMapping externalPort proto internalIp internalPort wanInterface =>
    match validateUpnpMapping externalPort proto internalIp internalPort with
    | .error e => throw e
    | .ok () => do
      ensureHookedChain .prerouting preroutingHook
      replaceMapping externalPort proto.toLower internalIp internalPort wanInterface
  | .removePortMapping externalPort proto _ => do
    removeRuleByCommentInChain .prerouting (upnpComment externalPort proto.toLower)
    let installed ← countUpnpRules
    return { installed := installed
             detail := "removed " ++ proto.toLower ++ ":" ++ toString externalPort }
  | .removeAll => do
    removeRuleByCommentInChain .prerouting upnpRuleTag
    return { installed := 0, detail := "all UPnP mappings removed" }

structure MappingKey where
  port : UInt16
  proto : NftProto
  deriving DecidableEq

structure MappingTarget where
  addr : BitVec 32
  port : UInt16
  wanInterface : String
  deriving DecidableEq

abbrev Mappings : Type := MappingKey → Option MappingTarget

def protoOfText : String → Option NftProto
  | "tcp" => some .tcp
  | "udp" => some .udp
  | _ => none

def Mappings.after (m : Mappings) : UpnpOp → Mappings
  | .addPortMapping externalPort proto internalIp internalPort wanInterface =>
    match protoOfText proto.toLower, Net.ipv4OfText internalIp with
    | some p, some addr =>
      Function.update m ⟨externalPort, p⟩ (some ⟨addr, internalPort, wanInterface⟩)
    | _, _ => m
  | .removePortMapping externalPort proto _ =>
    match protoOfText proto.toLower with
    | some p => Function.update m ⟨externalPort, p⟩ none
    | none => m
  | .removeAll => fun _ => none

def MappingKey.comment (key : MappingKey) : String := upnpComment key.port key.proto.toText

def MappingKey.rule (key : MappingKey) (target : MappingTarget) : NftRuleSpec :=
  upnpRule key.port key.proto.toText target.addr target.port target.wanInterface

def IsDnat (r : NftRuleSpec) : Prop := ∃ addr port, r.verdict = .dnat addr port

/-- The rule of each mapping stands under its comment, once, and there is no other DNAT rule. -/
structure Refines (m : Mappings) (rules : List NftRuleSpec) : Prop where
  mapped : ∀ key, tagged NftRuleSpec.comment (some key.comment) rules =
    ((m key).map key.rule).toList
  only : ∀ r ∈ rules, IsDnat r → ∃ key : MappingKey, r.comment = some key.comment

theorem toList_upnpComment (port : UInt16) (proto : String) : (upnpComment port proto).toList =
      "balansir:upnp:".toList ++ (Nat.toDigits 10 port.toNat ++ ':' :: proto.toList) := by
  have hp : (toString port).toList = Nat.toDigits 10 port.toNat := Nat.toList_repr
  simp [upnpComment, upnpRuleTag, hp]

variable {proto : String}

theorem upnpComment_inj {port port' : UInt16} {proto' : String}
    (h : upnpComment port proto = upnpComment port' proto') : port = port' ∧ proto = proto' := by
  have hl := congrArg String.toList h
  rw [toList_upnpComment, toList_upnpComment, List.append_cancel_left_eq] at hl
  have hdi : ∀ (port : UInt16) (rest : List Char),
      (Nat.toDigits 10 port.toNat ++ ':' :: rest).takeWhile Char.isDigit =
        Nat.toDigits 10 port.toNat := by
    intro port rest
    rw [List.takeWhile_append_of_pos fun c hc =>
      Nat.isDigit_of_mem_toDigits (by decide) (by decide) hc]
    simp
  have hp : port = port' := by
    have hd := congrArg (List.takeWhile Char.isDigit) hl
    rw [hdi, hdi] at hd
    have hn := congrArg (Nat.ofDigitChars 10 · 0) hd
    simp only [Nat.ofDigitChars_ten_toDigits] at hn
    exact UInt16.toNat_inj.1 hn
  subst hp
  rw [List.append_cancel_left_eq, List.cons_inj_right] at hl
  exact ⟨rfl, String.toList_inj.1 hl⟩

theorem MappingKey.comment_injective : Function.Injective MappingKey.comment := by
  rintro ⟨port, proto⟩ ⟨port', proto'⟩ h
  have ht : ∀ p q : NftProto, p.toText = q.toText → p = q := by
    intro p q
    cases p <;> cases q <;> decide
  obtain ⟨hpo, hp⟩ := upnpComment_inj h
  rw [MappingKey.mk.injEq]
  exact ⟨hpo, ht _ _ hp⟩

theorem MappingKey.comment_ne_tag (key : MappingKey) : key.comment ≠ upnpRuleTag := by
  intro h
  have hl := congrArg (fun t => t.toList.length) h
  simp only [MappingKey.comment, toList_upnpComment] at hl
  simp [upnpRuleTag] at hl

theorem comment_rule (key : MappingKey) (target : MappingTarget) :
    (key.rule target).comment = some key.comment := rfl

/-- A name that is one quoted word, and no tag. -/
def ProperName (name : String) : Prop := '"' ∉ name.toList ∧ ':' ∉ name.toList

theorem MappingKey.quote_notMem_comment (key : MappingKey) : '"' ∉ key.comment.toList := by
  rw [MappingKey.comment, toList_upnpComment]
  simp only [List.mem_append, List.mem_cons, not_or]
  refine ⟨by decide, fun h => ?_, by decide, by cases key.proto <;> decide⟩
  exact absurd (Nat.isDigit_of_mem_toDigits (by decide) (by decide) h) (by decide)

theorem listed_rule (key : MappingKey) {target : MappingTarget}
    (h : ProperName target.wanInterface) : (key.rule target).Listed where
  unquoted := by simp [MappingKey.rule, upnpRule]
  quoted := by
    intro text ht
    simp only [MappingKey.rule, upnpRule, List.mem_cons, Option.some.injEq, reduceCtorEq,
      List.not_mem_nil, or_false, false_or] at ht
    rcases ht with rfl | rfl
    · exact h.1
    · exact key.quote_notMem_comment
  verdict := by simp [MappingKey.rule, upnpRule]
  named := by simpa [MappingKey.rule, upnpRule] using h.2

variable {p : NftProto}

theorem toText_of_protoOfText {text : String} (h : protoOfText text = some p) :
    p.toText = text := by
  unfold protoOfText at h
  split at h
  · cases h
    rfl
  · cases h
    rfl
  · cases h

variable {externalPort : UInt16}

theorem protoOfText_of_validate {internalPort : UInt16} {internalIp : String}
    (h : validateUpnpMapping externalPort proto internalIp internalPort = .ok ()) :
    ∃ p, protoOfText proto.toLower = some p := by
  unfold validateUpnpMapping at h
  split at h
  · cases h
  split at h
  · cases h
  split at h
  · cases h
  split at h
  · cases h
  rename_i hpr
  rw [not_and_or, not_ne_iff, not_ne_iff] at hpr
  rcases hpr with hp | hp <;> rw [hp]
  · exact ⟨.tcp, rfl⟩
  · exact ⟨.udp, rfl⟩

variable {m : Mappings} {rules : List NftRuleSpec}

theorem Refines.add (h : Refines m rules) {key : MappingKey} (hk : m key = none)
    (target : MappingTarget) :
    Refines (Function.update m key (some target)) (rules ++ [key.rule target]) where
  mapped := by
    intro other
    by_cases ho : other = key
    · subst ho
      rw [Lib.tagged_append_self (comment_rule other target), h.mapped, hk, Function.update_self]
      rfl
    · have hne : (key.rule target).comment ≠ some other.comment := fun e =>
        ho (MappingKey.comment_injective (Option.some.inj e)).symm
      rw [Lib.tagged_append_of_ne hne, h.mapped, Function.update_of_ne ho]
  only := by
    intro r hr hd
    rcases List.mem_append.1 hr with hr | hr
    · exact h.only r hr hd
    · rw [List.mem_singleton.1 hr]
      exact ⟨key, comment_rule key target⟩

theorem Refines.drop (h : Refines m rules) (key : MappingKey) : Refines (Function.update m key none)
      (dropFirst NftRuleSpec.comment (some key.comment) rules) where
  mapped := by
    intro other
    by_cases ho : other = key
    · subst ho
      rw [Lib.tagged_dropFirst_self, h.mapped, Function.update_self]
      cases m other <;> rfl
    · have hne : some key.comment ≠ some other.comment := fun e =>
        ho (MappingKey.comment_injective (Option.some.inj e)).symm
      rw [Lib.tagged_dropFirst_of_ne hne, h.mapped, Function.update_of_ne ho]
  only := fun r hr => h.only r (Lib.mem_of_mem_dropFirst hr)

theorem Refines.drop_other (h : Refines m rules) {comment : String}
    (hc : ∀ key : MappingKey, key.comment ≠ comment) :
    Refines m (dropFirst NftRuleSpec.comment (some comment) rules) where
  mapped := by
    intro key
    rw [Lib.tagged_dropFirst_of_ne fun e => hc key (Option.some.inj e).symm, h.mapped]
  only := fun r hr => h.only r (Lib.mem_of_mem_dropFirst hr)

theorem Refines.isSome_iff (h : Refines m rules) (key : MappingKey) :
    tagged NftRuleSpec.comment (some key.comment) rules ≠ [] ↔ (m key).isSome := by
  rw [h.mapped]
  cases m key <;> simp

/-- A call, and how the commands it runs end. -/
structure UpnpCall where
  op : UpnpOp
  outcomes : List CmdOutcome := []
  deriving DecidableEq

namespace UpnpCall

def system (c : UpnpCall) (k : Kernel) : System := { kernel := k, outcomes := c.outcomes }

def outcome (c : UpnpCall) (i : ℕ) : CmdOutcome := c.outcomes[i]?.getD .done

def CarriedOutFrom (c : UpnpCall) (i : ℕ) : Prop :=
  c.outcome i = .done → ∀ j, i < j → c.outcome j = .done

def Quiet (c : UpnpCall) : Prop := ∀ o ∈ c.outcomes, o = .done

/-- The WAN interface of an added mapping is written into the rule as it is. -/
def Named (c : UpnpCall) : Prop :=
  match c.op with
  | .addPortMapping _ _ _ _ wanInterface => ProperName wanInterface
  | _ => True

def Mapped (m : Mappings) (externalPort : UInt16) (proto : String) : Prop :=
  ∃ p, protoOfText proto.toLower = some p ∧ (m ⟨externalPort, p⟩).isSome = true

/-- The mapping can be found again and no `nft` command fails where it counts. -/
def Fits (c : UpnpCall) (m : Mappings) : Prop :=
  match c.op with
  | .addPortMapping externalPort proto internalIp internalPort _ =>
    validateUpnpMapping externalPort proto internalIp internalPort = .ok () →
      (Mapped m externalPort proto →
        (Net.ipv4OfText internalIp).isSome = true ∧ ¬ReportedMissing (c.outcome 1)) ∧
      c.CarriedOutFrom 2
  | .removePortMapping externalPort proto _ =>
    Mapped m externalPort proto → ¬ReportedMissing (c.outcome 0) ∧ c.CarriedOutFrom 1
  | .removeAll => ∀ key, m key = none

def step (c : UpnpCall) (w : Kernel × Mappings) : Kernel × Mappings :=
  match upnpOp c.op (c.system w.1) with
  | (.ok _, s) => (s.kernel, w.2.after c.op)
  | (.error _, s) => (s.kernel, w.2)

def Refined (w : Kernel × Mappings) : Prop := Refines w.2 (w.1.rules .prerouting)

theorem refined_step {c : UpnpCall} {k : Kernel} {m : Mappings}
    (h : EndedIn (fun _ s => Refines (m.after c.op) (s.kernel.rules .prerouting))
      (fun s => Refines m (s.kernel.rules .prerouting)) (upnpOp c.op (c.system k))) :
    Refined (c.step (k, m)) := by
  unfold step
  rcases hr : upnpOp c.op (c.system k) with ⟨_ | result, s⟩ <;> rw [hr] at h
  · exact h
  · exact h

theorem ensurePrerouting_cases (s : System) :
    ∃ result k, ensureHookedChain .prerouting preroutingHook s = (result, s.after k) ∧
      k.rules = s.kernel.rules := by
  have hs : splitPolicy none preroutingHook = (none, preroutingHook) := by decide
  unfold ensureHookedChain createIfAbsent
  rw [hs]
  simp only [Lib.prog_bind]
  rcases nftTolerating_cases ["File exists"] ("nft create " ++ "chain" ++ " failed: ")
    (Kernel.addChain .prerouting (hookText preroutingHook)) s with
    ⟨a, k, hc, h⟩ | ⟨h, -⟩ | ⟨e, h⟩ <;> rw [h]
  · exact ⟨_, k, rfl, rules_addChain hc⟩
  · exact ⟨_, s.kernel, rfl, rfl⟩
  · exact ⟨_, s.kernel, rfl, rfl⟩

theorem countUpnpRules_cases (s : System) : (∃ n, countUpnpRules s = (.ok n, s.after s.kernel)) ∨
      (∃ e, countUpnpRules s = (.error e, s.after s.kernel)) ∧
        (s.outcome 0 = .done → s.kernel.chain .prerouting = none) := by
  unfold countUpnpRules
  rw [Lib.prog_bind, Lib.mapError]
  rcases nft_result ("nft list chain " ++ ChainName.prerouting.toText ++ " failed: ")
    (Kernel.list .prerouting) s with ⟨-, rules, k, hk, hn⟩ | ⟨⟨e, hn⟩, ho⟩
  · obtain ⟨_, -, -, rfl⟩ := list_eq_ok hk
    rw [listChain, hn]
    exact .inl ⟨_, rfl⟩
  · rw [listChain, hn]
    refine .inr ⟨⟨_, rfl⟩, fun hd => ?_⟩
    obtain ⟨stderr, he⟩ := ho hd
    exact chain_of_list_error he

variable {addr : BitVec 32}

theorem installMapping_ended {internalIp : String} {internalPort : UInt16}
    {wanInterface : String} {s : System} (hco : s.outcome 0 = .done → s.outcome 1 = .done) :
    EndedIn (fun _ s' => s'.kernel.rules .prerouting = s.kernel.rules .prerouting ++
        [upnpRule externalPort proto addr internalPort wanInterface])
      (fun s' => s'.kernel = s.kernel ∧
        (s.outcome 0 = .done → s.kernel.chain .prerouting = none))
      (installMapping externalPort proto internalIp addr internalPort wanInterface s) := by
  unfold installMapping
  rw [Lib.prog_bind, addRuleToChain]
  rcases nft_result ("nft add rule to " ++ ChainName.prerouting.toText ++ " failed: ")
    (Kernel.add .prerouting (upnpRule externalPort proto addr internalPort wanInterface)) s with
    ⟨ho, _, k, hk, hn⟩ | ⟨⟨e, hn⟩, ho⟩ <;> rw [hn]
  · have hr := rules_modifyRules hk
    have hch : k.chain .prerouting ≠ none := by
      intro hc
      have hni : k.rules .prerouting = [] := by simp [Kernel.rules, hc]
      rw [hr] at hni
      exact absurd hni (by simp)
    simp only [Lib.prog_bind]
    rcases countUpnpRules_cases (s.after k) with ⟨n, hn⟩ | ⟨-, hno⟩
    · rw [hn]
      show k.rules .prerouting = _
      rw [hr, Function.update_self]
    · exact absurd (hno (by rw [outcome_after]; exact hco ho)) hch
  · refine ⟨rfl, fun hd => ?_⟩
    obtain ⟨stderr, he⟩ := ho hd
    exact chain_of_modifyRules_error he

variable {c : UpnpCall} {k : Kernel} {m : Mappings} {key : MappingKey} {s : System}
  {internalIp : String} {internalPort : UInt16} {wanInterface : String}

theorem refined_install (key : MappingKey)
    (h : Refines (Function.update m key none) (s.kernel.rules .prerouting))
    (hc : s.outcome 0 = .done → s.outcome 1 = .done) :
    EndedIn (fun _ s' => Refines (Function.update m key (some ⟨addr, internalPort, wanInterface⟩))
        (s'.kernel.rules .prerouting)) (fun s' => s'.kernel = s.kernel ∧
        (s.outcome 0 = .done → s.kernel.chain .prerouting = none))
      (installMapping key.port key.proto.toText internalIp addr internalPort wanInterface s) := by
  refine (installMapping_ended hc).imp (fun _ s' hr => ?_) fun _ hs => hs
  have ha := h.add (Function.update_self key none m) ⟨addr, internalPort, wanInterface⟩
  rw [Function.update_idem] at ha
  rw [hr]
  exact ha

theorem remove_mapping_cases (key : MappingKey) (hR : Refines m (s.kernel.rules .prerouting))
    (hl : (m key).isSome → ¬ReportedMissing (s.outcome 0)) :
    (∃ e s', removeRuleByCommentInChain .prerouting key.comment s = (.error e, s') ∧
        s'.kernel = s.kernel) ∨
      (removeRuleByCommentInChain .prerouting key.comment s = (.ok (), s.after s.kernel) ∧
        m key = none) ∨ (s.outcome 1 = .done ∧ (m key).isSome ∧ ∃ ch,
        removeRuleByCommentInChain .prerouting key.comment s =
          (.ok (), (s.after s.kernel).after (s.kernel.setChain .prerouting ch)) ∧
        Refines (Function.update m key none) ch.rules) := by
  rcases removeRuleByCommentInChain_cases .prerouting key.comment s with
    ⟨removed, h, hn⟩ | ⟨-, e, h⟩ | ⟨hd, ch, hc, ht, h⟩
  · cases removed with
    | error e => exact .inl ⟨e, _, h, rfl⟩
    | ok u =>
      refine .inr (.inl ⟨h, ?_⟩)
      by_contra hs
      have hs : (m key).isSome := Option.isSome_iff_ne_none.2 hs
      rcases hn rfl with hni | hm
      · exact (hR.isSome_iff key).2 hs hni
      · exact hl hs hm
  · exact .inl ⟨e, _, h, rfl⟩
  · rw [← rules_of_chain hc] at ht
    refine .inr (.inr ⟨hd, (hR.isSome_iff key).1 ht, _, h, ?_⟩)
    have hdr := hR.drop key
    rwa [rules_of_chain hc] at hdr

theorem refined_replace (key : MappingKey) (internalIp : String) (internalPort : UInt16)
    (wanInterface : String) (hR : Refines m (s.kernel.rules .prerouting)) (hma : (m key).isSome →
      (Net.ipv4OfText internalIp).isSome ∧ ¬ReportedMissing (s.outcome 0))
    (hl : s.outcome 1 = .done → ∀ j, 1 < j → s.outcome j = .done) :
    EndedIn (fun _ s' => ∃ addr, Net.ipv4OfText internalIp = some addr ∧
        Refines (Function.update m key (some ⟨addr, internalPort, wanInterface⟩))
          (s'.kernel.rules .prerouting)) (fun s' => Refines m (s'.kernel.rules .prerouting))
      (replaceMapping key.port key.proto.toText internalIp internalPort wanInterface s) := by
  unfold replaceMapping
  rw [Lib.prog_bind]
  rcases remove_mapping_cases key hR (fun hso => (hma hso).2) with
    ⟨e, s', h, hk⟩ | ⟨h, hn⟩ | ⟨hd, hso, ch, h, hR'⟩ <;>
    rw [show upnpComment key.port key.proto.toText = key.comment from rfl, h]
  · show Refines m _
    rw [hk]
    exact hR
  · have hR' : Refines (Function.update m key none) (s.kernel.rules .prerouting) := by
      rwa [← hn, Function.update_eq_self]
    cases ha : Net.ipv4OfText internalIp with
    | none => exact hR
    | some addr =>
      refine (refined_install key (s := s.after s.kernel) hR' fun ho => ?_).imp
        (fun _ _ hs => ⟨addr, rfl, hs⟩) fun s' hs => ?_
      · rw [outcome_after] at ho ⊢
        exact hl ho 2 (by omega)
      · rw [hs.1]
        exact hR
  · -- the old rule is gone, and the rest of the call is carried out
    obtain ⟨addr, ha⟩ := Option.isSome_iff_exists.1 (hma hso).1
    simp only [ha]
    refine (refined_install key (by
      rwa [kernel_after, rules_setChain]) fun _ => ?_).imp
      (fun _ _ hs => ⟨addr, rfl, hs⟩) fun s' hs => ?_
    · simp only [outcome_after]
      exact hl hd 3 (by omega)
    · have hm := hs.2 (by
        simp only [outcome_after]
        exact hl hd 2 (by omega))
      cases hm

theorem refined_add (hR : Refines m (k.rules .prerouting))
    (hop : c.op = .addPortMapping externalPort proto internalIp internalPort wanInterface)
    (hf : c.Fits m) : Refined (c.step (k, m)) := by
  apply refined_step
  simp only [Fits, hop] at hf
  rw [hop, upnpOp]
  cases hv : validateUpnpMapping externalPort proto internalIp internalPort with
  | error e => exact hR
  | ok u =>
    obtain ⟨hm, hl⟩ := hf hv
    obtain ⟨p, hp⟩ := protoOfText_of_validate hv
    simp only [Lib.prog_bind]
    -- the chain is hooked, which leaves its rules alone
    obtain ⟨hooked, k₁, he, hk₁⟩ := ensurePrerouting_cases (c.system k)
    have hR₁ : Refines m (k₁.rules .prerouting) := by
      rw [hk₁]
      exact hR
    rw [he]
    cases hooked with
    | error e => exact hR₁
    | ok u₁ =>
      have hr := refined_replace ⟨externalPort, p⟩ internalIp internalPort wanInterface
        (s := (c.system k).after k₁) hR₁ (fun hso => by
          rw [outcome_after]
          exact hm ⟨p, hp, hso⟩) (fun ho j hj => by
          rw [outcome_after] at ho ⊢
          exact hl ho (j + 1) (by omega))
      simp only [toText_of_protoOfText hp] at hr
      refine hr.imp (fun _ s' hs => ?_) fun _ hs => hs
      obtain ⟨addr, ha, hs⟩ := hs
      simp only [Mappings.after, hp, ha]
      exact hs

variable {text : String}

theorem upnpComment_of_protoOfText (h : protoOfText text = some p) :
    upnpComment externalPort text = (MappingKey.mk externalPort p).comment := by
  rw [MappingKey.comment, toText_of_protoOfText h]

theorem comment_ne_of_protoOfText (h : protoOfText text = none) (key : MappingKey) :
    key.comment ≠ upnpComment externalPort text := by
  intro e
  obtain ⟨-, rfl⟩ := upnpComment_inj e
  revert h
  cases key.proto <;> decide

theorem keepsChain_countUpnpRules {Q : List NftRuleSpec → Prop} :
    KeepsChain .prerouting Q countUpnpRules := by
  intro s hs
  rcases countUpnpRules_cases s with ⟨n, hn⟩ | ⟨⟨e, hn⟩, -⟩ <;> rw [hn] <;> exact hs

theorem keeps_remove_other {comment : String} (ho : ∀ key : MappingKey, key.comment ≠ comment) :
    KeepsChain .prerouting (Refines m) (removeRuleByCommentInChain .prerouting comment) :=
  keepsChain_removeRuleByCommentInChain fun _ _ hR => hR.drop_other ho

theorem refined_drop {α : Type} {rest : UInt32 → Prog System Error α}
    (hr : ∀ n s, ∃ a, rest n s = (.ok a, s)) (hR : Refines m (s.kernel.rules .prerouting))
    (hm : (m key).isSome → ¬ReportedMissing (s.outcome 0) ∧
      (s.outcome 1 = .done → s.outcome 2 = .done)) :
    EndedIn (fun _ s' => Refines (Function.update m key none) (s'.kernel.rules .prerouting))
      (fun s' => Refines m (s'.kernel.rules .prerouting))
      ((removeRuleByCommentInChain .prerouting key.comment >>= fun _ => countUpnpRules >>= rest)
        s) := by
  rw [Lib.prog_bind]
  rcases remove_mapping_cases key hR (fun hs => (hm hs).1) with
    ⟨e, s', h, hk⟩ | ⟨h, hno⟩ | ⟨hd, hs, ch, h, hR'⟩ <;> rw [h]
  · show Refines m _
    rw [hk]
    exact hR
  · -- nothing was mapped, and the count decides nothing
    rw [← hno, Function.update_eq_self]
    refine keepsChain_countUpnpRules.bind (fun n s' hs' => ?_) (s.after s.kernel) hR
    obtain ⟨a, ha⟩ := hr n s'
    rw [ha]
    exact hs'
  · -- the rule is gone, and the count is carried out
    simp only [Lib.prog_bind]
    rcases countUpnpRules_cases ((s.after s.kernel).after (s.kernel.setChain .prerouting ch)) with
      ⟨n, hn⟩ | ⟨-, hmi⟩
    · rw [hn]
      obtain ⟨a, ha⟩ := hr n (((s.after s.kernel).after (s.kernel.setChain .prerouting
        ch)).after (s.kernel.setChain .prerouting ch))
      simp only [kernel_after, ha]
      show Refines _ _
      exact hR'
    · have hg := hmi (by
        simp only [outcome_after]
        exact (hm hs).2 hd)
      cases hg

theorem refined_remove (hR : Refines m (k.rules .prerouting))
    (hop : c.op = .removePortMapping externalPort proto wanInterface) (hf : c.Fits m) :
    Refined (c.step (k, m)) := by
  apply refined_step
  simp only [Fits, hop] at hf
  rw [hop, upnpOp]
  cases hp : protoOfText proto.toLower with
  | none =>
    have ha : m.after (.removePortMapping externalPort proto wanInterface) = m := by
      simp only [Mappings.after, hp]
    rw [ha]
    refine (keeps_remove_other (comment_ne_of_protoOfText hp)).bind (fun _ => ?_)
      (c.system k) hR
    refine keepsChain_countUpnpRules.bind fun _ => ?_
    exact Lib.triple_pure fun _ hs => hs
  | some p =>
    simp only [Mappings.after, hp, upnpComment_of_protoOfText hp]
    refine refined_drop (fun n s => ⟨_, rfl⟩) hR fun hso => ?_
    obtain ⟨hl, hla⟩ := hf ⟨p, hp, hso⟩
    exact ⟨hl, fun ho => hla ho 2 (by omega)⟩

theorem refined_removeAll (hR : Refines m (k.rules .prerouting)) (hop : c.op = .removeAll)
    (hf : c.Fits m) : Refined (c.step (k, m)) := by
  apply refined_step
  simp only [Fits, hop] at hf
  have ha : m.after .removeAll = m := by
    funext key
    rw [hf key]
    rfl
  rw [hop, ha]
  refine (keeps_remove_other MappingKey.comment_ne_tag).bind (fun _ => ?_) (c.system k) hR
  exact Lib.triple_pure fun _ hs => hs

theorem refined_of_fits (hR : Refines m (k.rules .prerouting)) (hf : c.Fits m) :
    Refined (c.step (k, m)) := by
  cases hop : c.op with
  | addPortMapping externalPort proto internalIp internalPort wanInterface =>
    exact refined_add hR hop hf
  | removePortMapping externalPort proto wanInterface => exact refined_remove hR hop hf
  | removeAll => exact refined_removeAll hR hop hf

theorem Quiet.outcome_eq (h : c.Quiet) (i : ℕ) : c.outcome i = .done :=
  System.Quiet.outcome_eq (s := c.system {}) h i

theorem not_reportedMissing_done : ¬ReportedMissing .done := by
  rintro ⟨stderr, h, -⟩
  cases h

theorem not_refines_drop (hR : Refines m (k.rules .prerouting)) (hs : (m key).isSome) :
    ¬Refines m (dropFirst NftRuleSpec.comment (some key.comment) (k.rules .prerouting)) := by
  intro h
  have hta := h.mapped key
  rw [Lib.tagged_dropFirst_self, hR.mapped] at hta
  obtain ⟨target, ht⟩ := Option.isSome_iff_exists.1 hs
  rw [ht] at hta
  cases hta

theorem exists_chain (hR : Refines m (k.rules .prerouting)) (hs : (m key).isSome) :
    ∃ ch, k.chain .prerouting = some ch := by
  cases hc : k.chain .prerouting with
  | some ch => exact ⟨ch, rfl⟩
  | none =>
    refine absurd ?_ ((hR.isSome_iff key).2 hs)
    simp [Kernel.rules, hc]

theorem not_refined_add (hR : Refines m (k.rules .prerouting)) (hq : c.Quiet)
    (hop : c.op = .addPortMapping externalPort proto internalIp internalPort wanInterface)
    (hv : validateUpnpMapping externalPort proto internalIp internalPort = .ok ())
    (hp : protoOfText proto.toLower = some p) (hs : (m ⟨externalPort, p⟩).isSome)
    (hv4 : Net.ipv4OfText internalIp = none) : ¬Refined (c.step (k, m)) := by
  obtain ⟨ch, hc⟩ := exists_chain hR hs
  have hsp : splitPolicy none preroutingHook = (none, preroutingHook) := by decide
  have hh : Lib.Ends (At k) (ensureHookedChain .prerouting preroutingHook) () _ :=
    ends_ensureHookedChain hsp
  obtain ⟨s₁, h₁, hs₁⟩ := hh (c.system k) ⟨hq, rfl⟩
  rw [hc, Option.getD_some] at hs₁
  obtain ⟨s₂, h₂, -, hk₂⟩ := ends_removeRuleByCommentInChain
    (upnpComment externalPort proto.toLower) s₁ hs₁
  have hr : ∃ e, upnpOp c.op (c.system k) = (.error e, s₂) := by
    rw [hop, upnpOp, hv]
    simp only [Lib.prog_bind, h₁, replaceMapping, h₂, hv4]
    exact ⟨_, rfl⟩
  obtain ⟨e, hr⟩ := hr
  rw [step, hr]
  simp only [hk₂]
  rw [upnpComment_of_protoOfText hp, ← rules_of_chain hc]
  exact not_refines_drop hR hs

theorem not_refined_removeAll (hR : Refines m (k.rules .prerouting)) (hq : c.Quiet)
    (hop : c.op = .removeAll) (hs : (m key).isSome) : ¬Refined (c.step (k, m)) := by
  obtain ⟨ch, hc⟩ := exists_chain hR hs
  have hr : Lib.Ends (At (k.setChain .prerouting ch))
      (removeRuleByCommentInChain .prerouting upnpRuleTag) () _ :=
    ends_removeRuleByCommentInChain upnpRuleTag
  obtain ⟨s₁, h₁, -, hk₁⟩ := hr (c.system k) ⟨hq, (setChain_eq_self hc).symm⟩
  have hru : ∃ result, upnpOp c.op (c.system k) = (.ok result, s₁) := by
    rw [hop, upnpOp, Lib.prog_bind, h₁]
    exact ⟨_, rfl⟩
  obtain ⟨result, hru⟩ := hru
  rw [step, hru]
  simp only [hk₁]
  rw [← rules_of_chain hc]
  intro h
  have hn := (h.isSome_iff key).not.2 (by rw [hop]; simp [Mappings.after])
  have hk := ((hR.drop_other MappingKey.comment_ne_tag).isSome_iff key).2 hs
  exact hn hk

theorem Quiet.fits_iff (hq : c.Quiet) : c.Fits m ↔
      match c.op with
      | .addPortMapping externalPort proto internalIp internalPort _ =>
        validateUpnpMapping externalPort proto internalIp internalPort = .ok () →
          Mapped m externalPort proto → (Net.ipv4OfText internalIp).isSome
      | .removePortMapping _ _ _ => True
      | .removeAll => ∀ key, m key = none := by
  have hl : ∀ i, ¬ReportedMissing (c.outcome i) := by
    intro i
    rw [hq.outcome_eq i]
    exact not_reportedMissing_done
  have hc : ∀ i, c.CarriedOutFrom i := fun _ _ j _ => hq.outcome_eq j
  unfold Fits
  cases c.op <;> simp [hl, hc]

theorem fits_of_refined (hR : Refines m (k.rules .prerouting)) (hq : c.Quiet)
    (h : Refined (c.step (k, m))) : c.Fits m := by
  rw [hq.fits_iff]
  cases hop : c.op with
  | addPortMapping externalPort proto internalIp internalPort wanInterface =>
    rintro hv ⟨p, hp, hs⟩
    by_contra hv4
    rw [Bool.not_eq_true, Option.isSome_eq_false_iff, Option.isNone_iff_eq_none] at hv4
    exact not_refined_add hR hq hop hv hp hs hv4 h
  | removePortMapping externalPort proto wanInterface => trivial
  | removeAll =>
    intro key
    by_contra hs
    exact not_refined_removeAll hR hq hop (Option.isSome_iff_ne_none.2 hs) h

/-- Every rule of the chain is read, and listed, as it was meant. -/
def AllListed (rules : List NftRuleSpec) : Prop := ∀ r ∈ rules, r.Listed

theorem keeps_listed_remove (comment : String) :
    KeepsChain .prerouting AllListed (removeRuleByCommentInChain .prerouting comment) :=
  keepsChain_removeRuleByCommentInChain fun _ _ hl r hr => hl r (Lib.mem_of_mem_dropFirst hr)

theorem keeps_listed_replace (key : MappingKey) (hw : ProperName wanInterface) :
    KeepsChain .prerouting AllListed
      (replaceMapping key.port key.proto.toText internalIp internalPort wanInterface) := by
  refine (keeps_listed_remove _).bind fun _ => ?_
  cases Net.ipv4OfText internalIp with
  | none => exact Lib.triple_throw fun _ hs => hs
  | some addr =>
    refine (keepsChain_addRuleToChain fun _ rules hl r hr => ?_).bind fun _ => ?_
    · rcases List.mem_append.1 hr with hr | hr
      · exact hl r hr
      · rw [List.mem_singleton.1 hr]
        exact @listed_rule key ⟨addr, internalPort, wanInterface⟩ hw
    · exact keepsChain_countUpnpRules.bind fun _ => Lib.triple_pure fun _ hs => hs

theorem keeps_listed_upnpOp (hn : c.Named) : KeepsChain .prerouting AllListed (upnpOp c.op) := by
  unfold Named at hn
  cases hop : c.op with
  | addPortMapping externalPort proto internalIp internalPort wanInterface =>
    rw [hop] at hn
    rw [upnpOp]
    cases hv : validateUpnpMapping externalPort proto internalIp internalPort with
    | error e => exact Lib.triple_throw fun _ hs => hs
    | ok u =>
      obtain ⟨p, hp⟩ := protoOfText_of_validate hv
      rw [← toText_of_protoOfText hp]
      exact (keepsChain_ensureHookedChain _).bind fun _ => keeps_listed_replace ⟨_, p⟩ hn
  | removePortMapping externalPort proto wanInterface =>
    exact (keeps_listed_remove _).bind fun _ => keepsChain_countUpnpRules.bind fun _ =>
      Lib.triple_pure fun _ hs => hs
  | removeAll => exact (keeps_listed_remove _).bind fun _ => Lib.triple_pure fun _ hs => hs

theorem listed_step {w : Kernel × Mappings} (hn : c.Named)
    (h : AllListed (w.1.rules .prerouting)) : AllListed ((c.step w).1.rules .prerouting) := by
  have hk := keeps_listed_upnpOp hn (c.system w.1) h
  unfold step
  rcases hr : upnpOp c.op (c.system w.1) with ⟨_ | result, s⟩ <;> rw [hr] at hk <;> exact hk

/-- **When the calls refine the map.** Along calls that name their interfaces properly and all fit
the map they find; and when no command fails, of these only along such calls. -/
theorem upnpCalls_refine {calls : List UpnpCall} (hR : Refines m (k.rules .prerouting))
    (hl : AllListed (k.rules .prerouting)) (hn : ∀ c ∈ calls, c.Named) :
    (Along step (fun c w => c.Fits w.2) calls (k, m) →
        Along step (fun c w => Refined (c.step w) ∧ ReadBack ((c.step w).1.rules .prerouting))
          calls (k, m)) ∧
      ((∀ c ∈ calls, c.Quiet) → Along step (fun c w => Refined (c.step w)) calls (k, m) →
        Along step (fun c w => c.Fits w.2) calls (k, m)) := by
  have hs : Refined (k, m) := hR
  constructor
  · intro hf
    refine ((Lib.along_congr (I := fun w => Refined w ∧ AllListed (w.1.rules .prerouting))
      (Q := fun c w => Refined (c.step w) ∧ ReadBack ((c.step w).1.rules .prerouting) ∧
        c.Fits w.2) (fun c hc w hw => ?_) (fun c hc w hw hfi => ?_) ⟨hs, hl⟩).1 hf).imp
      fun _ _ h => ⟨h.1, h.2.1⟩
    · exact ⟨fun hfi => ⟨refined_of_fits hw.1 hfi, readBack_of_listed (listed_step (hn c hc) hw.2),
        hfi⟩, fun h => h.2.2⟩
    · exact ⟨refined_of_fits hw.1 hfi, listed_step (hn c hc) hw.2⟩
  · intro hq hr
    refine (Lib.along_congr (I := Refined) (fun c hc w hw => ?_) (fun _ _ _ _ h => h) hs).1 hr
    exact ⟨fits_of_refined hw (hq c hc), refined_of_fits hw⟩

def mapWeb : UpnpCall := { op := .addPortMapping 8080 "TCP" "192.168.3.20" 80 "eth1" }

def remapWeb : UpnpCall := { op := .addPortMapping 8080 "tcp" "192.168.3.21" 80 "eth1" }

theorem refines_empty : Refines (fun _ => none) (Kernel.rules {} .prerouting) :=
  ⟨fun _ => rfl, fun _ hr => nomatch hr⟩

def unmapWeb : UpnpCall := { op := .removePortMapping 8080 "tcp" "eth1" }

theorem upnpCalls_web_refine :
    Along step (fun c w => Refined (c.step w) ∧ ReadBack ((c.step w).1.rules .prerouting))
      [mapWeb, remapWeb, unmapWeb] ({}, fun _ => none) := by
  have hq : ∀ op : UpnpOp, (UpnpCall.mk op []).Quiet := by simp [Quiet]
  have hm : ∀ m, mapWeb.Fits m := fun m =>
    (hq _).fits_iff.2 fun _ _ => by decide +kernel
  have hr : ∀ m, remapWeb.Fits m := fun m =>
    (hq _).fits_iff.2 fun _ _ => by decide +kernel
  have hu : ∀ m, unmapWeb.Fits m := fun m => (hq _).fits_iff.2 trivial
  have hn : ∀ c ∈ [mapWeb, remapWeb, unmapWeb], c.Named := by
    simp [Named, mapWeb, remapWeb, unmapWeb, ProperName]
  have hl : AllListed (Kernel.rules {} .prerouting) := fun _ h => nomatch h
  exact (upnpCalls_refine refines_empty hl hn).1 ⟨hm _, hr _, hu _, trivial⟩

/-- After `RemoveAll` has succeeded, the mapping added before it is still in the chain. -/
theorem removeAll_leaves_mapping :
    ¬∀ (calls : List UpnpCall) (k : Kernel) (m : Mappings), Refines m (k.rules .prerouting) →
      Along step (fun c w => Refined (c.step w)) calls (k, m) := by
  intro h
  have hc := h [mapWeb, { op := .removeAll }] {} (fun _ => none) refines_empty
  have hm : ((mapWeb.step ({}, fun _ => none)).2 ⟨8080, .tcp⟩).isSome := by
    decide +kernel
  obtain ⟨hf, hs, -⟩ := hc
  revert hm hf hs
  generalize mapWeb.step ({}, fun _ => none) = w
  obtain ⟨k, m⟩ := w
  intro hm hf hs
  exact not_refined_removeAll hf (by simp [Quiet]) rfl hm hs

end UpnpCall

end NftablesExecutor

end BalanSir.Executor
