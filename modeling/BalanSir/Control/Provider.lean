/-
# The desired-state configuration

`DesiredConfig` of `provider.rs` and the `DesiredState` it is turned into.
-/

import BalanSir.Control.Coordinator
import BalanSir.Lib.Checked

namespace BalanSir.Control

open Common
open Net (IpAddr)

def failClosedRuleId : UInt32 := 0xffffffff

inductive EmptyConfigAction where
  | pass
  | drop
  deriving DecidableEq

structure PolicyConfig where
  emptyConfigAction : EmptyConfigAction := .pass
  deriving DecidableEq

structure RuleConfig where
  id : UInt32
  action : String
  priority : UInt32 := 0
  srcIp : Option String := none
  dstIp : Option String := none
  srcPort : Option UInt16 := none
  dstPort : Option UInt16 := none
  protocol : Option String := none
  dstDomain : Option String := none
  deriving DecidableEq

structure DriverConfig where
  id : String
  action : String
  deriving DecidableEq

structure DesiredConfig where
  rules : List RuleConfig := []
  drivers : List DriverConfig := []
  policy : PolicyConfig := {}
  deriving DecidableEq

variable (s : String)

def parseAction : Except ControlError Action :=
  match s.toLower with
  | "allow" => .ok .allow
  | "block" => .ok .block
  | "reject" => .ok .reject
  | "log" => .ok .log
  | _ => .error (.desiredProvider ("unknown action: " ++ s))

def parseDriverId : Except ControlError DriverId :=
  match s.toLower with
  | "wireguard" => .ok .wireGuard
  | "amneziawg" => .ok .amneziaWG
  | "xray" => .ok .xray
  | "hysteria" => .ok .hysteria
  | "b4" => .ok .b4
  | "dns" | "dnsforwarder" => .ok .dnsForwarder
  | _ => .error (.desiredProvider ("unknown driver: " ++ s))

def parseDriverAction : Except ControlError DriverAction :=
  match s.toLower with
  | "start" => .ok .start
  | "stop" => .ok .stop
  | "restart" => .ok .restart
  | _ => .error (.desiredProvider ("unknown driver action: " ++ s))

def parseU8 : Option UInt8 :=
  let digits := match s.toList with
    | '+' :: rest => rest
    | chars => chars
  let value := Nat.ofDigitChars 10 digits 0
  if !digits.isEmpty && digits.all Char.isDigit && value < UInt8.size then some (UInt8.ofNat value)
  else none

def parseProtocol : Except ControlError UInt8 :=
  match s.toLower with
  | "tcp" => .ok 6
  | "udp" => .ok 17
  | "icmp" => .ok 1
  | _ =>
    match parseU8 s with
    | some n => .ok n
    | none => .error (.desiredProvider ("unknown protocol: " ++ s))

def parseAddr (field : String) (text : Option String) : Except ControlError (Option IpAddr) :=
  match text with
  | none => .ok none
  | some s =>
    match IpAddr.ofText s with
    | some addr => .ok (some addr)
    | none => .error (.desiredProvider ("invalid " ++ field ++ " " ++ s
        ++ ": invalid IP address syntax"))

def compileFlow (r : RuleConfig) : Except ControlError (Option FlowCriteria) :=
  if r.srcIp.isNone && r.dstIp.isNone && r.srcPort.isNone && r.dstPort.isNone
      && r.protocol.isNone && r.dstDomain.isNone then .ok none
  else do
    let srcIp ← parseAddr "src_ip" r.srcIp
    let dstIp ← parseAddr "dst_ip" r.dstIp
    let protocol ← r.protocol.mapM parseProtocol
    return some { srcIp := srcIp, dstIp := dstIp, srcPort := r.srcPort, dstPort := r.dstPort,
                  protocol := protocol, dstDomain := r.dstDomain }

def compileRuleConfig (r : RuleConfig) : Except ControlError DesiredRule := do
  let flow ← compileFlow r
  let action ← parseAction r.action
  return { id := r.id, action := action, priority := r.priority, flow := flow }

def compileDriverConfig (d : DriverConfig) : Except ControlError DesiredDriver := do
  let id ← parseDriverId d.id
  let action ← parseDriverAction d.action
  return { id := id, action := action }

def failClosedRule : DesiredRule :=
  { id := failClosedRuleId, action := .block, priority := 0, flow := none }

def DesiredState.ofConfig (config : DesiredConfig) : Except ControlError DesiredState := do
  let rules ← config.rules.mapM compileRuleConfig
  let drivers ← config.drivers.mapM compileDriverConfig
  if rules.isEmpty && config.policy.emptyConfigAction == .drop then
    return { rules := rules ++ [failClosedRule], drivers := drivers }
  else
    return { rules := rules, drivers := drivers }

theorem mapM_eq_ok {ε α β : Type} {f : α → Except ε β} {l : List α} {l' : List β}
    (h : l.mapM f = .ok l') : List.Forall₂ (fun a b => f a = .ok b) l l' := by
  induction l generalizing l' with
  | nil =>
    cases h
    exact .nil
  | cons a l ih =>
    rw [List.mapM_cons] at h
    obtain ⟨b, hb, h⟩ := Lib.bind_eq_ok.1 h
    obtain ⟨bs, hbs, h⟩ := Lib.bind_eq_ok.1 h
    cases h
    exact .cons hb (ih hbs)

theorem domain_of_compile {r : RuleConfig} {rule : DesiredRule}
    (h : compileRuleConfig r = .ok rule) : rule.domain = r.dstDomain := by
  obtain ⟨flow, hf, h⟩ := Lib.bind_eq_ok.1 h
  obtain ⟨action, -, h⟩ := Lib.bind_eq_ok.1 h
  cases h
  unfold compileFlow at hf
  split at hf
  · rename_i hn
    simp only [Bool.and_eq_true, Option.isNone_iff_eq_none] at hn
    cases hf
    exact hn.2.symm
  · obtain ⟨srcIp, -, hf⟩ := Lib.bind_eq_ok.1 hf
    obtain ⟨dstIp, -, hf⟩ := Lib.bind_eq_ok.1 hf
    obtain ⟨protocol, -, hf⟩ := Lib.bind_eq_ok.1 hf
    cases hf
    rfl

theorem domains_of_compile {written : List RuleConfig} {rules : List DesiredRule}
    (h : List.Forall₂ (fun r rule => compileRuleConfig r = .ok rule) written rules) :
    rules.map DesiredRule.domain = written.map RuleConfig.dstDomain := by
  induction h with
  | nil => rfl
  | cons hr _ ih => rw [List.map_cons, List.map_cons, domain_of_compile hr, ih]

/-- **The rules of a compiled configuration**: its own, or the fail-closed rule. -/
theorem compiled_rules {config : DesiredConfig} {state : DesiredState}
    (h : DesiredState.ofConfig config = .ok state) :
    (config.rules = [] ∧ config.policy.emptyConfigAction = .drop ∧
        state.rules = [failClosedRule]) ∨
      (List.Forall₂ (fun r rule => compileRuleConfig r = .ok rule) config.rules state.rules ∧
        (config.rules = [] → config.policy.emptyConfigAction ≠ .drop)) := by
  obtain ⟨rules, hr, h⟩ := Lib.bind_eq_ok.1 h
  obtain ⟨drivers, -, h⟩ := Lib.bind_eq_ok.1 h
  have ha := mapM_eq_ok hr
  have he : rules = [] ↔ config.rules = [] := by
    rw [← List.length_eq_zero_iff, ← List.length_eq_zero_iff, ha.length_eq]
  split at h
  · rename_i hd
    simp only [Bool.and_eq_true, List.isEmpty_iff, beq_iff_eq] at hd
    cases h
    exact .inl ⟨he.1 hd.1, hd.2, by rw [hd.1]; rfl⟩
  · rename_i hk
    simp only [Bool.and_eq_true, List.isEmpty_iff, beq_iff_eq, not_and] at hk
    cases h
    exact .inr ⟨ha, fun hn => hk (he.2 hn)⟩

end BalanSir.Control
