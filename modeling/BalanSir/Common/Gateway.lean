/-
# The gateway configuration

`GatewayConfig::validate`.
-/

import BalanSir.Net.Addr

namespace BalanSir.Common

structure GatewayConfig where
  wanInterface : String
  lanInterface : String
  lanSubnet : String
  deriving DecidableEq

inductive GatewayConfigError where
  | empty (field : String)
  | tooLong (field name : String)
  | invalidCharacters (field name : String)
  | sameInterface
  | invalidCidr (cidr : String)
  deriving DecidableEq

def GatewayConfigError.toText (debug : String → String) : GatewayConfigError → String
  | .empty field => "gateway config: " ++ field ++ " must not be empty"
  | .tooLong field name => "gateway config: " ++ field ++ " too long: " ++ debug name
  | .invalidCharacters field name =>
    "gateway config: " ++ field ++ " has invalid characters: " ++ debug name
  | .sameInterface => "gateway config: wan_interface and lan_interface must differ"
  | .invalidCidr cidr => "gateway config: lan_subnet: invalid CIDR: " ++ debug cidr

def validIfaceChar (c : Char) : Bool :=
  ('0' ≤ c && c ≤ '9') || ('a' ≤ c && c ≤ 'z') || ('A' ≤ c && c ≤ 'Z') || c == '_' || c == '-'

def validateIface (name field : String) : Except GatewayConfigError Unit :=
  if name.isEmpty then .error (.empty field)
  else if 15 < name.utf8ByteSize then .error (.tooLong field name)
  else if name.toList.all validIfaceChar then .ok () else .error (.invalidCharacters field name)

def beforeLastSlash (text : String) : String :=
  match text.toList.reverse.dropWhile (· ≠ '/') with
  | [] => text
  | _ :: rest => String.ofList rest.reverse

def parseCidr (cidr : String) : Except GatewayConfigError Net.IpAddr :=
  match Net.IpAddr.ofText (beforeLastSlash cidr) with
  | some addr => .ok addr
  | none => .error (.invalidCidr cidr)

def GatewayConfig.validate (config : GatewayConfig) : Except GatewayConfigError Unit := do
  validateIface config.wanInterface "wan_interface"
  validateIface config.lanInterface "lan_interface"
  if config.wanInterface = config.lanInterface then throw .sameInterface
  let _ ← parseCidr config.lanSubnet

def defaultMgmtPorts : List UInt16 := [22, 53, 8080, 9090]

structure GatewayResult where
  ok : Bool
  detail : String
  deriving DecidableEq

theorem validateIface_eq_ok {name field : String} (h : validateIface name field = .ok ()) :
    ∀ c ∈ name.toList, validIfaceChar c = true := by
  unfold validateIface at h
  split_ifs at h with _ _ ha
  exact List.all_eq_true.1 ha

/-- What a valid configuration says of its interfaces. -/
theorem GatewayConfig.interfaces_of_validate {config : GatewayConfig}
    (h : config.validate = .ok ()) : config.wanInterface ≠ config.lanInterface ∧
      ∀ name ∈ [config.wanInterface, config.lanInterface], ∀ c ∈ name.toList,
        validIfaceChar c = true := by
  unfold validate at h
  cases hw : validateIface config.wanInterface "wan_interface" with
  | error e =>
    rw [hw] at h
    cases h
  | ok _ =>
    cases hl : validateIface config.lanInterface "lan_interface" with
    | error e =>
      rw [hw, hl] at h
      cases h
    | ok _ =>
      refine ⟨fun he => ?_, ?_⟩
      · rw [hw, hl, if_pos he] at h
        cases h
      · simpa using ⟨validateIface_eq_ok hw, validateIface_eq_ok hl⟩

end BalanSir.Common
