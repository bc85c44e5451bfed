/-
# The wire and state types

`types.rs`: rules, actions, requests and their results.
-/

import BalanSir.Net.Addr

namespace BalanSir.Common

open Net (IpAddr)

inductive DriverId where
  | wireGuard
  | amneziaWG
  | xray
  | hysteria
  | b4
  | dnsForwarder
  | custom (id : UInt32)
  deriving DecidableEq

inductive DriverAction where
  | start
  | stop
  | restart
  | status
  deriving DecidableEq

inductive Action where
  | route (table : UInt32)
  | mark (fwmark : UInt32)
  | forward (driver : DriverId)
  | block
  | reject
  | allow
  | shape (class' : UInt32)
  | log
  | queue (num : UInt16)
  deriving DecidableEq

inductive ActionType where
  | route
  | mark
  | forward
  | block
  | reject
  | allow
  | shape
  | log
  | queue
  deriving DecidableEq

def Action.actionType : Action → ActionType
  | .route _ => .route
  | .mark _ => .mark
  | .forward _ => .forward
  | .block => .block
  | .reject => .reject
  | .allow => .allow
  | .shape _ => .shape
  | .log => .log
  | .queue _ => .queue

structure MatcherStep where
  ruleId : UInt32
  matched : Bool
  reason : UInt16
  deriving DecidableEq

/-- `DecisionTrace`; the daemon puts the rule id in `policyId`. -/
structure DecisionTrace where
  policyId : UInt32
  steps : List MatcherStep
  action : Action
  executionTimeUs : UInt64
  correlationId : UInt64
  deriving DecidableEq

/-- `ActionRequest`; an unspecified address, port `0` and protocol `0` are no matcher. -/
structure ActionRequest where
  action : Action
  srcIp : IpAddr
  dstIp : IpAddr
  srcPort : UInt16
  dstPort : UInt16
  protocol : UInt8
  interface : UInt32
  trace : DecisionTrace
  deriving DecidableEq

inductive ActionError where
  | permissionDenied
  | resourceExhausted
  | invalidArgument
  | kernelError (code : UInt32)
  | driverNotAvailable (driver : DriverId)
  | timeout
  | unknown
  deriving DecidableEq

/-- `ActionResult`, executor to daemon. -/
inductive ActionResult where
  | applied (executionTimeUs : UInt64) (ruleId : Option UInt32)
  | alreadyApplied
  | failed (error : ActionError) (message : Option String)
  | retry (afterMs : UInt32) (reason : String)
  | unsupported (actionType : ActionType)
  deriving DecidableEq

def ActionResult.isSuccess : ActionResult → Bool
  | .applied _ _ | .alreadyApplied => true
  | _ => false

/-- `FlowCriteria`: an absent field matches everything. -/
structure FlowCriteria where
  srcIp : Option IpAddr := none
  dstIp : Option IpAddr := none
  srcPort : Option UInt16 := none
  dstPort : Option UInt16 := none
  protocol : Option UInt8 := none
  dstDomain : Option String := none
  deriving DecidableEq

/-- `DesiredRule`; no flow is a chain-level verdict. -/
structure DesiredRule where
  id : UInt32
  action : Action
  priority : UInt32
  flow : Option FlowCriteria := none
  deriving DecidableEq

def DesiredRule.domain (rule : DesiredRule) : Option String := rule.flow.bind (·.dstDomain)

structure DesiredDriver where
  id : DriverId
  action : DriverAction
  deriving DecidableEq

structure DesiredState where
  rules : List DesiredRule := []
  drivers : List DesiredDriver := []
  deriving DecidableEq

variable (state : DesiredState)

def DesiredState.DistinctIds : Prop := (state.rules.map (·.id)).Nodup

instance (state : DesiredState) : Decidable state.DistinctIds := List.nodupDecidable _

def DesiredState.OneContent : Prop :=
  ∀ r ∈ state.rules, ∀ s ∈ state.rules, r.id = s.id → r.action = s.action ∧ r.flow = s.flow

instance (state : DesiredState) : Decidable state.OneContent := List.decidableBAll _ _

def DesiredState.DomainFree : Prop := ∀ r ∈ state.rules, r.domain = none

instance (state : DesiredState) : Decidable state.DomainFree := List.decidableBAll _ _

structure ActualRule where
  id : UInt32
  action : Action
  ruleId : Option UInt32
  flow : Option FlowCriteria := none
  deriving DecidableEq

structure ActualState where
  activeRules : List ActualRule := []
  deriving DecidableEq

inductive DpiOp where
  | installQueue (queueNum : UInt16) (ports : List UInt16)
  | removeQueue
  deriving DecidableEq

structure DpiOpResult where
  installed : UInt32
  detail : String
  deriving DecidableEq

inductive UpnpOp where
  | addPortMapping (externalPort : UInt16) (proto internalIp : String) (internalPort : UInt16)
      (wanInterface : String)
  | removePortMapping (externalPort : UInt16) (proto wanInterface : String)
  | removeAll
  deriving DecidableEq

structure UpnpOpResult where
  installed : UInt32
  detail : String
  deriving DecidableEq

/-- `balansir_common::Error`, the variants the modelled functions return. -/
inductive Error where
  | fatal (message : String)
  | misconfiguration (message : String)
  | io (message : String)
  deriving DecidableEq

def Error.toText : Error → String
  | .fatal m => "Fatal error: " ++ m
  | .misconfiguration m => "Invalid configuration: " ++ m
  | .io m => "IO error: " ++ m

/-- The encoder `postcard::to_allocvec`, which may fail. -/
class Postcard where
  request : ActionRequest → Option (List UInt8)
  desired : DesiredState → Option (List UInt8)

def fnv1a64 (bytes : List UInt8) : UInt64 :=
  bytes.foldl (fun hash b => (hash ^^^ b.toUInt64) * 0x100000001b3) 0xcbf29ce484222325

def fnv1a32 (bytes : List UInt8) : UInt32 :=
  bytes.foldl (fun hash b => (hash ^^^ b.toUInt32) * 0x01000193) 0x811c9dc5

def configFingerprint [Postcard] (state : DesiredState) : UInt64 :=
  fnv1a64 ((Postcard.desired state).getD [])

end BalanSir.Common
