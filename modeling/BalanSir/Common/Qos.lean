/-
# Traffic shaping: intent and report

The types of `qos.rs`.
-/

import Mathlib.Data.List.Basic

namespace BalanSir.Common

inductive QdiscKind where
  | fqCodel
  | cake
  | ingress
  deriving DecidableEq

def QdiscKind.asStr : QdiscKind → String
  | .fqCodel => "fq_codel"
  | .cake => "cake"
  | .ingress => "ingress"

inductive QosDirection where
  | egress
  | ingress
  deriving DecidableEq

structure QosConfig where
  interface : String
  direction : QosDirection
  kind : QdiscKind
  bandwidthBps : Option UInt64 := none
  latencyTargetMs : Option UInt64 := none
  overheadBytes : Option Int32 := none
  ecn : Bool := false
  wash : Bool := false
  memoryLimitBytes : Option UInt64 := none
  deriving DecidableEq

/-- A qdisc as the executor reports it. -/
structure AppliedQdisc where
  interface : String
  handle : String
  parent : String
  kind : Option String
  ourIdentity : Bool
  bandwidthBps : Option UInt64
  deriving DecidableEq

structure QosCapabilities where
  cake : Bool
  fqCodel : Bool
  ingress : Bool
  deriving DecidableEq

inductive QosOp where
  | apply (config : QosConfig)
  | remove (interface : String)
  deriving DecidableEq

structure QosResult where
  op : String
  interface : String
  ok : Bool
  detail : String
  deriving DecidableEq

/-- What the API shows of the last pass. -/
structure QosSnapshot where
  desired : List QosConfig := []
  applied : List AppliedQdisc := []
  capabilities : Option QosCapabilities := none
  drift : Bool := false
  lastError : Option String := none
  deriving DecidableEq

end BalanSir.Common
