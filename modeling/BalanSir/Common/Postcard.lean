/-
# The postcard encoding

The variable-length integers, sequences and texts that `postcard` writes.
-/

import BalanSir.Common.Types

namespace BalanSir.Common
namespace Postcard

open Net (IpAddr)

/-- Seven bits a byte, the low ones first. -/
def groups : ℕ → ℕ → List UInt8
  | 0, _ => []
  | size + 1, n =>
    if n < 128 then [UInt8.ofNat n] else UInt8.ofNat (n % 128 + 128) :: groups size (n / 128)

def varint (n : ℕ) : List UInt8 := groups 10 n

/-- Bytes of a fixed count, the high ones first. -/
def octets : ℕ → ℕ → List UInt8
  | 0, _ => []
  | size + 1, n => octets size (n / 256) ++ [UInt8.ofNat n]

def option {α : Type} (encode : α → List UInt8) : Option α → List UInt8
  | none => [0]
  | some a => 1 :: encode a

def sequence {α : Type} (encode : α → List UInt8) (l : List α) : List UInt8 :=
  varint l.length ++ l.flatMap encode

def text (s : String) : List UInt8 :=
  sequence (fun b => [b]) (s.toList.flatMap String.utf8EncodeChar)

def ipAddr : IpAddr → List UInt8
  | .v4 a => 0 :: octets 4 a.toNat
  | .v6 a => 1 :: octets 16 a.toNat

def driverId : DriverId → List UInt8
  | .wireGuard => [0]
  | .amneziaWG => [1]
  | .xray => [2]
  | .hysteria => [3]
  | .b4 => [4]
  | .dnsForwarder => [5]
  | .custom id => 6 :: varint id.toNat

def driverAction : DriverAction → List UInt8
  | .start => [0]
  | .stop => [1]
  | .restart => [2]
  | .status => [3]

def action : Action → List UInt8
  | .route table => 0 :: varint table.toNat
  | .mark fwmark => 1 :: varint fwmark.toNat
  | .forward driver => 2 :: driverId driver
  | .block => [3]
  | .reject => [4]
  | .allow => [5]
  | .shape class' => 6 :: varint class'.toNat
  | .log => [7]
  | .queue num => 8 :: varint num.toNat

def matcherStep (step : MatcherStep) : List UInt8 :=
  varint step.ruleId.toNat ++ [if step.matched then 1 else 0] ++ varint step.reason.toNat

def decisionTrace (trace : DecisionTrace) : List UInt8 :=
  varint trace.policyId.toNat ++ sequence matcherStep trace.steps ++ action trace.action
    ++ varint trace.executionTimeUs.toNat ++ varint trace.correlationId.toNat

def actionRequest (q : ActionRequest) : List UInt8 :=
  action q.action ++ ipAddr q.srcIp ++ ipAddr q.dstIp ++ varint q.srcPort.toNat
    ++ varint q.dstPort.toNat ++ [q.protocol] ++ varint q.interface.toNat ++ decisionTrace q.trace

def flowCriteria (flow : FlowCriteria) : List UInt8 :=
  option ipAddr flow.srcIp ++ option ipAddr flow.dstIp
    ++ option (fun p => varint p.toNat) flow.srcPort
    ++ option (fun p => varint p.toNat) flow.dstPort
    ++ option (fun b => [b]) flow.protocol ++ option text flow.dstDomain

def desiredRule (rule : DesiredRule) : List UInt8 :=
  varint rule.id.toNat ++ action rule.action ++ varint rule.priority.toNat
    ++ option flowCriteria rule.flow

def desiredDriver (driver : DesiredDriver) : List UInt8 :=
  driverId driver.id ++ driverAction driver.action

/-- What the fingerprint of a configuration is taken of. -/
def desiredState (state : DesiredState) : List UInt8 :=
  sequence desiredRule state.rules ++ sequence desiredDriver state.drivers

@[reducible] def wire : Postcard where
  request q := some (actionRequest q)
  desired state := some (desiredState state)

end Postcard
end BalanSir.Common
