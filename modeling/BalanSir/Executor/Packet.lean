/-
# What a chain does to a packet

Packets, verdicts, and the first rule that matches.
-/

import BalanSir.Executor.Nftables
import BalanSir.Lib.FirstMatch

namespace BalanSir.Executor

open Net (IpAddr Cidr)

inductive CtState where
  | new
  | established
  | related
  | invalid
  | untracked
  deriving DecidableEq

def CtState.toText : CtState → String
  | .new => "new"
  | .established => "established"
  | .related => "related"
  | .invalid => "invalid"
  | .untracked => "untracked"

/-- The header fields the matchers read. -/
structure Packet where
  iifname : String
  oifname : Option String := none
  src : IpAddr
  dst : IpAddr
  l4proto : UInt8
  sport : Option UInt16 := none
  dport : Option UInt16 := none
  ctState : CtState := .new
  deriving DecidableEq

def NftProto.number : NftProto → UInt8
  | .tcp => 6
  | .udp => 17

def fieldHits {α : Type} (field : Option α) (hit : α → Bool) : Bool :=
  match field with
  | some a => hit a
  | none => true

@[simp] theorem fieldHits_none {α : Type} (hit : α → Bool) : fieldHits none hit := rfl

@[simp] theorem fieldHits_some {α : Type} (a : α) (hit : α → Bool) :
    fieldHits (some a) hit = hit a := rfl

def cidrHits (cidr : String) (addr : IpAddr) : Bool :=
  match Cidr.ofText cidr with
  | some c => c.contains addr
  | none => false

def ctHits (states : String) (state : CtState) : Bool :=
  (states.toList.splitOn ',').contains state.toText.toList

namespace NftRuleSpec

def hits (spec : NftRuleSpec) (p : Packet) : Bool :=
  fieldHits spec.proto (fun x => x.number == p.l4proto)
    && fieldHits spec.srcCidr (cidrHits · p.src)
    && fieldHits spec.dstCidr (cidrHits · p.dst)
    && fieldHits spec.iifname (· == p.iifname)
    && fieldHits spec.oifname (fun o => p.oifname == some o)
    && fieldHits spec.sport (fun x => p.sport == some x)
    && fieldHits spec.dport (fun x => p.dport == some x)
    && fieldHits spec.ctState (ctHits · p.ctState)

def outcome (spec : NftRuleSpec) : NftVerdict × Option UInt32 := (spec.verdict, spec.mark)

end NftRuleSpec

def firstVerdict (rules : List NftRuleSpec) (p : Packet) : Option (NftVerdict × Option UInt32) :=
  Lib.firstMatch NftRuleSpec.hits NftRuleSpec.outcome rules p

def Policy.verdict : Policy → NftVerdict
  | .accept => .accept
  | .drop => .drop

def Chain.decides (c : Chain) (p : Packet) : NftVerdict × Option UInt32 :=
  (firstVerdict c.rules p).getD (c.policy.verdict, none)

end BalanSir.Executor
