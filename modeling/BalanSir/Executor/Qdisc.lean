/-
# The qdisc backend

`TcNetlinkBackend`: qdiscs are replaced, deleted and dumped.
-/

import BalanSir.Common.Qos
import BalanSir.Lib.Decoder

namespace BalanSir.Executor

open Common List
open Lib (leBytes ofLeBytes)

structure TcHandle where
  major : UInt16
  minor : UInt16
  deriving DecidableEq

namespace TcHandle

def root : TcHandle := ⟨0xffff, 0xffff⟩

def ingress : TcHandle := ⟨0xffff, 0xfff1⟩

def toText (h : TcHandle) : String :=
  String.ofList (Nat.toDigits 16 h.major.toNat) ++ ":" ++
    String.ofList (Nat.toDigits 16 h.minor.toNat)

end TcHandle

def balansirQdiscHandleMajor : UInt16 := 0x0B51

def ingressHandle : TcHandle := ⟨0xffff, 0⟩

/-- `TcQdiscFqCodelOption`, the variants that are set. -/
inductive FqCodelOption where
  | target (us : UInt32)
  | memoryLimit (bytes : UInt32)
  | ecn (on : UInt32)
  deriving DecidableEq

/-- `TcOption`; `other` is an attribute by its number. -/
inductive TcOption where
  | fqCodel (option : FqCodelOption)
  | other (kind : UInt16) (value : List UInt8)
  deriving DecidableEq

/-- `TcAttribute`, the variants that are read or written. -/
inductive TcAttribute where
  | kind (name : String)
  | options (options : List TcOption)
  deriving DecidableEq

def capU32 (n : UInt64) : UInt32 := (min n 0xffffffff).toUInt32

def fqCodelOptions (config : QosConfig) : List TcOption :=
  config.latencyTargetMs.toList.map (fun ms => .fqCodel (.target (capU32 (ms * 1000)))) ++
    config.memoryLimitBytes.toList.map (fun memory => .fqCodel (.memoryLimit (capU32 memory))) ++
    (if config.ecn then [.fqCodel (.ecn 1)] else [])

def u32Bytes (n : UInt32) : List UInt8 := leBytes 4 n.toNat

def cakeOptions (config : QosConfig) : List TcOption :=
  config.bandwidthBps.toList.map
      (fun bps => .other 2 (u32Bytes (bps / 8).toUInt32 ++ u32Bytes 0)) ++
    config.latencyTargetMs.toList.map (fun ms => .other 8 (u32Bytes (capU32 (ms * 1000)))) ++
    config.overheadBytes.toList.map (fun overhead => .other 6 (u32Bytes overhead.toUInt32)) ++
    (if config.wash then [.other 13 (u32Bytes 1)] else []) ++
    config.memoryLimitBytes.toList.map (fun memory => .other 10 (u32Bytes (capU32 memory)))

def rateFromLe (bytes : List UInt8) : Option UInt64 :=
  let bytesPerSec := ofLeBytes (bytes.take 8)
  if bytesPerSec > 0 then some (UInt64.ofNat (min (bytesPerSec * 8) (UInt64.size - 1))) else none

inductive BlobScan where
  | rate (rate : UInt64)
  | noRate
  | notABlob
  deriving DecidableEq

def BlobScan.endAt (off : ℕ) : BlobScan := if off = 0 then .notABlob else .noRate

def scanFrom (raw : List UInt8) : ℕ → ℕ → BlobScan
  | 0, off => .endAt off
  | fuel + 1, off =>
    if off + 4 ≤ raw.length then
      let len := ofLeBytes ((raw.drop off).take 2)
      let kind := ofLeBytes ((raw.drop (off + 2)).take 2)
      if len < 12 ∨ off + len > raw.length then .endAt off
      else
        let payload := (raw.drop (off + 4)).take (len - 4)
        if kind = 2 ∧ payload.length ≥ 8 then
          match rateFromLe payload with
          | some rate => .rate rate
          | none => .noRate
        else scanFrom raw fuel (off + (len + 3) / 4 * 4)
    else .endAt off

def scanCakeBaseRate (raw : List UInt8) : BlobScan := scanFrom raw (raw.length + 1) 0

def bandwidthIn : List TcOption → Option (Option UInt64)
  | [] => none
  | .fqCodel _ :: options => bandwidthIn options
  | .other kind value :: options =>
    if kind ≠ 2 then bandwidthIn options
    else
      match scanCakeBaseRate value with
      | .rate rate => some (some rate)
      | .noRate => bandwidthIn options
      | .notABlob =>
        if value.length ≥ 8 then some (rateFromLe (value.take 8)) else bandwidthIn options

def cakeBandwidthOf : List TcAttribute → Option UInt64
  | [] => none
  | .kind _ :: attributes => cakeBandwidthOf attributes
  | .options options :: attributes => (bandwidthIn options).getD (cakeBandwidthOf attributes)

theorem scanCakeBaseRate_of_length {raw : List UInt8} (h : raw.length = 8) :
    scanCakeBaseRate raw = .notABlob := by
  rw [scanCakeBaseRate, scanFrom]
  split
  · rw [if_pos (by omega)]
    rfl
  · rfl

def reportedRate (bps : UInt64) : Option UInt64 :=
  rateFromLe (u32Bytes (bps / 8).toUInt32 ++ u32Bytes 0)

theorem bandwidthIn_eq_none {options : List TcOption}
    (h : ∀ kind value, .other kind value ∈ options → kind ≠ 2) : bandwidthIn options = none := by
  induction options with
  | nil => rfl
  | cons option options ih =>
    have hr := ih fun kind value hm => h kind value (mem_cons_of_mem _ hm)
    cases option with
    | fqCodel option => exact hr
    | other kind value =>
      rw [bandwidthIn, if_pos (h kind value mem_cons_self)]
      exact hr

theorem bandwidthIn_lone {value : List UInt8} (h : value.length = 8) (options : List TcOption) :
    bandwidthIn (.other 2 value :: options) = some (rateFromLe value) := by
  rw [bandwidthIn, if_neg (by decide), scanCakeBaseRate_of_length h]
  rw [if_pos (by omega), take_of_length_le (by omega)]

theorem cakeBandwidthOf_cakeOptions (config : QosConfig) (name : String) :
    cakeBandwidthOf [.kind name, .options (cakeOptions config)] =
      config.bandwidthBps.bind reportedRate := by
  rw [cakeBandwidthOf, cakeBandwidthOf, cakeOptions]
  cases hb : config.bandwidthBps with
  | none =>
    rw [bandwidthIn_eq_none]
    · rfl
    · intro kind value hm
      simp only [Option.toList_none, map_nil, nil_append, mem_append, mem_map, mem_ite_nil_right,
        mem_singleton] at hm
      rcases hm with ((⟨_, -, rfl, -⟩ | ⟨_, -, rfl, -⟩) | ⟨-, rfl, -⟩) | ⟨_, -, rfl, -⟩ <;> decide
  | some bps =>
    have hl : (u32Bytes (bps / 8).toUInt32 ++ u32Bytes 0).length = 8 := by simp [u32Bytes]
    simp only [Option.toList_some, map_cons, cons_append, bandwidthIn_lone hl]
    rfl

/-- **The bandwidths that survive:** exactly the multiples of eight from 8 up to 2^35. -/
theorem reportedRate_eq_some_self_iff (bps : UInt64) : reportedRate bps = some bps ↔
      bps.toNat % 8 = 0 ∧ 8 ≤ bps.toNat ∧ bps.toNat < 34359738368 := by
  have hb : ofLeBytes ((u32Bytes (bps / 8).toUInt32 ++ u32Bytes 0).take 8) =
      bps.toNat / 8 % 4294967296 := by
    have hz : u32Bytes 0 = List.replicate 4 0 := by decide
    have hl : (u32Bytes (bps / 8).toUInt32 ++ u32Bytes 0).length = 8 := by simp [u32Bytes]
    rw [take_of_length_le (by omega), hz, Lib.ofLeBytes_append_zeros, u32Bytes,
      Lib.ofLeBytes_leBytes]
    · simp
    · rw [Nat.shiftRight_eq_div_pow]
      exact Nat.div_eq_of_lt (UInt32.toNat_lt _)
  rw [reportedRate, rateFromLe, hb]
  generalize hn : bps.toNat / 8 % 4294967296 = n
  have hc : min (n * 8) (UInt64.size - 1) = n * 8 := Nat.min_eq_left (by
    show n * 8 ≤ 18446744073709551615
    omega)
  have hba : UInt64.ofNat (n * 8) = bps ↔ n * 8 = bps.toNat := by
    rw [← UInt64.toNat_inj, UInt64.toNat_ofNat']
    omega
  rw [hc]
  split
  · rw [Option.some.injEq, hba]
    omega
  · simp only [reduceCtorEq, false_iff]
    omega

def ourIdentity (handle parent : TcHandle) : Bool :=
  handle.major == balansirQdiscHandleMajor || parent == .ingress

/-- A qdisc inside the root; the reserved handle is not among theirs. -/
structure InnerQdisc where
  handle : TcHandle
  parent : TcHandle
  attributes : List TcAttribute
  foreign : ourIdentity handle parent = false

/-- What is attached to an interface, the root with its major number. -/
structure Attached where
  root : Option (UInt16 × List TcAttribute) := none
  inner : List InnerQdisc := []
  ingress : Option (List TcAttribute) := none

/-- The interfaces, and what is attached to each. -/
structure Netns where
  interfaces : List String
  qdiscs : String → Attached

namespace Attached

variable (attributes : List TcAttribute) (a : Attached)

def replaceRoot : Attached :=
  { a with root := some (balansirQdiscHandleMajor, attributes), inner := [] }

def replaceIngress : Attached :=
  { a with ingress := some attributes }

def deleteRoot : Attached :=
  match a.root with
  | some (major, _) =>
    if major = balansirQdiscHandleMajor then { a with root := none, inner := [] } else a
  | none => a

def deleteIngress : Attached := { a with ingress := none }

end Attached

variable (ns : Netns)

def Netns.change (interface : String) (f : Attached → Attached) : Netns :=
  { ns with qdiscs := Function.update ns.qdiscs interface (f (ns.qdiscs interface)) }

@[simp] theorem Netns.change_qdiscs_self (interface : String) (f : Attached → Attached) :
    (ns.change interface f).qdiscs interface = f (ns.qdiscs interface) :=
  Function.update_self ..

theorem Netns.change_qdiscs_of_ne {interface name : String} (h : name ≠ interface) (ns : Netns)
    (f : Attached → Attached) : (ns.change interface f).qdiscs name = ns.qdiscs name :=
  Function.update_of_ne h ..

def fqCodelAttributes (config : QosConfig) : List TcAttribute :=
  if (fqCodelOptions config).isEmpty then [.kind "fq_codel"]
  else [.kind "fq_codel", .options (fqCodelOptions config)]

def Netns.apply (config : QosConfig) (ns : Netns) : Except String Unit × Netns :=
  if config.interface ∈ ns.interfaces then
    match config.direction, config.kind with
    | .ingress, _ => (.ok (), ns.change config.interface (.replaceIngress [.kind "ingress"]))
    | .egress, .fqCodel =>
      (.ok (), ns.change config.interface (.replaceRoot (fqCodelAttributes config)))
    | .egress, .cake =>
      (.ok (), ns.change config.interface
        (.replaceRoot [.kind "cake", .options (cakeOptions config)]))
    | .egress, .ingress => (.error "Ingress kind must use the Ingress direction", ns)
  else (.error ("interface " ++ config.interface ++ " not found"), ns)

variable (interface : String)

def Netns.remove : Except String Unit × Netns :=
  if interface ∈ ns.interfaces then
    (.ok (), ns.change interface fun a => a.deleteRoot.deleteIngress)
  else (.error ("interface " ++ interface ++ " not found"), ns)

def kindOf : List TcAttribute → Option String
  | [] => none
  | .kind name :: _ => some name
  | .options _ :: attributes => kindOf attributes

def appliedQdisc (handle parent : TcHandle) (attributes : List TcAttribute) : AppliedQdisc where
  interface := interface
  handle := handle.toText
  parent := parent.toText
  kind := kindOf attributes
  ourIdentity := ourIdentity handle parent
  bandwidthBps := cakeBandwidthOf attributes

def Attached.report (a : Attached) : List AppliedQdisc :=
  a.root.toList.map (fun q => appliedQdisc interface ⟨q.1, 0⟩ .root q.2) ++
    a.inner.map (fun q => appliedQdisc interface q.handle q.parent q.attributes) ++
    a.ingress.toList.map (appliedQdisc interface ingressHandle .ingress)

def Netns.state : List AppliedQdisc :=
  (if interface.isEmpty then ns.interfaces else [interface]).flatMap fun name =>
    if name ∈ ns.interfaces then (ns.qdiscs name).report name else []

def qosOp (op : QosOp) (ns : Netns) : QosResult × Netns :=
  match op with
  | .apply config =>
    match ns.apply config with
    | (.ok (), ns) =>
      ({ op := "apply", interface := config.interface, ok := true
         detail := config.kind.asStr ++ " applied" }, ns)
    | (.error e, ns) =>
      ({ op := "apply", interface := config.interface, ok := false, detail := e }, ns)
  | .remove interface =>
    match ns.remove interface with
    | (.ok (), ns) =>
      ({ op := "remove", interface := interface, ok := true, detail := "shaping removed" }, ns)
    | (.error e, ns) =>
      ({ op := "remove", interface := interface, ok := false, detail := e }, ns)

namespace Attached

def ownRoot (a : Attached) : Option (List TcAttribute) :=
  a.root.bind fun q => if q.1 = balansirQdiscHandleMajor then some q.2 else none

def own (a : Attached) : List (List TcAttribute) := a.ownRoot.toList ++ a.ingress.toList

@[simp] theorem own_replaceRoot (attributes : List TcAttribute) (a : Attached) :
    (a.replaceRoot attributes).own = attributes :: a.ingress.toList := by
  simp [own, ownRoot, replaceRoot]

@[simp] theorem own_replaceIngress (attributes : List TcAttribute) (a : Attached) :
    (a.replaceIngress attributes).own = a.ownRoot.toList ++ [attributes] := by
  simp [own, ownRoot, replaceIngress]

@[simp] theorem own_delete (a : Attached) : a.deleteRoot.deleteIngress.own = [] := by
  obtain ⟨_ | ⟨major, attributes⟩, inner, ingress⟩ := a
  · rfl
  · by_cases h : major = balansirQdiscHandleMajor <;>
      simp [own, ownRoot, deleteIngress, deleteRoot, h]

theorem exists_own_report_iff {interface : String} {a : Attached} {P : AppliedQdisc → Prop}
    {S : List TcAttribute → Prop} (hP : ∀ handle parent attributes,
      P (appliedQdisc interface handle parent attributes) ↔ S attributes) :
    (∃ q ∈ a.report interface, q.ourIdentity ∧ P q) ↔
      ∃ attributes ∈ a.own, S attributes := by
  constructor
  · rintro ⟨q, hq, hours, hPq⟩
    simp only [report, mem_append, mem_map, Option.mem_toList] at hq
    rcases hq with (⟨⟨major, attributes⟩, hro, rfl⟩ | ⟨q, -, rfl⟩) | ⟨attributes, hin, rfl⟩
    · have hm : major = balansirQdiscHandleMajor := by
        simpa [appliedQdisc, ourIdentity, TcHandle.root, TcHandle.ingress] using hours
      refine ⟨attributes, mem_append_left _ ?_, (hP _ _ _).1 hPq⟩
      simp [ownRoot, hro, hm]
    · -- the qdiscs inside the root are not ours
      have hf := q.foreign
      rw [show ourIdentity q.handle q.parent = true from hours] at hf
      cases hf
    · exact ⟨attributes, mem_append_right _ (Option.mem_toList.2 hin), (hP _ _ _).1 hPq⟩
  · rintro ⟨attributes, ho, hS⟩
    rcases List.mem_append.1 ho with hro | hin
    · have hro : a.root = some (balansirQdiscHandleMajor, attributes) := by
        obtain ⟨⟨major, attributes'⟩, hr, ha⟩ :=
          Option.bind_eq_some_iff.1 (Option.mem_toList.1 hro)
        dsimp only at ha
        split at ha
        · rename_i hm
          cases ha
          rw [hr, hm]
        · cases ha
      refine ⟨appliedQdisc interface ⟨balansirQdiscHandleMajor, 0⟩ .root attributes, ?_, rfl,
        (hP _ _ _).2 hS⟩
      simp [report, hro]
    · have hin : a.ingress = some attributes := Option.mem_toList.1 hin
      refine ⟨appliedQdisc interface ingressHandle .ingress attributes, ?_, rfl, (hP _ _ _).2 hS⟩
      simp [report, hin]

end Attached

variable {q : AppliedQdisc}

theorem interface_of_mem_report {interface : String} {a : Attached}
    (h : q ∈ a.report interface) : q.interface = interface := by
  simp only [Attached.report, mem_append, mem_map] at h
  rcases h with (⟨_, -, rfl⟩ | ⟨_, -, rfl⟩) | ⟨_, -, rfl⟩ <;> rfl

theorem mem_state {ns : Netns} :
    q ∈ ns.state "" ↔ ∃ name ∈ ns.interfaces, q ∈ (ns.qdiscs name).report name := by
  have ha : ns.state "" = ns.interfaces.flatMap fun name =>
      if name ∈ ns.interfaces then (ns.qdiscs name).report name else [] := rfl
  rw [ha, mem_flatMap]
  refine exists_congr fun name => and_congr_right fun hn => ?_
  rw [if_pos hn]

end BalanSir.Executor
