/-
# Messages and their encoding

`IpcMessage`, encoded and decoded.
-/

import BalanSir.Common.Postcard
import BalanSir.Lib.Decoder

namespace BalanSir.Common

open List

open Lib (Decoder)

def ipcVersion : UInt8 := 1

inductive MsgType where
  | addRule | removeRule | flushRules | startDriver | stopDriver | restartDriver | healthCheck
  | getMetrics | getPlan | getExplain | getDesired | getActual | reload | getActualRules
  | getConfigFingerprint | setPathMtu | restorePathMtu | getPathMtuState | qosOp | getQosState
  | getQosCapabilities | interfaceOp | tailscaleOp | dpiOp | gatewayOp | upnpOp | wifiOp | mptcpOp
  | responseOk | responseError | responseData
  deriving DecidableEq

structure IpcMessage where
  version : UInt8
  msgType : MsgType
  correlationId : UInt64
  payload : List UInt8
  deriving DecidableEq

def IpcMessage.new (msgType : MsgType) (correlationId : UInt64) (payload : List UInt8) :
    IpcMessage where
  version := ipcVersion
  msgType := msgType
  correlationId := correlationId
  payload := payload

/-- `postcard::to_allocvec` and `postcard::from_bytes` on messages. -/
class MessageCodec where
  toAllocvec : IpcMessage → Except String (List UInt8)
  fromBytes : List UInt8 → Except String IpcMessage

/-- What is encoded is decoded to the same message, and not from a part of it. -/
structure MessageCodec.Lawful (codec : MessageCodec) : Prop where
  roundTrip : ∀ msg bytes, codec.toAllocvec msg = .ok bytes → codec.fromBytes bytes = .ok msg
  truncated : ∀ msg bytes, codec.toAllocvec msg = .ok bytes → ∀ n < bytes.length,
    codec.fromBytes (bytes.take n) ≠ .ok msg

def MsgType.all : List MsgType :=
  [.addRule, .removeRule, .flushRules, .startDriver, .stopDriver, .restartDriver, .healthCheck,
    .getMetrics, .getPlan, .getExplain, .getDesired, .getActual, .reload, .getActualRules,
    .getConfigFingerprint, .setPathMtu, .restorePathMtu, .getPathMtuState, .qosOp, .getQosState,
    .getQosCapabilities, .interfaceOp, .tailscaleOp, .dpiOp, .gatewayOp, .upnpOp, .wifiOp,
    .mptcpOp, .responseOk, .responseError, .responseData]

theorem MsgType.getElem?_idxOf (msgType : MsgType) :
    all[all.idxOf msgType]? = some msgType ∧ all.idxOf msgType < UInt64.size := by
  cases msgType <;> decide

namespace Postcard

def ipcMessage (msg : IpcMessage) : List UInt8 :=
  [msg.version] ++ (varint (MsgType.all.idxOf msg.msgType) ++ (varint msg.correlationId.toNat
    ++ sequence (fun b => [b]) msg.payload))

theorem length_ipcMessage (msg : IpcMessage) : (ipcMessage msg).length =
    1 + ((varint (MsgType.all.idxOf msg.msgType)).length +
      ((varint msg.correlationId.toNat).length +
        ((varint msg.payload.length).length + msg.payload.length))) := by
  simp only [ipcMessage, sequence, length_append, length_singleton, flatMap_singleton']

def ungroups : ℕ → Decoder ℕ
  | 0 => fun _ => none
  | size + 1 => do
    let b ← Decoder.byte
    if b.toNat < 128 then return b.toNat else return b.toNat - 128 + 128 * (← ungroups size)

def unvarint : Decoder ℕ := do
  let n ← ungroups 10
  if n < UInt64.size then return n else Decoder.ofOption none

def unIpcMessage : Decoder IpcMessage := do
  let version ← Decoder.byte
  let variant ← unvarint
  let msgType ← Decoder.ofOption MsgType.all[variant]?
  let correlationId ← unvarint
  let length ← unvarint
  let payload ← Decoder.take length
  return { version, msgType, correlationId := UInt64.ofNat correlationId, payload }

def Grouped : ℕ → ℕ → Prop
  | 0, _ => False
  | size + 1, n => n < 128 ∨ Grouped size (n / 128)

theorem reads_ungroups {size n : ℕ} (h : Grouped size n) :
    Decoder.Reads (ungroups size) (groups size n) n := by
  induction size generalizing n with
  | zero => exact h.elim
  | succ size ih =>
    intro more
    rw [groups, ungroups, Decoder.bind_apply]
    split
    · rename_i hs
      have hb : (UInt8.ofNat n).toNat = n := by
        rw [UInt8.toNat_ofNat']
        omega
      rw [Decoder.reads_byte, Option.bind_some, hb, if_pos hs]
      rfl
    · rename_i hl
      have hb : (UInt8.ofNat (n % 128 + 128)).toNat = n % 128 + 128 := by
        rw [UInt8.toNat_ofNat']
        omega
      have hr := ih (h.resolve_left hl) more
      rw [cons_append, ← singleton_append, Decoder.reads_byte, Option.bind_some, hb,
        if_neg (by omega), Decoder.bind_apply, hr]
      simp only [Option.bind_some, Decoder.pure_apply]
      congr 2
      omega

theorem stable_ungroups (size : ℕ) : Decoder.Stable (ungroups size) := by
  induction size with
  | zero => exact fun _ _ _ h => nomatch h
  | succ size ih =>
    refine Decoder.stable_byte.bind fun b => ?_
    split
    · exact Decoder.stable_pure _
    · exact ih.bind fun n => Decoder.stable_pure _

theorem reads_unvarint {n : ℕ} (h : n < UInt64.size) : Decoder.Reads unvarint (varint n) n := by
  have hg : Grouped 10 n := by
    have : n < 18446744073709551616 := h
    simp only [Grouped]
    omega
  have hc : Decoder.Reads (if n < UInt64.size then pure n else Decoder.ofOption none) [] n := by
    rw [if_pos h]
    exact Decoder.reads_pure n
  rw [← append_nil (varint n)]
  exact (reads_ungroups hg).bind hc

theorem stable_unvarint : Decoder.Stable unvarint := by
  refine (stable_ungroups 10).bind fun n => ?_
  split
  · exact Decoder.stable_pure _
  · exact Decoder.stable_ofOption _

variable {msg : IpcMessage}

theorem reads_unIpcMessage (h : msg.payload.length < UInt64.size) :
    Decoder.Reads unIpcMessage (ipcMessage msg) msg := by
  obtain ⟨hv, hs⟩ := msg.msgType.getElem?_idxOf
  have hp : msg.payload.flatMap (fun b => [b]) = msg.payload := flatMap_singleton' _
  refine (Decoder.reads_byte _).bind ((reads_unvarint hs).bind ?_)
  rw [hv, sequence, hp]
  refine (Decoder.reads_pure msg.msgType).bind ?_
  refine (reads_unvarint msg.correlationId.toNat_lt).bind ((reads_unvarint h).bind ?_)
  rw [UInt64.ofNat_toNat]
  exact (Decoder.reads_take msg.payload).map fun payload => { msg with payload }

theorem stable_unIpcMessage : Decoder.Stable unIpcMessage := by
  refine Decoder.stable_byte.bind fun version => stable_unvarint.bind fun variant => ?_
  refine (Decoder.stable_ofOption _).bind fun msgType => stable_unvarint.bind fun id => ?_
  refine stable_unvarint.bind fun length => (Decoder.stable_take _).bind fun payload => ?_
  exact Decoder.stable_pure _

def toAllocvec (msg : IpcMessage) : Except String (List UInt8) :=
  if msg.payload.length < UInt64.size then .ok (ipcMessage msg)
  else .error "The serialize buffer is full"

def fromBytes (bytes : List UInt8) : Except String IpcMessage :=
  match unIpcMessage bytes with
  | some (msg, _) => .ok msg
  | none => .error "Hit the end of buffer, expected more data"

theorem reads_of_toAllocvec {bytes : List UInt8}
    (h : toAllocvec msg = .ok bytes) : Decoder.Reads unIpcMessage bytes msg := by
  unfold toAllocvec at h
  split at h
  · rename_i hl
    cases h
    exact reads_unIpcMessage hl
  · cases h

end Postcard

@[reducible] def wireCodec : MessageCodec where
  toAllocvec := Postcard.toAllocvec
  fromBytes := Postcard.fromBytes

theorem wireCodec_lawful : wireCodec.Lawful where
  roundTrip msg bytes he := by
    have hr := Postcard.reads_of_toAllocvec he []
    rw [append_nil] at hr
    show Postcard.fromBytes bytes = .ok msg
    rw [Postcard.fromBytes, hr]
  truncated msg bytes he n hn := by
    have hw := Postcard.stable_unIpcMessage.waits (Postcard.reads_of_toAllocvec he) hn
    show Postcard.fromBytes (bytes.take n) ≠ .ok msg
    rw [Postcard.fromBytes, hw]
    simp

end BalanSir.Common
