/-
# The server name of a TLS ClientHello

`extract_tls_sni` and `parse_sni_list`, with every read checked.
-/

import BalanSir.Lib.Checked
import BalanSir.Lib.Utf8

namespace BalanSir.B4

open Lib

def sniRound (list : Bytes) (off : ℕ) : Checked (ℕ ⊕ Option Text) :=
  if off + 3 ≤ list.length then do
    let nameType ← byteAt list off
    let nameLen ← u16At list (off + 1)
    if list.length < off + 3 + nameLen then .ok (.inr none)
    else if nameType = 0 then do
      let name ← slice list (off + 3) (off + 3 + nameLen)
      .ok (.inr (decodeUtf8 name))
    else .ok (.inl (off + 3 + nameLen))
  else .ok (.inr none)

def parseSniList (data : Bytes) : Checked (Option Text) :=
  if data.length < 2 then .ok none else do
  let listLen ← u16At data 0
  let list ← slice data 2 data.length
  if list.length < listLen then .ok none
  else rounds (sniRound list) (list.length + 1) 0

def extensionRound (exts : Bytes) (e : ℕ) : Checked (ℕ ⊕ Option Text) :=
  if e + 4 ≤ exts.length then do
    let extType ← u16At exts e
    let extLen ← u16At exts (e + 2)
    if exts.length < e + 4 + extLen then .ok (.inr none)
    else if extType = 0 then do
      let data ← slice exts (e + 4) (e + 4 + extLen)
      let sni ← parseSniList data
      .ok (.inr sni)
    else .ok (.inl (e + 4 + extLen))
  else .ok (.inr none)

def clientHelloSni (body : Bytes) : Checked (Option Text) :=
  if body.length < 2 + 32 + 1 then .ok none else do
  let off := 2 + 32
  let sidLen ← byteAt body off
  let off := off + 1 + sidLen.toNat
  if body.length < off + 2 then .ok none else do
  let csLen ← u16At body off
  let off := off + 2 + csLen
  if body.length < off + 1 then .ok none else do
  let compLen ← byteAt body off
  let off := off + 1 + compLen.toNat
  if body.length < off + 2 then .ok none else do
  let extTotal ← u16At body off
  let off := off + 2
  if body.length < off + extTotal then .ok none else do
  let exts ← slice body off (off + extTotal)
  rounds (extensionRound exts) (exts.length + 1) 0

def extractTlsSni (payload : Bytes) : Checked (Option Text) :=
  if payload.length < 5 then .ok none else do
  let kind ← byteAt payload 0
  if kind ≠ 0x16 then .ok none else do
  let recLen ← u16At payload 3
  let hs := 5
  if payload.length < hs + 4 then .ok none else do
  let hsType ← byteAt payload hs
  if hsType ≠ 0x01 then .ok none else do
  let high ← byteAt payload (hs + 1)
  let mid ← byteAt payload (hs + 2)
  let low ← byteAt payload (hs + 3)
  let hsLen := high.toNat * 65536 + mid.toNat * 256 + low.toNat
  let hello := hs + 4
  if payload.length < hello + hsLen ∨ 5 + recLen < hello + hsLen then .ok none else do
  let body ← slice payload hello (hello + hsLen)
  clientHelloSni body

def recLen (payload : Bytes) : ℕ := wordAt payload 3

def hsLen (payload : Bytes) : ℕ :=
  (payload.getD 6 0).toNat * 65536 + (payload.getD 7 0).toNat * 256 + (payload.getD 8 0).toNat

/-- A record with a whole ClientHello at the front of a stream. -/
@[mk_iff]
structure HelloAt (payload : Bytes) : Prop where
  kind : payload.getD 0 0 = 0x16
  hello : payload.getD 5 0 = 0x01
  arrived : 9 + hsLen payload ≤ payload.length
  inRecord : 9 + hsLen payload ≤ 5 + recLen payload

variable {payload : Bytes}

theorem extractTlsSni_of_helloAt (h : HelloAt payload) :
    extractTlsSni payload = clientHelloSni (between payload 9 (9 + hsLen payload)) := by
  have ha := h.arrived
  have hr := h.inRecord
  unfold extractTlsSni
  rw [if_neg (by omega), byteAt_of_lt (by omega), ok_bind, if_neg (not_not.2 h.kind),
    u16At_of_lt (by omega), ok_bind, if_neg (by omega), byteAt_of_lt (by omega), ok_bind,
    if_neg (not_not.2 h.hello), byteAt_of_lt (by omega), ok_bind, byteAt_of_lt (by omega), ok_bind,
    byteAt_of_lt (by omega), ok_bind]
  change (if payload.length < 9 + hsLen payload ∨ 5 + recLen payload < 9 + hsLen payload then _
    else slice payload 9 (9 + hsLen payload) >>= _) = _
  rw [if_neg (by omega), slice_of_le (by omega) ha, ok_bind]

theorem extractTlsSni_of_not_helloAt (h : ¬HelloAt payload) : extractTlsSni payload = .ok none := by
  unfold extractTlsSni
  by_cases hf : payload.length < 5
  · rw [if_pos hf]
  rw [if_neg hf, byteAt_of_lt (by omega), ok_bind]
  by_cases hk : payload.getD 0 0 ≠ 0x16
  · rw [if_pos hk]
  rw [if_neg hk, u16At_of_lt (by omega), ok_bind]
  by_cases hn : payload.length < 5 + 4
  · rw [if_pos hn]
  rw [if_neg hn, byteAt_of_lt (by omega), ok_bind]
  by_cases hh : payload.getD 5 0 ≠ 0x01
  · rw [if_pos hh]
  rw [if_neg hh, byteAt_of_lt (by omega), ok_bind, byteAt_of_lt (by omega), ok_bind,
    byteAt_of_lt (by omega), ok_bind]
  refine if_pos ?_
  show payload.length < 9 + hsLen payload ∨ 5 + recLen payload < 9 + hsLen payload
  refine Classical.byContradiction fun hfi => ?_
  exact h ⟨not_not.1 hk, not_not.1 hh, by omega, by omega⟩

theorem HelloAt.append (h : HelloAt payload) (more : Bytes) :
    HelloAt (payload ++ more) ∧ hsLen (payload ++ more) = hsLen payload := by
  have ha := h.arrived
  have hg (i : ℕ) (hi : i < 9) : (payload ++ more).getD i 0 = payload.getD i 0 :=
    List.getD_append _ _ _ _ (by omega)
  have hhs : hsLen (payload ++ more) = hsLen payload := by
    rw [hsLen, hg 6 (by omega), hg 7 (by omega), hg 8 (by omega), hsLen]
  have hr : recLen (payload ++ more) = recLen payload := by
    rw [recLen, wordAt, hg 3 (by omega), hg 4 (by omega), recLen, wordAt]
  refine ⟨⟨?_, ?_, ?_, ?_⟩, hhs⟩
  · rw [hg 0 (by omega), h.kind]
  · rw [hg 5 (by omega), h.hello]
  · rw [List.length_append]
    omega
  · rw [hhs, hr]
    exact h.inRecord

theorem HelloAt.extractTlsSni_append (h : HelloAt payload) (more : Bytes) :
    extractTlsSni (payload ++ more) = extractTlsSni payload := by
  obtain ⟨hm, hl⟩ := h.append more
  rw [extractTlsSni_of_helloAt h, extractTlsSni_of_helloAt hm, hl, between, between,
    List.take_append_of_le_length h.arrived]

theorem helloAt_of_sni {host : Text} (h : extractTlsSni payload = .ok (some host)) :
    HelloAt payload := by
  by_contra hh
  rw [extractTlsSni_of_not_helloAt hh] at h
  cases h

theorem extractTlsSni_nil : extractTlsSni [] = .ok none := rfl

structure Extension where
  kind : ℕ
  data : Bytes
  kind_pos : kind ≠ 0
  kind_lt : kind < 65536

/-- A name in a `server_name` extension that is not a host name. -/
structure OtherName where
  nameType : UInt8
  data : Bytes
  not_host : nameType ≠ 0

/-- A ClientHello with a server name, in one record. -/
structure ClientHello where
  recordMajor : UInt8
  recordMinor : UInt8
  legacyVersion : Bytes
  random : Bytes
  sessionId : Bytes
  cipherSuites : Bytes
  compressionMethods : Bytes
  before : List Extension
  otherNames : List OtherName
  serverName : Text
  moreNames : Bytes
  after : Bytes
  length_version : legacyVersion.length = 2
  length_random : random.length = 32
  length_sessionId : sessionId.length < 256
  length_compressionMethods : compressionMethods.length < 256

def Extension.bytes (ext : Extension) : Bytes :=
  be16Bytes ext.kind ++ (be16Bytes ext.data.length ++ ext.data)

def OtherName.bytes (name : OtherName) : Bytes :=
  name.nameType :: (be16Bytes name.data.length ++ name.data)

namespace ClientHello

variable (hello : ClientHello)

def names : Bytes :=
  hello.otherNames.flatMap OtherName.bytes ++
    (0 :: (be16Bytes (encode hello.serverName).length ++ encode hello.serverName) ++
      hello.moreNames)

def sniData : Bytes := be16Bytes hello.names.length ++ hello.names

def extensions : Bytes :=
  hello.before.flatMap Extension.bytes ++
    (be16Bytes 0 ++ (be16Bytes hello.sniData.length ++ hello.sniData) ++ hello.after)

def body : Bytes :=
  hello.legacyVersion ++ hello.random ++
    (UInt8.ofNat hello.sessionId.length :: (hello.sessionId ++
    (be16Bytes hello.cipherSuites.length ++ (hello.cipherSuites ++
    (UInt8.ofNat hello.compressionMethods.length :: (hello.compressionMethods ++
    (be16Bytes hello.extensions.length ++ hello.extensions)))))))

def bytes : Bytes :=
  0x16 :: hello.recordMajor :: hello.recordMinor :: (be16Bytes (4 + hello.body.length) ++
    (0x01 :: UInt8.ofNat (hello.body.length / 65536) ::
      (be16Bytes hello.body.length ++ hello.body)))

end ClientHello

end BalanSir.B4
