/-
# IPv4 packets with a TCP or UDP header

`TcpPacket` and `UdpPacket` of `packet.rs`: what `parse` accepts, and the fields.
-/

import BalanSir.Lib.Checked
import Mathlib.Tactic.MkIffOfInductiveProp

namespace BalanSir.B4

open Lib

structure TcpPacket where
  raw : Bytes
  ipHeaderLen : ℕ
  ipTotalLen : ℕ
  tcpOffset : ℕ
  tcpHeaderLen : ℕ
  tcpDoffField : ℕ
  checksumOffsets : ℕ × ℕ
deriving DecidableEq

namespace TcpPacket

def parse (raw : Bytes) : Checked (Option TcpPacket) :=
  if raw.length < 20 then .ok none else do
  let verIhl ← byteAt raw 0
  if verIhl >>> 4 ≠ 4 then .ok none else do
  let ipHeaderLen := (verIhl &&& 0x0f).toNat * 4
  if ipHeaderLen < 20 ∨ raw.length < ipHeaderLen then .ok none else do
  let proto ← byteAt raw 9
  if proto ≠ 6 then .ok none else do
  let ipTotalLen ← u16At raw 2
  if ipTotalLen < ipHeaderLen ∨ raw.length < ipTotalLen then .ok none else do
  let tcpOffset := ipHeaderLen
  if raw.length < tcpOffset + 20 then .ok none else do
  let tcpDoffField := tcpOffset + 12
  let doff ← byteAt raw tcpDoffField
  let tcpHeaderLen := (doff >>> 4).toNat * 4
  if tcpHeaderLen < 20 ∨ raw.length < tcpOffset + tcpHeaderLen then .ok none else
  .ok (some
    { raw, ipHeaderLen, ipTotalLen, tcpOffset, tcpHeaderLen, tcpDoffField
      checksumOffsets := (10, tcpOffset + 16) })

def dstPort (pkt : TcpPacket) : Checked ℕ := u16At pkt.raw (pkt.tcpOffset + 2)

def srcPort (pkt : TcpPacket) : Checked ℕ := u16At pkt.raw pkt.tcpOffset

def srcIp (pkt : TcpPacket) : Checked ℕ := u32At pkt.raw 12

def dstIp (pkt : TcpPacket) : Checked ℕ := u32At pkt.raw 16

def tcpSeq (pkt : TcpPacket) : Checked ℕ := u32At pkt.raw (pkt.tcpOffset + 4)

def setTcpSeq (pkt : TcpPacket) (seq : ℕ) : Checked TcpPacket := do
  let raw ← copyAt pkt.raw (pkt.tcpOffset + 4) (be32Bytes seq)
  return { pkt with raw }

def tcpFlags (pkt : TcpPacket) : Checked UInt8 := byteAt pkt.raw (pkt.tcpOffset + 13)

def tcpPayload (pkt : TcpPacket) : Checked Bytes :=
  slice pkt.raw (pkt.tcpOffset + pkt.tcpHeaderLen) pkt.raw.length

end TcpPacket

/-- An IPv4 address as `[u8; 4]`. -/
structure Octets where
  a : UInt8
  b : UInt8
  c : UInt8
  d : UInt8
deriving DecidableEq

def Octets.bytes (o : Octets) : Bytes := [o.a, o.b, o.c, o.d]

def octetsAt (raw : Bytes) (i : ℕ) : Checked Octets := do
  let a ← byteAt raw i
  let b ← byteAt raw (i + 1)
  let c ← byteAt raw (i + 2)
  let d ← byteAt raw (i + 3)
  return ⟨a, b, c, d⟩

theorem octetsAt_of_fromOn {raw rest : Bytes} {i : ℕ} {o : Octets}
    (h : FromOn raw i (o.bytes ++ rest)) : octetsAt raw i = .ok o := by
  have hf : FromOn raw i (o.a :: o.b :: o.c :: o.d :: rest) := h
  rw [octetsAt, hf.byteAt, hf.tail.byteAt, hf.tail.tail.byteAt, hf.tail.tail.tail.byteAt]
  rfl

structure UdpPacket where
  raw : Bytes
  ipHeaderLen : ℕ
  udpOffset : ℕ
  udpLen : ℕ
deriving DecidableEq

namespace UdpPacket

def parse (raw : Bytes) : Checked (Option UdpPacket) :=
  if raw.length < 20 then .ok none else do
  let verIhl ← byteAt raw 0
  if verIhl >>> 4 ≠ 4 then .ok none else do
  let ipHeaderLen := (verIhl &&& 0x0f).toNat * 4
  if ipHeaderLen < 20 ∨ raw.length < ipHeaderLen then .ok none else do
  let proto ← byteAt raw 9
  if proto ≠ 17 then .ok none else do
  let ipTotalLen ← u16At raw 2
  if ipTotalLen < ipHeaderLen ∨ raw.length < ipTotalLen then .ok none else do
  let udpOffset := ipHeaderLen
  if raw.length < udpOffset + 8 then .ok none else do
  let udpLen ← u16At raw (udpOffset + 4)
  if udpLen < 8 ∨ raw.length < udpOffset + udpLen then .ok none else
  .ok (some { raw, ipHeaderLen, udpOffset, udpLen })

def dstPort (pkt : UdpPacket) : Checked ℕ := u16At pkt.raw (pkt.udpOffset + 2)

def srcPort (pkt : UdpPacket) : Checked ℕ := u16At pkt.raw pkt.udpOffset

def srcIp (pkt : UdpPacket) : Checked Octets := octetsAt pkt.raw 12

def dstIp (pkt : UdpPacket) : Checked Octets := octetsAt pkt.raw 16

theorem parse_runs (raw : Bytes) : Runs (parse raw) False fun o =>
      ∀ u, o = some u → 20 ≤ u.udpOffset ∧ u.udpOffset + 8 ≤ u.raw.length := by
  unfold parse
  by_cases hl : raw.length < 20
  · exact if_pos hl ▸ runs_ok (by simp)
  rw [if_neg hl, byteAt_of_lt (by omega), ok_bind]
  by_cases hv : raw.getD 0 0 >>> 4 ≠ 4
  · exact if_pos hv ▸ runs_ok (by simp)
  rw [if_neg hv]
  by_cases hi : (raw.getD 0 0 &&& 0x0f).toNat * 4 < 20 ∨
      raw.length < (raw.getD 0 0 &&& 0x0f).toNat * 4
  · exact if_pos hi ▸ runs_ok (by simp)
  rw [if_neg hi, byteAt_of_lt (by omega), ok_bind]
  by_cases hp : raw.getD 9 0 ≠ 17
  · exact if_pos hp ▸ runs_ok (by simp)
  rw [if_neg hp, u16At_of_lt (by omega), ok_bind]
  by_cases ht : wordAt raw 2 < (raw.getD 0 0 &&& 0x0f).toNat * 4 ∨ raw.length < wordAt raw 2
  · exact if_pos ht ▸ runs_ok (by simp)
  rw [if_neg ht]
  by_cases hu : raw.length < (raw.getD 0 0 &&& 0x0f).toNat * 4 + 8
  · exact if_pos hu ▸ runs_ok (by simp)
  rw [if_neg hu, u16At_of_lt (by omega), ok_bind]
  split_ifs
  · exact runs_ok (by simp)
  · refine runs_ok ?_
    rintro u ⟨⟩
    exact ⟨Nat.not_lt.1 fun hs => hi (.inl hs), Nat.not_lt.1 hu⟩

end UdpPacket

def ihl (raw : Bytes) : ℕ := (raw.getD 0 0 &&& 0x0f).toNat * 4

def thl (raw : Bytes) : ℕ := (raw.getD (ihl raw + 12) 0 >>> 4).toNat * 4

/-- The bytes `TcpPacket::parse` accepts. -/
@[mk_iff]
structure IsTcp (raw : Bytes) : Prop where
  version : raw.getD 0 0 >>> 4 = 4
  ihl_ge : 20 ≤ ihl raw
  proto : raw.getD 9 0 = 6
  total_ge : ihl raw ≤ wordAt raw 2
  total_le : wordAt raw 2 ≤ raw.length
  thl_ge : 20 ≤ thl raw
  fits : ihl raw + thl raw ≤ raw.length

instance (raw : Bytes) : Decidable (IsTcp raw) := decidable_of_iff' _ (isTcp_iff raw)

def TcpPacket.ofRaw (raw : Bytes) : TcpPacket where
  raw := raw
  ipHeaderLen := ihl raw
  ipTotalLen := wordAt raw 2
  tcpOffset := ihl raw
  tcpHeaderLen := thl raw
  tcpDoffField := ihl raw + 12
  checksumOffsets := (10, ihl raw + 16)

variable {raw : Bytes}

theorem parse_of_isTcp (h : IsTcp raw) : TcpPacket.parse raw = .ok (some (.ofRaw raw)) := by
  have hi := h.ihl_ge
  have hth := h.thl_ge
  have hf := h.fits
  have ht := h.total_ge
  have ht' := h.total_le
  have hv := h.version
  have hp := h.proto
  have hc₁ : ¬(ihl raw < 20 ∨ raw.length < ihl raw) := by omega
  have hc₂ : ¬(wordAt raw 2 < ihl raw ∨ raw.length < wordAt raw 2) := by omega
  have hc₃ : ¬(thl raw < 20 ∨ raw.length < ihl raw + thl raw) := by omega
  unfold TcpPacket.parse
  rw [if_neg (by omega), byteAt_of_lt (by omega), ok_bind, if_neg (not_not.2 hv)]
  change (if ihl raw < 20 ∨ raw.length < ihl raw then _ else _) = _
  rw [if_neg hc₁, byteAt_of_lt (by omega), ok_bind, if_neg (not_not.2 hp), u16At_of_lt (by omega)]
  change (if wordAt raw 2 < ihl raw ∨ raw.length < wordAt raw 2 then _ else
    if raw.length < ihl raw + 20 then _ else (byteAt raw (ihl raw + 12) >>= _)) = _
  rw [if_neg hc₂, if_neg (by omega), byteAt_of_lt (by omega)]
  exact if_neg hc₃

theorem parse_of_not_isTcp (h : ¬IsTcp raw) : TcpPacket.parse raw = .ok none := by
  unfold TcpPacket.parse
  by_cases hl : raw.length < 20
  · rw [if_pos hl]
  rw [if_neg hl, byteAt_of_lt (by omega), ok_bind]
  by_cases hv : raw.getD 0 0 >>> 4 ≠ 4
  · rw [if_pos hv]
  rw [if_neg hv]
  change (if ihl raw < 20 ∨ raw.length < ihl raw then _ else _) = _
  by_cases hi : ihl raw < 20 ∨ raw.length < ihl raw
  · rw [if_pos hi]
  rw [if_neg hi, byteAt_of_lt (by omega), ok_bind]
  by_cases hp : raw.getD 9 0 ≠ 6
  · rw [if_pos hp]
  rw [if_neg hp, u16At_of_lt (by omega)]
  change (if wordAt raw 2 < ihl raw ∨ raw.length < wordAt raw 2 then _ else
    if raw.length < ihl raw + 20 then _ else (byteAt raw (ihl raw + 12) >>= _)) = _
  by_cases ht : wordAt raw 2 < ihl raw ∨ raw.length < wordAt raw 2
  · rw [if_pos ht]
  rw [if_neg ht]
  by_cases htc : raw.length < ihl raw + 20
  · rw [if_pos htc]
  rw [if_neg htc, byteAt_of_lt (by omega)]
  refine if_pos ?_
  show thl raw < 20 ∨ raw.length < ihl raw + thl raw
  refine Classical.byContradiction fun hf => ?_
  exact h ⟨not_not.1 hv, by omega, not_not.1 hp, by omega, by omega, by omega, by omega⟩

theorem parse_eq_some {pkt : TcpPacket} :
    TcpPacket.parse raw = .ok (some pkt) ↔ IsTcp raw ∧ pkt = .ofRaw raw := by
  by_cases h : IsTcp raw
  · rw [parse_of_isTcp h]
    simp [h, eq_comm]
  · rw [parse_of_not_isTcp h]
    simp [h]

theorem ihl_le (raw : Bytes) : ihl raw ≤ 60 := by
  have : (raw.getD 0 0 &&& 0x0f).toNat ≤ 15 := by
    exact Nat.and_le_right
  unfold ihl
  omega

theorem thl_mod (raw : Bytes) : thl raw % 4 = 0 := by
  unfold thl
  omega

theorem thl_le (raw : Bytes) : thl raw ≤ 60 := by
  have hb := (raw.getD (ihl raw + 12) 0).toNat_lt
  have : (raw.getD (ihl raw + 12) 0 >>> 4).toNat = (raw.getD (ihl raw + 12) 0).toNat / 16 := by
    exact Nat.shiftRight_eq_div_pow _ 4
  unfold thl
  omega

namespace TcpPacket

/-- The places kept in the packet are those its bytes give. -/
structure Coherent (pkt : TcpPacket) : Prop where
  isTcp : IsTcp pkt.raw
  ipHeaderLen : pkt.ipHeaderLen = ihl pkt.raw
  tcpOffset : pkt.tcpOffset = ihl pkt.raw
  tcpHeaderLen : pkt.tcpHeaderLen = thl pkt.raw
  checksumOffsets : pkt.checksumOffsets = (10, ihl pkt.raw + 16)

def payload (pkt : TcpPacket) : Bytes := pkt.raw.drop (pkt.tcpOffset + pkt.tcpHeaderLen)

def tcpChecksum (pkt : TcpPacket) : ℕ := wordAt pkt.raw (pkt.tcpOffset + 16)

theorem coherent_ofRaw {raw : Bytes} (h : IsTcp raw) : (ofRaw raw).Coherent :=
  ⟨h, rfl, rfl, rfl, rfl⟩

variable {pkt : TcpPacket} {pkt₁ pkt₂ pkt₃ : TcpPacket}

theorem Coherent.bounds (h : pkt.Coherent) :
    20 ≤ pkt.tcpOffset ∧ pkt.tcpOffset ≤ 60 ∧ 20 ≤ pkt.tcpHeaderLen ∧ pkt.tcpHeaderLen ≤ 60 ∧
      pkt.tcpOffset + pkt.tcpHeaderLen ≤ pkt.raw.length := by
  have hi := h.isTcp.ihl_ge
  have hi' := ihl_le pkt.raw
  have ht := h.isTcp.thl_ge
  have ht' := thl_le pkt.raw
  have hf := h.isTcp.fits
  rw [h.tcpOffset, h.tcpHeaderLen]
  omega

theorem ihl_congr {raw raw' : Bytes} (h : raw'.getD 0 0 = raw.getD 0 0) : ihl raw' = ihl raw := by
  rw [ihl, h, ihl]

theorem Coherent.of_raw (h : pkt.Coherent) {pkt' : TcpPacket}
    (hip : pkt'.ipHeaderLen = pkt.ipHeaderLen) (htc : pkt'.tcpOffset = pkt.tcpOffset)
    (hs : pkt'.checksumOffsets = (10, pkt.tcpOffset + 16))
    (hf : pkt'.raw.getD 0 0 = pkt.raw.getD 0 0) (hp : pkt'.raw.getD 9 0 = pkt.raw.getD 9 0)
    (ht : pkt.tcpOffset ≤ wordAt pkt'.raw 2) (ht' : wordAt pkt'.raw 2 ≤ pkt'.raw.length)
    (hth : thl pkt'.raw = pkt'.tcpHeaderLen) (hge : 20 ≤ pkt'.tcpHeaderLen)
    (hfi : pkt.tcpOffset + pkt'.tcpHeaderLen ≤ pkt'.raw.length) : pkt'.Coherent := by
  have hi : ihl pkt'.raw = pkt.tcpOffset := (ihl_congr hf).trans h.tcpOffset.symm
  refine ⟨⟨?_, ?_, ?_, ?_, ht', ?_, ?_⟩, ?_, ?_, hth.symm, ?_⟩
  · rw [hf, h.isTcp.version]
  · rw [hi]
    exact h.bounds.1
  · rw [hp, h.isTcp.proto]
  · rw [hi]
    exact ht
  · rw [hth]
    exact hge
  · rw [hi, hth]
    exact hfi
  · rw [hip, hi, h.ipHeaderLen, h.tcpOffset]
  · rw [htc, hi]
  · rw [hs, hi]

theorem tcpPayload_eq (h : pkt.Coherent) : pkt.tcpPayload = .ok pkt.payload :=
  slice_to_end h.bounds.2.2.2.2

def flags (pkt : TcpPacket) : UInt8 := pkt.raw.getD (pkt.tcpOffset + 13) 0

def seq (pkt : TcpPacket) : ℕ :=
  wordAt pkt.raw (pkt.tcpOffset + 4) * 65536 + wordAt pkt.raw (pkt.tcpOffset + 6)

def port (pkt : TcpPacket) : ℕ := wordAt pkt.raw (pkt.tcpOffset + 2)

theorem tcpFlags_eq (h : pkt.Coherent) : pkt.tcpFlags = .ok pkt.flags := by
  have hb := h.bounds
  exact byteAt_of_lt (by omega)

theorem tcpSeq_eq (h : pkt.Coherent) : pkt.tcpSeq = .ok pkt.seq := by
  have hb := h.bounds
  exact u32At_of_lt (by omega)

theorem dstPort_eq (h : pkt.Coherent) : pkt.dstPort = .ok pkt.port := by
  have hb := h.bounds
  exact u16At_of_lt (by omega)

theorem length_payload (h : pkt.Coherent) :
    pkt.raw.length = pkt.tcpOffset + pkt.tcpHeaderLen + pkt.payload.length := by
  have := h.bounds
  rw [payload, List.length_drop]
  omega

/-- A coherent packet of the same IP header length and payload, its total length right if it was. -/
structure Keeps (pkt pkt' : TcpPacket) : Prop where
  coherent : pkt'.Coherent
  offset : pkt'.tcpOffset = pkt.tcpOffset
  payload : pkt'.payload = pkt.payload
  length_le : pkt'.raw.length ≤ pkt.raw.length
  total : wordAt pkt.raw 2 = pkt.raw.length → wordAt pkt'.raw 2 = pkt'.raw.length

theorem Keeps.refl (h : pkt.Coherent) : Keeps pkt pkt := ⟨h, rfl, rfl, Nat.le_refl _, id⟩

theorem Keeps.trans (h : Keeps pkt₁ pkt₂) (h' : Keeps pkt₂ pkt₃) : Keeps pkt₁ pkt₃ where
  coherent := h'.coherent
  offset := h'.offset.trans h.offset
  payload := h'.payload.trans h.payload
  length_le := Nat.le_trans h'.length_le h.length_le
  total ht := h'.total (h.total ht)

theorem Keeps.parse {pkt' : TcpPacket} (h : Keeps pkt pkt') :
    ∃ again, TcpPacket.parse pkt'.raw = .ok (some again) ∧ again.payload = pkt.payload := by
  refine ⟨_, parse_of_isTcp h.coherent.isTcp, ?_⟩
  rw [← h.payload, TcpPacket.payload, TcpPacket.payload, h.coherent.tcpOffset,
    h.coherent.tcpHeaderLen]
  rfl

theorem Keeps.patch (h : pkt.Coherent) {i : ℕ} {src : Bytes}
    (he : i + src.length ≤ pkt.tcpOffset + pkt.tcpHeaderLen)
    (hf : ∀ j, j = 0 ∨ j = 2 ∨ j = 3 ∨ j = 9 ∨ j = pkt.tcpOffset + 12 →
      j < i ∨ i + src.length ≤ j) : Keeps pkt { pkt with raw := patch pkt.raw i src } := by
  have hb := h.bounds
  have hin : i + src.length ≤ pkt.raw.length := by omega
  have hg (j : ℕ) (hj : j = 0 ∨ j = 2 ∨ j = 3 ∨ j = 9 ∨ j = pkt.tcpOffset + 12) :
      (Lib.patch pkt.raw i src).getD j 0 = pkt.raw.getD j 0 := by
    rcases hf j hj with hlt | hge
    · exact getD_patch_of_lt (by omega) hlt 0
    · exact getD_patch_of_ge hin hge 0
  have hi : ihl (Lib.patch pkt.raw i src) = ihl pkt.raw := ihl_congr (hg 0 (by omega))
  have hth : thl (Lib.patch pkt.raw i src) = pkt.tcpHeaderLen := by
    rw [thl, hi, ← h.tcpOffset, hg _ (by omega), h.tcpHeaderLen, thl, ← h.tcpOffset]
  have ht : wordAt (Lib.patch pkt.raw i src) 2 = wordAt pkt.raw 2 := by
    rw [wordAt, hg 2 (by omega), hg 3 (by omega), wordAt]
  have hl := length_patch hin
  have htotal_ge := h.isTcp.total_ge
  have htotal_le := h.isTcp.total_le
  rw [← h.tcpOffset] at htotal_ge
  refine ⟨h.of_raw rfl rfl ?_ (hg 0 (by omega)) (hg 9 (by omega)) ?_ ?_ hth hb.2.2.1 ?_,
    rfl, drop_patch hin he, Nat.le_of_eq hl, ?_⟩
  · rw [h.checksumOffsets, h.tcpOffset]
  · show _ ≤ wordAt (Lib.patch pkt.raw i src) 2
    omega
  · show wordAt (Lib.patch pkt.raw i src) 2 ≤ (Lib.patch pkt.raw i src).length
    omega
  · show pkt.tcpOffset + pkt.tcpHeaderLen ≤ (Lib.patch pkt.raw i src).length
    omega
  · rw [ht, hl]
    exact id

/-- A mutation that leaves the TCP checksum as it is, to be computed anew after it. -/
structure Mutates (pkt pkt' : TcpPacket) : Prop extends Keeps pkt pkt' where
  checksum : pkt'.tcpChecksum = pkt.tcpChecksum

theorem Mutates.refl (h : pkt.Coherent) : Mutates pkt pkt := ⟨.refl h, rfl⟩

theorem Mutates.trans (h : Mutates pkt₁ pkt₂) (h' : Mutates pkt₂ pkt₃) : Mutates pkt₁ pkt₃ :=
  ⟨h.toKeeps.trans h'.toKeeps, h'.checksum.trans h.checksum⟩

theorem Mutates.patch (h : pkt.Coherent) {i : ℕ} {src : Bytes}
    (he : i + src.length ≤ pkt.tcpOffset + pkt.tcpHeaderLen)
    (hf : ∀ j, j = 0 ∨ j = 2 ∨ j = 3 ∨ j = 9 ∨ j = pkt.tcpOffset + 12 →
      j < i ∨ i + src.length ≤ j)
    (hs : pkt.tcpOffset + 17 < i ∨ i + src.length ≤ pkt.tcpOffset + 16) :
    Mutates pkt { pkt with raw := patch pkt.raw i src } := by
  have hb := h.bounds
  refine ⟨.patch h he hf, ?_⟩
  rcases hs with hlt | hge
  · exact wordAt_patch_of_lt (by omega) hlt
  · exact wordAt_patch_of_ge (by omega) hge

end TcpPacket

end BalanSir.B4
