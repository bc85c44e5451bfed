/-
# Fake QUIC packets

`build_fake_quic_packet`, its lengths and its two checksums.
-/

import BalanSir.B4.Discovery

namespace BalanSir.B4

open Lib List

def Octets.words (o : Octets) : ℕ := be16 o.a o.b + be16 o.c o.d

theorem words_of_fromOn {raw rest : Bytes} {i : ℕ} {o : Octets}
    (h : FromOn raw i (o.bytes ++ rest)) :
    wordAt raw i + wordAt raw (i + 2) = o.words := by
  have hf : FromOn raw i (o.a :: o.b :: o.c :: o.d :: rest) := h
  have ht := hf.tail.tail
  rw [wordAt, wordAt, hf.getD, hf.tail.getD, ht.getD, ht.tail.getD, Octets.words]

def fixUdpChecksum (pkt : Bytes) (src dst : Octets) (udpOffset udpLen : ℕ) : Checked Bytes := do
  let pkt ← copyAt pkt (udpOffset + 6) [0, 0]
  let sum ← sumWords pkt udpOffset udpLen (src.words + dst.words + 17 + udpLen)
  let sum ← foldCarry sum
  copyAt pkt (udpOffset + 6) (be16Bytes (65535 - sum))

def fakeHeaders (src dst : Octets) (srcPort dstPort : UInt16) (payloadLen : ℕ) :
    Checked Bytes := do
  let len := 20 + 8 + max payloadLen 1
  let pkt := List.replicate len 0
  let pkt ← copyAt pkt 0 [0x45]
  let pkt ← copyAt pkt 2 (be16Bytes len)
  let pkt ← copyAt pkt 8 [64]
  let pkt ← copyAt pkt 9 [17]
  let pkt ← copyAt pkt 12 src.bytes
  let pkt ← copyAt pkt 16 dst.bytes
  let u := 20
  let pkt ← copyAt pkt u (be16Bytes srcPort.toNat)
  let pkt ← copyAt pkt (u + 2) (be16Bytes dstPort.toNat)
  let udpLen := 8 + max payloadLen 1
  copyAt pkt (u + 4) (be16Bytes udpLen)

def fakePayload (rand : ℕ → UInt8) (pkt : Bytes) (payloadLen : ℕ) : Checked Bytes := do
  let p := 20 + 8
  let pkt ← copyAt pkt p [0xC3]
  if 1 < payloadLen then do
    let pkt ← copyAt pkt (p + 1) (be32Bytes 0x00000001)
    if 5 < payloadLen then do
      let pkt ← copyAt pkt (p + 5) [0x00]
      let rest ← slice pkt (p + 6) pkt.length
      copyAt pkt (p + 6) ((List.range rest.length).map rand)
    else .ok pkt
  else .ok pkt

def buildFakeQuicPacket (rand : ℕ → UInt8) (src dst : Octets) (srcPort dstPort : UInt16)
    (payloadLen : ℕ) : Checked Bytes := do
  let pkt ← fakeHeaders src dst srcPort dstPort payloadLen
  let pkt ← fakePayload rand pkt payloadLen
  -- the packet with its IP checksum is the copy, and the copy is dropped
  let _ ← TcpPacket.fixIpv4Checksum
    { raw := pkt
      ipHeaderLen := 20
      ipTotalLen := 20 + 8 + max payloadLen 1
      tcpOffset := 20
      tcpHeaderLen := 8
      tcpDoffField := 0
      checksumOffsets := (10, 20 + 6) }
  fixUdpChecksum pkt src dst 20 (8 + max payloadLen 1)

def B4Set.wantsUdp (set : B4Set) : Bool := set.enabled && set.udp.mode == "fake"

def fakeQuicPacketFor {ρ : Type} (rand : ℕ → UInt8) (set : StrategySet ρ) (pkt : UdpPacket) :
    Checked (Option Bytes) :=
  if !set.engine.wantsUdp then .ok none else do
  let dstPort ← pkt.dstPort
  if dstPort ≠ 443 then .ok none else do
  let payloadLen := max set.fakeLen.toNat 1
  let src ← pkt.srcIp
  let dst ← pkt.dstIp
  let srcPort ← pkt.srcPort
  let fake ← buildFakeQuicPacket rand src dst (UInt16.ofNat srcPort) (UInt16.ofNat dstPort)
    payloadLen
  return some fake

def fakeIpHeader (src dst : Octets) (len : ℕ) : Bytes :=
  [0x45, 0] ++ be16Bytes len ++ [0, 0, 0, 0, 64, 17, 0, 0] ++ src.bytes ++ dst.bytes

def fakeUdpHeader (srcPort dstPort : UInt16) (len : ℕ) : Bytes :=
  be16Bytes srcPort.toNat ++ be16Bytes dstPort.toNat ++ be16Bytes len

def quicPayload (rand : ℕ → UInt8) (payloadLen : ℕ) : Bytes :=
  if payloadLen ≤ 1 then [0xC3]
  else if payloadLen ≤ 5 then 0xC3 :: be32Bytes 1
  else 0xC3 :: (be32Bytes 1 ++ 0x00 :: (List.range (payloadLen - 6)).map rand)

def udpWords (src dst : Octets) (srcPort dstPort : UInt16) (payload : Bytes) : ℕ :=
  src.words + dst.words + 17 + (8 + payload.length) +
    (wordSum (fakeUdpHeader srcPort dstPort (8 + payload.length)) + wordSum payload)

def fakePacket (src dst : Octets) (srcPort dstPort : UInt16) (payload : Bytes) (sum : ℕ) : Bytes :=
  fakeIpHeader src dst (20 + 8 + payload.length) ++
    fakeUdpHeader srcPort dstPort (8 + payload.length) ++ be16Bytes sum ++ payload

variable {rand : ℕ → UInt8} {src dst : Octets} {srcPort dstPort : UInt16} {payloadLen : ℕ}

theorem length_quicPayload (h : ¬(2 ≤ payloadLen ∧ payloadLen ≤ 4)) :
    (quicPayload rand payloadLen).length = max payloadLen 1 := by
  have hv : (be32Bytes 1).length = 4 := rfl
  unfold quicPayload
  split_ifs with ho hf
  · rw [length_singleton]
    omega
  · rw [length_cons]
    omega
  · simp only [length_cons, length_append, length_map, length_range]
    omega

theorem length_fakePacket (payload : Bytes) (sum : ℕ) :
    (fakePacket src dst srcPort dstPort payload sum).length = 20 + 8 + payload.length := by
  simp only [fakePacket, fakeIpHeader, fakeUdpHeader, Octets.bytes, be16Bytes, length_append,
    length_cons, length_nil]

theorem fakeHeaders_eq (src dst : Octets) (srcPort dstPort : UInt16) (payloadLen : ℕ) :
    fakeHeaders src dst srcPort dstPort payloadLen =
      .ok (fakePacket src dst srcPort dstPort (List.replicate (max payloadLen 1) 0) 0) := by
  have hz : List.replicate (20 + 8 + max payloadLen 1) (0 : UInt8) =
      List.replicate 28 0 ++ List.replicate (max payloadLen 1) 0 := replicate_add 28 _ 0
  unfold fakeHeaders
  dsimp only
  rw [hz]
  -- all the writes fall into the first 28 bytes, the first six of them into the IP header
  iterate 6 rw [copyAt_append_left (Nat.le_of_ble_eq_true rfl), ok_bind]
  have hip : patch (patch (patch (patch (patch (patch (List.replicate 28 0) 0 [0x45]) 2
      (be16Bytes (20 + 8 + max payloadLen 1))) 8 [64]) 9 [17]) 12 src.bytes) 16 dst.bytes =
      fakeIpHeader src dst (20 + 8 + max payloadLen 1) ++ List.replicate 8 0 := rfl
  rw [hip]
  rw [fakePacket, length_replicate]
  rfl

theorem fakeRandom_eq {front : Bytes} (hf : front.length = 34) (k : ℕ) :
    (do let rest ← slice (front ++ List.replicate k 0) 34 (front ++ List.replicate k 0).length
        copyAt (front ++ List.replicate k 0) 34 ((List.range rest.length).map rand)) =
      .ok (front ++ (List.range k).map rand) := by
  have hl : (front ++ List.replicate k (0 : UInt8)).length = 34 + k := by
    rw [length_append, length_replicate, hf]
  have hr : ((front ++ List.replicate k (0 : UInt8)).drop 34).length = k := by
    rw [length_drop, hl, Nat.add_sub_cancel_left]
  have ho : (List.replicate k (0 : UInt8)).length = ((List.range k).map rand).length := by simp
  rw [slice_to_end (by omega), ok_bind, hr, copyAt_append_right (i := 0) hf (by simp)]
  have hp := @patch_append _ [] _ [] ho
  rw [append_nil, append_nil] at hp
  exact congrArg (fun bs => Except.ok (front ++ bs)) hp

theorem fakePayload_eq {head : Bytes} (hh : head.length = 28)
    (h : ¬(2 ≤ payloadLen ∧ payloadLen ≤ 4)) :
    fakePayload rand (head ++ List.replicate (max payloadLen 1) 0) payloadLen =
      .ok (head ++ quicPayload rand payloadLen) := by
  unfold fakePayload
  dsimp only
  rw [copyAt_append_right (i := 0) (by omega) (by simp), ok_bind]
  rcases Nat.lt_or_ge 1 payloadLen with hv | ho
  · obtain ⟨m, rfl⟩ : ∃ m, payloadLen = m + 5 := ⟨payloadLen - 5, by omega⟩
    rw [if_pos hv, Nat.max_eq_left (by omega),
      copyAt_append_right (by omega) (Nat.le_add_left 5 _), ok_bind]
    cases m with
    | zero => rfl
    | succ k =>
      have hs : (head ++ 0xC3 :: (be32Bytes 1 ++ [0x00])).length = 34 := by
        rw [length_append, hh]
        rfl
      rw [copyAt_append_right (by omega) (Nat.le_add_left 6 _), ok_bind]
      have hw : patch (patch (patch (List.replicate (k + 1 + 5) 0) 0 [0xC3]) 1
          (be32Bytes 1)) 5 [0x00] = 0xC3 :: (be32Bytes 1 ++ [0x00]) ++ List.replicate k 0 := rfl
      rw [hw, ← append_assoc, fakeRandom_eq hs, append_assoc]
      rfl
  · have hz : max payloadLen 1 = 1 := by omega
    rw [if_neg (by omega), hz, quicPayload, if_pos ho]
    rfl

theorem fakePayload_short {head : Bytes} (hh : head.length = 28)
    (h : 2 ≤ payloadLen ∧ payloadLen ≤ 4) :
    fakePayload rand (head ++ List.replicate (max payloadLen 1) 0) payloadLen =
      .error .outOfRange := by
  unfold fakePayload
  dsimp only
  rw [copyAt_append_right (i := 0) (by omega) (by simp), ok_bind, if_pos (by omega), copyAt,
    if_neg, error_bind]
  have hw : (patch (List.replicate (max payloadLen 1) (0 : UInt8)) 0 [0xC3]).length =
      max payloadLen 1 := by
    rw [length_patch (by simp), length_replicate]
  rw [length_append, length_be32Bytes]
  omega

theorem wordSum_segment (payload : Bytes) (sum : ℕ) :
    wordSum ((fakePacket src dst srcPort dstPort payload sum).drop 20) =
      wordSum (fakeUdpHeader srcPort dstPort (8 + payload.length)) +
        (sum % 65536 + wordSum payload) := by
  have hs : (fakePacket src dst srcPort dstPort payload sum).drop 20 =
      fakeUdpHeader srcPort dstPort (8 + payload.length) ++ (be16Bytes sum ++ payload) := rfl
  have hh : (fakeUdpHeader srcPort dstPort (8 + payload.length)).length = 6 := rfl
  have hsu : wordSum (be16Bytes sum) = sum % 65536 := by
    rw [be16Bytes, wordSum, wordSum, be16_be16Bytes, Nat.add_zero]
  rw [hs, wordSum_append (by rw [hh]), wordSum_append (by rw [length_be16Bytes]), hsu]

theorem fixUdpChecksum_eq (payload : Bytes) (sum : ℕ) :
    fixUdpChecksum (fakePacket src dst srcPort dstPort payload sum) src dst 20
        (8 + payload.length) =
      .ok (fakePacket src dst srcPort dstPort payload
        (65535 - folded (udpWords src dst srcPort dstPort payload))) := by
  -- writing the field replaces it
  have hw (old new : ℕ) : copyAt (fakePacket src dst srcPort dstPort payload old) (20 + 6)
      (be16Bytes new) = .ok (fakePacket src dst srcPort dstPort payload new) := by
    rfl
  have hz : copyAt (fakePacket src dst srcPort dstPort payload sum) (20 + 6) [0, 0] =
      .ok (fakePacket src dst srcPort dstPort payload 0) := hw sum 0
  rw [fixUdpChecksum, hz, ok_bind, sumWords_eq (by rw [length_fakePacket]; omega), ok_bind,
    foldCarry_eq, wordSum_segment, Nat.zero_add]
  rfl

/-- **The packet that is built.** Lengths 2, 3 and 4 are out of range; every other gives
`fakePacket`. -/
theorem buildFakeQuicPacket_runs (rand : ℕ → UInt8) (src dst : Octets) (srcPort dstPort : UInt16)
    (payloadLen : ℕ) :
    Runs (buildFakeQuicPacket rand src dst srcPort dstPort payloadLen)
      (2 ≤ payloadLen ∧ payloadLen ≤ 4) fun raw =>
      raw = fakePacket src dst srcPort dstPort (quicPayload rand payloadLen)
        (65535 - folded (udpWords src dst srcPort dstPort (quicPayload rand payloadLen))) := by
  rw [buildFakeQuicPacket, fakeHeaders_eq, ok_bind]
  by_cases hs : 2 ≤ payloadLen ∧ payloadLen ≤ 4
  · refine ⟨fun _ => ?_, fun hn => absurd hs hn⟩
    rw [fakePacket, fakePayload_short rfl hs, error_bind]
  · refine ⟨fun hb => absurd hb hs, fun _ => ⟨_, ?_, rfl⟩⟩
    have hl := @length_quicPayload rand _ hs
    have hp : fakePayload rand (fakePacket src dst srcPort dstPort
        (List.replicate (max payloadLen 1) 0) 0) payloadLen =
        .ok (fakePacket src dst srcPort dstPort (quicPayload rand payloadLen) 0) := by
      rw [fakePacket, fakePayload_eq rfl hs, length_replicate, fakePacket, hl]
    have hc (i : ℕ) (hi : i ≤ 20) : i ≤
        (fakePacket src dst srcPort dstPort (quicPayload rand payloadLen) 0).length := by
      rw [length_fakePacket]
      omega
    rw [hp, ok_bind, TcpPacket.fixIpv4Checksum_eq (hc 20 (by decide))
      (hc 12 (by decide)), ok_bind, ← hl, fixUdpChecksum_eq]

def udpSum (raw : Bytes) : ℕ :=
  wordAt raw 12 + wordAt raw 14 + wordAt raw 16 + wordAt raw 18 + 17 + wordAt raw (ihl raw + 4) +
    wordSum (between raw (ihl raw) (ihl raw + wordAt raw (ihl raw + 4)))

def UdpChecksumOk (raw : Bytes) : Prop :=
  wordAt raw (ihl raw + 6) ≠ 0 ∧ folded (udpSum raw) = 0xffff
  deriving Decidable

def ParsesAs (raw : Bytes) (src dst : Octets) (srcPort dstPort : UInt16) (udpLen : ℕ) : Prop :=
  ∃ pkt, UdpPacket.parse raw = .ok (some pkt) ∧ pkt.srcIp = .ok src ∧ pkt.dstIp = .ok dst ∧
    pkt.srcPort = .ok srcPort.toNat ∧ pkt.dstPort = .ok dstPort.toNat ∧ pkt.udpLen = udpLen

def FakesPacket (rand : ℕ → UInt8) (src dst : Octets) (srcPort dstPort : UInt16)
    (payloadLen : ℕ) : Prop :=
  ∃ raw, buildFakeQuicPacket rand src dst srcPort dstPort payloadLen = .ok raw ∧
    ParsesAs raw src dst srcPort dstPort (8 + max payloadLen 1) ∧ IpChecksumOk raw ∧
    UdpChecksumOk raw

variable {payload : Bytes}

theorem wordAt_fakePacket {rest : Bytes} {sum i n : ℕ} (hi : i ≤ 28) (hn : n < 65536)
    (h : (fakePacket src dst srcPort dstPort payload sum).drop i = be16Bytes n ++ rest) :
    wordAt (fakePacket src dst srcPort dstPort payload sum) i = n := by
  refine FromOn.wordAt hn ⟨?_, h⟩
  rw [length_fakePacket]
  omega

theorem total_fakePacket (hl : payload.length ≤ 65507) (sum : ℕ) :
    wordAt (fakePacket src dst srcPort dstPort payload sum) 2 = 20 + 8 + payload.length :=
  wordAt_fakePacket (by decide) (by omega) rfl

theorem udpLen_fakePacket (hl : payload.length ≤ 65507) (sum : ℕ) :
    wordAt (fakePacket src dst srcPort dstPort payload sum) (20 + 4) = 8 + payload.length :=
  wordAt_fakePacket (by decide) (by omega) rfl

theorem fromOn_addresses (payload : Bytes) (sum : ℕ) :
    FromOn (fakePacket src dst srcPort dstPort payload sum) 12 (src.bytes ++ (dst.bytes ++
      (fakePacket src dst srcPort dstPort payload sum).drop 20)) := by
  refine ⟨?_, rfl⟩
  rw [length_fakePacket]
  omega

theorem parsesAs_fakePacket (hl : payload.length ≤ 65507) (sum : ℕ) :
    ParsesAs (fakePacket src dst srcPort dstPort payload sum) src dst srcPort dstPort
      (8 + payload.length) := by
  have hr := @length_fakePacket src dst srcPort dstPort payload sum
  have ht := @total_fakePacket src dst srcPort dstPort payload hl sum
  have hu := @udpLen_fakePacket src dst srcPort dstPort payload hl sum
  have hs : wordAt (fakePacket src dst srcPort dstPort payload sum) 20 = srcPort.toNat :=
    wordAt_fakePacket (by decide) srcPort.toNat_lt rfl
  have hd : wordAt (fakePacket src dst srcPort dstPort payload sum) (20 + 2) = dstPort.toNat :=
    wordAt_fakePacket (by decide) dstPort.toNat_lt rfl
  have ha := @fromOn_addresses src dst srcPort dstPort payload sum
  have hf : byteAt (fakePacket src dst srcPort dstPort payload sum) 0 = .ok 0x45 := rfl
  have hp : byteAt (fakePacket src dst srcPort dstPort payload sum) 9 = .ok 17 := rfl
  have hi : ((0x45 : UInt8) &&& 0x0f).toNat * 4 = 20 := rfl
  refine ⟨⟨fakePacket src dst srcPort dstPort payload sum, 20, 20, 8 + payload.length⟩, ?_,
    octetsAt_of_fromOn ha, octetsAt_of_fromOn ha.skip, ?_, ?_, rfl⟩
  · unfold UdpPacket.parse
    rw [if_neg (by omega), hf, ok_bind, if_neg (by decide), hi, if_neg (by omega), hp, ok_bind,
      if_neg (by decide), u16At_of_lt (by omega), ok_bind, if_neg (by omega), if_neg (by omega),
      u16At_of_lt (by omega), hu, ok_bind, if_neg (by omega)]
  · rw [UdpPacket.srcPort, u16At_of_lt (by dsimp only; omega), hs]
  · rw [UdpPacket.dstPort, u16At_of_lt (by dsimp only; omega), hd]

theorem ihl_fakePacket (payload : Bytes) (sum : ℕ) :
    ihl (fakePacket src dst srcPort dstPort payload sum) = 20 := by
  have hf : (fakePacket src dst srcPort dstPort payload sum).getD 0 0 = 0x45 := rfl
  rw [ihl, hf]
  rfl

theorem ipChecksumOk_fakePacket (hl : payload.length ≤ 65507) (sum : ℕ) :
    IpChecksumOk (fakePacket src dst srcPort dstPort payload sum) ↔
      (0x4500 + (28 + payload.length) + 0x4011 + src.words + dst.words) % 65535 = 0 := by
  have hh : (fakePacket src dst srcPort dstPort payload sum).take 20 =
      fakeIpHeader src dst (20 + 8 + payload.length) := rfl
  have hw : wordSum (fakeIpHeader src dst (20 + 8 + payload.length)) =
      0x4500 + (28 + payload.length) + 0x4011 + src.words + dst.words := by
    have ht := be16_be16Bytes (20 + 8 + payload.length)
    have hs : wordSum (fakeIpHeader src dst (20 + 8 + payload.length)) =
        0x4500 + (be16 (UInt8.ofNat ((20 + 8 + payload.length) / 256))
          (UInt8.ofNat (20 + 8 + payload.length)) + (0 + (0 + (0x4011 + (0 +
          (be16 src.a src.b + (be16 src.c src.d + (be16 dst.a dst.b +
          (be16 dst.c dst.d + 0))))))))) := rfl
    rw [Octets.words, Octets.words]
    omega
  rw [IpChecksumOk, ipSum, ihl_fakePacket, hh, hw, folded_eq_ones (by omega)]

theorem udpSum_fakePacket (hl : payload.length ≤ 65507) (sum : ℕ) :
    udpSum (fakePacket src dst srcPort dstPort payload sum) =
      udpWords src dst srcPort dstPort payload + sum % 65536 := by
  have he : 20 + (8 + payload.length) =
      (fakePacket src dst srcPort dstPort payload sum).length := by
    rw [length_fakePacket]
    omega
  have ha := @fromOn_addresses src dst srcPort dstPort payload sum
  have hs : wordAt (fakePacket src dst srcPort dstPort payload sum) 12 +
      wordAt (fakePacket src dst srcPort dstPort payload sum) 14 = src.words :=
    words_of_fromOn ha
  have hd : wordAt (fakePacket src dst srcPort dstPort payload sum) 16 +
      wordAt (fakePacket src dst srcPort dstPort payload sum) 18 = dst.words :=
    words_of_fromOn ha.skip
  rw [udpSum, ihl_fakePacket, udpLen_fakePacket hl, he, between_to_end, wordSum_segment, udpWords]
  omega

theorem udpChecksumOk_fakePacket (hl : payload.length ≤ 65507) :
    UdpChecksumOk (fakePacket src dst srcPort dstPort payload
        (65535 - folded (udpWords src dst srcPort dstPort payload))) ↔
      udpWords src dst srcPort dstPort payload % 65535 ≠ 0 := by
  set words := udpWords src dst srcPort dstPort payload with hw
  have hp : 0 < words := by
    rw [hw, udpWords]
    omega
  have hlt := folded_lt words
  have hf : wordAt (fakePacket src dst srcPort dstPort payload (65535 - folded words))
      (20 + 6) = 65535 - folded words := wordAt_fakePacket (by decide) (by omega) rfl
  rw [UdpChecksumOk, ihl_fakePacket, udpSum_fakePacket hl, Nat.mod_eq_of_lt (by omega),
    folded_complement, ne_eq, ne_eq, ← folded_eq_ones hp]
  omega

/-- **When a fake packet is right:** a length other than 2, 3 and 4, header words that add up to a
multiple of 65535, and UDP words that do not. -/
theorem fakesPacket_iff (rand : ℕ → UInt8) (src dst : Octets) (srcPort dstPort : UInt16)
    {payloadLen : ℕ} (hlen : payloadLen ≤ 65507) :
    FakesPacket rand src dst srcPort dstPort payloadLen ↔
      ¬(2 ≤ payloadLen ∧ payloadLen ≤ 4) ∧
      (0x4500 + (28 + max payloadLen 1) + 0x4011 + src.words + dst.words) % 65535 = 0 ∧
      udpWords src dst srcPort dstPort (quicPayload rand payloadLen) % 65535 ≠ 0 := by
  have hr := buildFakeQuicPacket_runs rand src dst srcPort dstPort payloadLen
  constructor
  · rintro ⟨raw, hra, -, hip, hu⟩
    obtain ⟨hs, rfl⟩ := hr.of_ok hra
    have hp := @length_quicPayload rand _ hs
    rw [ipChecksumOk_fakePacket (by omega), hp] at hip
    exact ⟨hs, hip, (udpChecksumOk_fakePacket (by omega)).1 hu⟩
  · rintro ⟨hs, hip, hu⟩
    obtain ⟨raw, hra, rfl⟩ := hr.2 hs
    have hp := @length_quicPayload rand _ hs
    refine ⟨_, hra, ?_, ?_, (udpChecksumOk_fakePacket (by omega)).2 hu⟩
    · rw [← hp]
      exact parsesAs_fakePacket (by omega) _
    · rw [ipChecksumOk_fakePacket (by omega), hp]
      exact hip

/-- A packet of one byte from 10.0.0.1 to 112.200.0.8, whose header words add up to 65535. -/
theorem fakesPacket_sample :
    FakesPacket (fun _ => 0) ⟨10, 0, 0, 1⟩ ⟨112, 200, 0, 8⟩ 40000 443 1 :=
  (fakesPacket_iff (fun _ => 0) ⟨10, 0, 0, 1⟩ ⟨112, 200, 0, 8⟩ 40000 443 (by decide)).2
    ⟨by decide, by decide +kernel, by decide +kernel⟩

/-- Two bytes from 192.168.1.2 to 8.8.8.8 stop the program; 64 bytes leave the IP checksum 0. -/
theorem not_fakesPacket_sample :
    ¬FakesPacket (fun _ => 0) ⟨192, 168, 1, 2⟩ ⟨8, 8, 8, 8⟩ 40000 443 2 ∧
      ¬FakesPacket (fun _ => 0) ⟨192, 168, 1, 2⟩ ⟨8, 8, 8, 8⟩ 40000 443 64 := by
  have hf : fault? (buildFakeQuicPacket (fun _ => 0) ⟨192, 168, 1, 2⟩ ⟨8, 8, 8, 8⟩ 40000
      443 2) = some .outOfRange := by decide +kernel
  obtain ⟨raw, hr, hip⟩ := exists_eq_ok
    (m := buildFakeQuicPacket (fun _ => 0) ⟨192, 168, 1, 2⟩ ⟨8, 8, 8, 8⟩ 40000 443 64)
    (f := fun raw => decide (IpChecksumOk raw)) (b := false) (by decide +kernel)
  refine ⟨fun ⟨raw', hr', _⟩ => ?_, fun ⟨raw', hr', _, hip', _⟩ => ?_⟩
  · rw [fault?_eq_some.1 hf] at hr'
    cases hr'
  · rw [hr] at hr'
    cases hr'
    exact of_decide_eq_false hip hip'

end BalanSir.B4
