/-
# Fragments at the receiver

What a receiver that reassembles IPv4 makes of `fragment_tcp_payload`.
-/

import BalanSir.B4.Checksum

namespace BalanSir.B4

open Lib

def moreFragments (raw : Bytes) : Bool := wordAt raw 6 / 8192 % 2 = 1

def fragmentOffset (raw : Bytes) : ℕ := wordAt raw 6 % 8192 * 8

def fragmentData (raw : Bytes) : Bytes := between raw (ihl raw) (wordAt raw 2)

/-- The data that has arrived, and the length when it is known. -/
structure FragmentBuffer where
  pieces : List (ℕ × Bytes)
  total : Option ℕ

namespace FragmentBuffer

def empty : FragmentBuffer := ⟨[], none⟩

variable (buf : FragmentBuffer)

def byte (j : ℕ) : Option UInt8 :=
  buf.pieces.findSome? fun piece => if piece.1 ≤ j then piece.2[j - piece.1]? else none

def whole : Option Bytes :=
  buf.total.bind fun n => (List.range n).mapM buf.byte

def receive (raw : Bytes) : FragmentBuffer × Option Bytes :=
  if fragmentOffset raw = 0 ∧ moreFragments raw = false then (empty, some (fragmentData raw))
  else
    let total :=
      if moreFragments raw then buf.total
      else some (fragmentOffset raw + (fragmentData raw).length)
    let buf : FragmentBuffer := ⟨(fragmentOffset raw, fragmentData raw) :: buf.pieces, total⟩
    match buf.whole with
    | some data => (empty, some data)
    | none => (buf, none)

def deliver : FragmentBuffer → List Bytes → List Bytes
  | _, [] => []
  | buf, raw :: raws => (buf.receive raw).2.toList ++ deliver (buf.receive raw).1 raws

end FragmentBuffer

def reassemble (raws : List Bytes) : List Bytes := FragmentBuffer.empty.deliver raws

theorem receive_whole {raw : Bytes} (h : fragmentOffset raw = 0 ∧ moreFragments raw = false)
    (buf : FragmentBuffer) : buf.receive raw = (.empty, some (fragmentData raw)) := if_pos h

theorem reassemble_wholes {raw₁ raw₂ : Bytes}
    (h₁ : fragmentOffset raw₁ = 0 ∧ moreFragments raw₁ = false)
    (h₂ : fragmentOffset raw₂ = 0 ∧ moreFragments raw₂ = false) :
    reassemble [raw₁, raw₂] = [fragmentData raw₁, fragmentData raw₂] := by
  rw [reassemble, FragmentBuffer.deliver, receive_whole h₁, FragmentBuffer.deliver,
    receive_whole h₂]
  rfl

theorem whole_of_word {raw : Bytes} (h₆ : raw.getD 6 0 = 0x40) (h₇ : raw.getD 7 0 = 0) :
    fragmentOffset raw = 0 ∧ moreFragments raw = false := by
  have hw : wordAt raw 6 = 0x4000 := by
    rw [wordAt, h₆, h₇]
    rfl
  rw [fragmentOffset, moreFragments, hw]
  decide

namespace TcpPacket

variable {pkt pkt' : TcpPacket} {splitAt : ℕ} {f₁ f₂ : Bytes}

theorem fixIpv4Checksum_frame (h : pkt.fixIpv4Checksum = .ok pkt') :
    pkt'.checksumOffsets = pkt.checksumOffsets ∧
      ∀ j, j < 10 ∨ 12 ≤ j → pkt'.raw.getD j 0 = pkt.raw.getD j 0 := by
  obtain ⟨sum, -, h⟩ := bind_eq_ok.1 h
  obtain ⟨sum', -, h⟩ := bind_eq_ok.1 h
  obtain ⟨raw, hc, h⟩ := bind_eq_ok.1 h
  obtain rfl := Except.ok.inj h
  exact ⟨rfl, fun j hj => getD_copyAt hc hj 0⟩

theorem fixTcpChecksum_frame (h : pkt.fixTcpChecksum = .ok pkt')
    (hp : 10 ≤ pkt.checksumOffsets.2) {j : ℕ} (hj : j < 10) :
    pkt'.raw.getD j 0 = pkt.raw.getD j 0 := by
  obtain ⟨src, -, h⟩ := bind_eq_ok.1 h
  obtain ⟨src', -, h⟩ := bind_eq_ok.1 h
  obtain ⟨dst, -, h⟩ := bind_eq_ok.1 h
  obtain ⟨dst', -, h⟩ := bind_eq_ok.1 h
  obtain ⟨sum, -, h⟩ := bind_eq_ok.1 h
  obtain ⟨sum', -, h⟩ := bind_eq_ok.1 h
  obtain ⟨raw, hc, h⟩ := bind_eq_ok.1 h
  rw [(fixIpv4Checksum_frame h).2 j (.inl hj)]
  exact getD_copyAt hc (.inl (by omega)) 0

theorem fixChecksums_frame (h : pkt.fixChecksums = .ok pkt')
    (hp : 10 ≤ pkt.checksumOffsets.2) {j : ℕ} (hj : j < 10) :
    pkt'.raw.getD j 0 = pkt.raw.getD j 0 := by
  obtain ⟨mid, hip, ht⟩ := bind_eq_ok.1 h
  obtain ⟨ho, hg⟩ := fixIpv4Checksum_frame hip
  rw [fixTcpChecksum_frame ht (by rw [ho]; exact hp) hj, hg j (.inl hj)]

theorem firstFragment_word (h : pkt.firstFragment splitAt = .ok pkt') :
    pkt'.raw.getD 6 0 = 0x40 ∧ pkt'.raw.getD 7 0 = 0 ∧
      pkt'.checksumOffsets = (10, pkt.tcpOffset + 16) := by
  obtain ⟨frag, -, h⟩ := bind_eq_ok.1 h
  obtain ⟨frag₂, -, h⟩ := bind_eq_ok.1 h
  obtain ⟨frag₆, h₆, h⟩ := bind_eq_ok.1 h
  obtain ⟨frag₇, h₇, h⟩ := bind_eq_ok.1 h
  obtain rfl := Except.ok.inj h
  refine ⟨?_, getD_copyAt_self h₇, rfl⟩
  exact (getD_copyAt h₇ (.inl (by omega)) 0).trans (getD_copyAt_self h₆)

theorem secondFragment_word (hfi : pkt.tcpOffset + pkt.tcpHeaderLen < 2048)
    (h : pkt.secondFragment splitAt = .ok pkt') :
    pkt'.raw.getD 6 0 = 0x40 ∧ pkt'.raw.getD 7 0 = 0 := by
  obtain ⟨frag, -, h⟩ := bind_eq_ok.1 h
  obtain ⟨frag₂, -, h⟩ := bind_eq_ok.1 h
  obtain ⟨frag₆, h₆, h⟩ := bind_eq_ok.1 h
  obtain ⟨frag₇, h₇, h⟩ := bind_eq_ok.1 h
  obtain ⟨rest, -, h⟩ := bind_eq_ok.1 h
  obtain rfl := Except.ok.inj h
  have hz : (pkt.tcpOffset + pkt.tcpHeaderLen) / 8 / 256 = 0 := by omega
  have hl : 7 < frag₇.length := by
    obtain ⟨hin, rfl⟩ := copyAt_eq_ok h₇
    rw [length_patch hin]
    exact hin
  have hf := getD_copyAt_self h₇
  rw [hz] at hf
  rw [List.getD_append _ _ _ _ (by omega), List.getD_append _ _ _ _ hl]
  exact ⟨(getD_copyAt h₇ (.inl (by omega)) 0).trans (getD_copyAt_self h₆), hf⟩

theorem fragmentTcpPayload_wholes (hc : pkt.Coherent)
    (h : pkt.fragmentTcpPayload splitAt = .ok (some (f₁, f₂))) :
    (fragmentOffset f₁ = 0 ∧ moreFragments f₁ = false) ∧
      fragmentOffset f₂ = 0 ∧ moreFragments f₂ = false := by
  have hb := hc.bounds
  obtain ⟨payload, -, h⟩ := bind_eq_ok.1 h
  split_ifs at h with hn
  · cases h
  obtain ⟨frag₁, hfi, h⟩ := bind_eq_ok.1 h
  obtain ⟨frag₂, hs, h⟩ := bind_eq_ok.1 h
  obtain ⟨fixed₁, hfix₁, h⟩ := bind_eq_ok.1 h
  obtain ⟨fixed₂, hfix₂, h⟩ := bind_eq_ok.1 h
  cases h
  obtain ⟨h₆, h₇, ho⟩ := firstFragment_word hfi
  obtain ⟨h₆', h₇'⟩ := secondFragment_word (by omega) hs
  have hp : 10 ≤ frag₁.checksumOffsets.2 := by
    rw [ho]
    omega
  have hf := (fixIpv4Checksum_frame hfix₂).2
  refine ⟨whole_of_word ?_ ?_, whole_of_word ?_ ?_⟩
  · rw [fixChecksums_frame hfix₁ hp (by omega), h₆]
  · rw [fixChecksums_frame hfix₁ hp (by omega), h₇]
  · rw [hf 6 (by omega), h₆']
  · rw [hf 7 (by omega), h₇']

/-- A receiver puts the fragments together, and both header checksums are correct. -/
structure Restores (pkt : TcpPacket) (f₁ f₂ : Bytes) : Prop where
  data : reassemble [f₁, f₂] = [pkt.raw.drop pkt.ipHeaderLen]
  more : moreFragments f₁ = true
  first : IpChecksumOk f₁
  second : IpChecksumOk f₂

theorem not_restores_of_wholes (h₁ : fragmentOffset f₁ = 0 ∧ moreFragments f₁ = false)
    (h₂ : fragmentOffset f₂ = 0 ∧ moreFragments f₂ = false) : ¬Restores pkt f₁ f₂ := by
  intro h
  have hd := h.data
  rw [reassemble_wholes h₁ h₂] at hd
  exact absurd (congrArg List.length hd) (by simp)

/-- **No two fragments restore their packet:** the first is not marked, and a receiver delivers each
as a packet. -/
theorem fragments_never_restore {raw : Bytes} {pkt : TcpPacket}
    (hparse : parse raw = .ok (some pkt)) {splitAt : ℕ} {f₁ f₂ : Bytes}
    (h : pkt.fragmentTcpPayload splitAt = .ok (some (f₁, f₂))) :
    ¬Restores pkt f₁ f₂ ∧ moreFragments f₁ = false ∧
      reassemble [f₁, f₂] = [fragmentData f₁, fragmentData f₂] := by
  obtain ⟨hr, rfl⟩ := parse_eq_some.1 hparse
  obtain ⟨h₁, h₂⟩ := fragmentTcpPayload_wholes (coherent_ofRaw hr) h
  exact ⟨not_restores_of_wholes h₁ h₂, h₁.2, reassemble_wholes h₁ h₂⟩

def samplePacket : Bytes :=
  [0x45, 0, 0, 56, 0, 1, 0, 0, 64, 6, 0, 0, 10, 0, 0, 1, 10, 0, 0, 2,
    0x30, 0x39, 0x01, 0xbb, 0, 0, 0, 7, 0, 0, 0, 0, 0x50, 0x18, 0, 0, 0, 0, 0, 0,
    1, 2, 3, 4, 5, 6, 7, 8, 9, 10, 11, 12, 13, 14, 15, 16]

theorem samplePacket_fragments :
    ∃ f₁ f₂, (ofRaw samplePacket).fragmentTcpPayload 8 = .ok (some (f₁, f₂)) := by
  obtain ⟨r, hr, hs⟩ := exists_eq_ok (m := (ofRaw samplePacket).fragmentTcpPayload 8)
    (f := Option.isSome) (b := true) (by decide +kernel)
  obtain ⟨⟨f₁, f₂⟩, rfl⟩ := Option.isSome_iff_exists.1 hs
  exact ⟨f₁, f₂, hr⟩

theorem samplePacket_never_restored :
    ∃ f₁ f₂, (ofRaw samplePacket).fragmentTcpPayload 8 = .ok (some (f₁, f₂)) ∧
      ¬Restores (ofRaw samplePacket) f₁ f₂ ∧ moreFragments f₁ = false ∧
        reassemble [f₁, f₂] = [fragmentData f₁, fragmentData f₂] := by
  obtain ⟨f₁, f₂, h⟩ := samplePacket_fragments
  exact ⟨f₁, f₂, h, fragments_never_restore (parse_of_isTcp (by decide +kernel)) h⟩

/-- Split in the middle of its data, the sample is not restored. -/
theorem samplePacket_not_restored : parse samplePacket = .ok (some (ofRaw samplePacket)) ∧
      ∃ f₁ f₂, (ofRaw samplePacket).fragmentTcpPayload 8 = .ok (some (f₁, f₂)) ∧
        ¬Restores (ofRaw samplePacket) f₁ f₂ := by
  have hr : IsTcp samplePacket := by decide +kernel
  obtain ⟨f₁, f₂, h⟩ := samplePacket_fragments
  obtain ⟨h₁, h₂⟩ := fragmentTcpPayload_wholes (coherent_ofRaw hr) h
  exact ⟨parse_of_isTcp hr, f₁, f₂, h, not_restores_of_wholes h₁ h₂⟩

end TcpPacket

end BalanSir.B4
