/-
# Checksums and fragments

`fix_ipv4_checksum`, `fix_tcp_checksum` and `fragment_tcp_payload`.
-/

import BalanSir.B4.Options
import BalanSir.Lib.OnesComplement

namespace BalanSir.B4

open Lib List

namespace TcpPacket

def sumHeader (raw : Bytes) (len : ℕ) : Checked ℕ :=
  (List.range len).foldlM (fun sum i =>
    if i = 10 ∨ i = 11 then .ok sum
    else do
      let b ← byteAt raw i
      return sum + if i % 2 = 0 then b.toNat * 256 else b.toNat) 0

def fixIpv4Checksum (pkt : TcpPacket) : Checked TcpPacket := do
  let sum ← sumHeader pkt.raw pkt.ipHeaderLen
  let sum ← foldCarry sum
  let raw ← copyAt pkt.raw 10 (be16Bytes (65535 - sum))
  return { pkt with raw }

def fixTcpChecksum (pkt : TcpPacket) : Checked TcpPacket := do
  let src ← u16At pkt.raw 12
  let src' ← u16At pkt.raw 14
  let dst ← u16At pkt.raw 16
  let dst' ← u16At pkt.raw 18
  let tcpLen := pkt.raw.length - pkt.tcpOffset
  let sum ← sumWords pkt.raw pkt.tcpOffset tcpLen (src + src' + dst + dst' + 6 + tcpLen)
  let sum ← foldCarry sum
  let raw ← copyAt pkt.raw pkt.checksumOffsets.2 (be16Bytes (65535 - sum))
  fixIpv4Checksum { pkt with raw }

def fixChecksums (pkt : TcpPacket) : Checked TcpPacket := do
  let pkt ← fixIpv4Checksum pkt
  fixTcpChecksum pkt

def firstFragment (pkt : TcpPacket) (splitAt : ℕ) : Checked TcpPacket := do
  let tcpHeader := pkt.tcpOffset + pkt.tcpHeaderLen
  let frag1 ← slice pkt.raw 0 (tcpHeader + splitAt)
  let frag1 ← copyAt frag1 2 (be16Bytes frag1.length)
  let frag1 ← copyAt frag1 6 [0x40]
  let frag1 ← copyAt frag1 7 [0x00]
  return {
    raw := frag1
    ipHeaderLen := pkt.ipHeaderLen
    ipTotalLen := frag1.length
    tcpOffset := pkt.tcpOffset
    tcpHeaderLen := pkt.tcpHeaderLen
    tcpDoffField := 0
    checksumOffsets := (10, pkt.tcpOffset + 16) }

def secondFragment (pkt : TcpPacket) (splitAt : ℕ) : Checked TcpPacket := do
  let total := pkt.raw.length
  let tcpHeader := pkt.tcpOffset + pkt.tcpHeaderLen
  let offset := tcpHeader / 8
  let frag2 ← slice pkt.raw 0 pkt.ipHeaderLen
  let f2Len := pkt.ipHeaderLen + (total - tcpHeader - splitAt)
  let frag2 ← copyAt frag2 2 (be16Bytes f2Len)
  let frag2 ← copyAt frag2 6 [0x40]
  let frag2 ← copyAt frag2 7 [UInt8.ofNat (offset / 256)]
  let rest ← slice pkt.raw (tcpHeader + splitAt) pkt.raw.length
  let frag2 := frag2 ++ rest
  return {
    raw := frag2
    ipHeaderLen := pkt.ipHeaderLen
    ipTotalLen := frag2.length
    tcpOffset := 0
    tcpHeaderLen := 0
    tcpDoffField := 0
    checksumOffsets := (10, 0) }

def fragmentTcpPayload (pkt : TcpPacket) (splitAt : ℕ) : Checked (Option (Bytes × Bytes)) := do
  let payload ← pkt.tcpPayload
  if splitAt = 0 ∨ payload.length ≤ splitAt then .ok none
  else do
    let f1 ← firstFragment pkt splitAt
    let f2 ← secondFragment pkt splitAt
    let f1 ← fixChecksums f1
    let f2 ← fixIpv4Checksum f2
    return some (f1.raw, f2.raw)

end TcpPacket

variable (raw : Bytes)

def ipSum : ℕ := wordSum (raw.take (ihl raw))

def pseudoSum (tcpLen : ℕ) : ℕ :=
  wordAt raw 12 + wordAt raw 14 + wordAt raw 16 + wordAt raw 18 + 6 + tcpLen

def tcpSum : ℕ :=
  pseudoSum raw (wordAt raw 2 - ihl raw) + wordSum (between raw (ihl raw) (wordAt raw 2))

def IpChecksumOk : Prop := folded (ipSum raw) = 0xffff
  deriving Decidable

def TcpChecksumOk : Prop := folded (tcpSum raw) = 0xffff
  deriving Decidable

namespace TcpPacket

variable {pkt : TcpPacket}

def headerSum (raw : Bytes) (len : ℕ) : ℕ := wordSum ((patch raw 10 [0, 0]).take len)

theorem sumHeader_eq {raw : Bytes} {len : ℕ} (hl : len ≤ raw.length) (ht : 12 ≤ raw.length) :
    sumHeader raw len = .ok (headerSum raw len) := by
  have hin : 10 + [(0 : UInt8), 0].length ≤ raw.length := ht
  rw [headerSum, ← Nat.zero_add (wordSum _), ← foldl_bytes _ _ _ (by rwa [length_patch hin])]
  refine foldlM_eq_ok (fun sum i hi => ?_) 0
  rw [mem_range] at hi
  by_cases hs : i = 10 ∨ i = 11
  · have hf : (patch raw 10 [0, 0]).getD (10 + 0) 0 = 0 :=
      getD_patch_add (by omega) (Nat.zero_lt_succ 1) 0
    have hse : (patch raw 10 [0, 0]).getD (10 + 1) 0 = 0 :=
      getD_patch_add (by omega) (Nat.lt_succ_self 1) 0
    have hz : (patch raw 10 [0, 0]).getD i 0 = 0 := by
      rcases hs with rfl | rfl
      · exact hf
      · exact hse
    rw [if_pos hs, hz]
    simp
  · have hsa : (patch raw 10 [0, 0]).getD i 0 = raw.getD i 0 := by
      rcases Nat.lt_or_ge i 10 with hlt | hge
      · exact getD_patch_of_lt (by omega) hlt 0
      · exact getD_patch_of_ge hin (by simp only [length_cons, length_nil]; omega) 0
    rw [if_neg hs, byteAt_of_lt (by omega), hsa]
    rfl

theorem fixIpv4Checksum_eq (hl : pkt.ipHeaderLen ≤ pkt.raw.length) (ht : 12 ≤ pkt.raw.length) :
    pkt.fixIpv4Checksum = .ok { pkt with
      raw := patch pkt.raw 10
        (be16Bytes (65535 - folded (headerSum pkt.raw pkt.ipHeaderLen))) } := by
  rw [fixIpv4Checksum, sumHeader_eq hl ht, ok_bind, foldCarry_eq, ok_bind,
    copyAt_of_le (by rw [length_be16Bytes]; omega)]
  rfl

theorem wordSum_header {raw : Bytes} {len n : ℕ} (hl : 20 ≤ len) (hra : len ≤ raw.length)
    (hn : n < 65536) : wordSum ((patch raw 10 (be16Bytes n)).take len) = headerSum raw len + n := by
  have hs (src : Bytes) (hsr : src.length = 2) :
      wordSum ((patch raw 10 src).take len) =
        wordSum (raw.take 10) + (wordAt (patch raw 10 src) 10 + wordSum (between raw 12 len)) := by
    have hp : (patch raw 10 src).length = raw.length := length_patch (by omega)
    have hw : wordAt ((patch raw 10 src).take len) 10 = wordAt (patch raw 10 src) 10 := by
      rw [wordAt, wordAt, getD_eq_getElem?_getD, getD_eq_getElem?_getD,
        getElem?_take_of_lt (by omega), getElem?_take_of_lt (by omega),
        getD_eq_getElem?_getD, getD_eq_getElem?_getD]
    have hr : between (patch raw 10 src) 12 len = between raw 12 len :=
      between_patch_of_ge (by omega) (by omega)
    rw [wordSum_split (k := 10) (by decide) (by rw [length_take]; omega), take_take,
      Nat.min_eq_left (by omega), take_patch_of_le (by omega) (Nat.le_refl _), hw, ← hr]
    rfl
  have hz : wordAt (patch raw 10 [0, 0]) 10 = 0 := wordAt_patch_be16Bytes (by omega) 0
  have hf : wordAt (patch raw 10 (be16Bytes n)) 10 = n := by
    rw [wordAt_patch_be16Bytes (by omega), Nat.mod_eq_of_lt hn]
  rw [headerSum, hs _ rfl, hs _ rfl]
  omega

theorem fixIpv4Checksum_runs (h : pkt.Coherent) : Runs pkt.fixIpv4Checksum False fun pkt' =>
      (∃ n, pkt' = { pkt with raw := patch pkt.raw 10 (be16Bytes n) }) ∧ Mutates pkt pkt' ∧
        IpChecksumOk pkt'.raw := by
  have hb := h.bounds
  have hi := h.ipHeaderLen.trans h.tcpOffset.symm
  have hl : pkt.ipHeaderLen ≤ pkt.raw.length := by omega
  have hm (n : ℕ) : Mutates pkt { pkt with raw := patch pkt.raw 10 (be16Bytes n) } := by
    refine .patch h ?_ ?_ ?_ <;> rw [length_be16Bytes] <;> omega
  refine .of_eq_ok (fixIpv4Checksum_eq hl (by omega)) ⟨⟨_, rfl⟩, hm _, ?_⟩
  have hi' := (hm (65535 - folded (headerSum pkt.raw pkt.ipHeaderLen))).coherent.ipHeaderLen
  rw [IpChecksumOk, ipSum, ← hi', wordSum_header (by omega) hl (by omega), folded_complement]

theorem wordSum_segment {raw : Bytes} {off : ℕ} (h : off + 18 ≤ raw.length) :
    wordSum (raw.drop off) = wordSum (between raw off (off + 16)) +
      (wordAt raw (off + 16) + wordSum (raw.drop (off + 18))) := by
  have hf : between raw off (off + 16) = (raw.drop off).take 16 := by
    rw [between, drop_take, Nat.add_sub_cancel_left]
  rw [wordSum_split (k := 16) (by decide) (by rw [length_drop]; omega), wordAt_drop, hf, drop_drop]

theorem tcpSum_eq (h : pkt.Coherent) (ht : wordAt pkt.raw 2 = pkt.raw.length) :
    tcpSum pkt.raw = pseudoSum pkt.raw (pkt.raw.length - pkt.tcpOffset) +
      wordSum (pkt.raw.drop pkt.tcpOffset) := by
  rw [tcpSum, ht, ← h.tcpOffset, between_to_end]

theorem fixTcpChecksum_eq (h : pkt.Coherent) : pkt.fixTcpChecksum = fixIpv4Checksum { pkt with
      raw := patch pkt.raw (pkt.tcpOffset + 16) (be16Bytes (65535 -
        folded (pseudoSum pkt.raw (pkt.raw.length - pkt.tcpOffset) +
          wordSum (pkt.raw.drop pkt.tcpOffset)))) } := by
  have hb := h.bounds
  have hp : pkt.checksumOffsets.2 = pkt.tcpOffset + 16 := by
    rw [h.checksumOffsets, h.tcpOffset]
  rw [fixTcpChecksum, u16At_of_lt (by omega), ok_bind, u16At_of_lt (by omega), ok_bind,
    u16At_of_lt (by omega), ok_bind, u16At_of_lt (by omega), ok_bind]
  dsimp only
  rw [sumWords_eq (by omega), ok_bind, foldCarry_eq, ok_bind, hp,
    copyAt_of_le (by rw [length_be16Bytes]; omega)]
  rfl

def tcpWords (pkt : TcpPacket) : ℕ :=
  pseudoSum pkt.raw (pkt.raw.length - pkt.tcpOffset) +
    wordSum (between pkt.raw pkt.tcpOffset (pkt.tcpOffset + 16)) +
    wordSum (pkt.raw.drop (pkt.tcpOffset + 18))

theorem tcpWords_pos (pkt : TcpPacket) : 0 < pkt.tcpWords := by
  unfold tcpWords pseudoSum
  omega

theorem tcpWords_add_tcpChecksum (h : pkt.Coherent) :
    pseudoSum pkt.raw (pkt.raw.length - pkt.tcpOffset) + wordSum (pkt.raw.drop pkt.tcpOffset) =
      pkt.tcpWords + pkt.tcpChecksum := by
  have hb := h.bounds
  rw [wordSum_segment (by omega), tcpWords, tcpChecksum]
  omega

theorem tcpWords_patch (h : pkt.Coherent) {i : ℕ} (hi : i = 10 ∨ i = pkt.tcpOffset + 16) (n : ℕ) :
    tcpWords { pkt with raw := patch pkt.raw i (be16Bytes n) } = pkt.tcpWords := by
  have hbo := h.bounds
  have hin : i + (be16Bytes n).length ≤ pkt.raw.length := by
    rw [length_be16Bytes]
    omega
  have hw (j : ℕ) (hj : 12 ≤ j) (hj' : j + 1 < pkt.tcpOffset) :
      wordAt (patch pkt.raw i (be16Bytes n)) j = wordAt pkt.raw j := by
    rcases hi with rfl | rfl
    · exact wordAt_patch_of_ge hin (by rw [length_be16Bytes]; omega)
    · exact wordAt_patch_of_lt (by omega) (by omega)
  have hf : between (patch pkt.raw i (be16Bytes n)) pkt.tcpOffset (pkt.tcpOffset + 16) =
      between pkt.raw pkt.tcpOffset (pkt.tcpOffset + 16) := by
    rcases hi with rfl | rfl
    · exact between_patch_of_ge hin (by rw [length_be16Bytes]; omega)
    · exact between_patch_of_le (by omega) (Nat.le_refl _)
  have hb : (patch pkt.raw i (be16Bytes n)).drop (pkt.tcpOffset + 18) =
      pkt.raw.drop (pkt.tcpOffset + 18) :=
    drop_patch hin (by rw [length_be16Bytes]; omega)
  unfold tcpWords pseudoSum
  rw [length_patch hin, hf, hb, hw 12 (by omega) (by omega),
    hw 14 (by omega) (by omega), hw 16 (by omega) (by omega), hw 18 (by omega) (by omega)]

/-- **The TCP checksum** is correct exactly when the field was 0 in one's complement before. -/
theorem fixTcpChecksum_runs (h : pkt.Coherent) :
    Runs pkt.fixTcpChecksum False fun pkt' => Keeps pkt pkt' ∧ IpChecksumOk pkt'.raw ∧
      (wordAt pkt.raw 2 = pkt.raw.length →
        (TcpChecksumOk pkt'.raw ↔ pkt.tcpChecksum % 65535 = 0)) := by
  have hb := h.bounds
  rw [fixTcpChecksum_eq h, tcpWords_add_tcpChecksum h]
  set n := 65535 - folded (pkt.tcpWords + pkt.tcpChecksum) with hn
  have hk : Keeps pkt { pkt with raw := patch pkt.raw (pkt.tcpOffset + 16) (be16Bytes n) } := by
    refine .patch h ?_ ?_ <;> rw [length_be16Bytes] <;> omega
  refine (fixIpv4Checksum_runs hk.coherent).imp Iff.rfl ?_
  rintro pkt' - ⟨⟨m, hp'⟩, hm, hip⟩
  have hk' := hk.trans hm.toKeeps
  refine ⟨hk', hip, fun ht => ?_⟩
  have hw : pkt'.tcpWords = pkt.tcpWords := by
    rw [hp', tcpWords_patch hk.coherent (.inl rfl), tcpWords_patch h (.inr rfl)]
  have hf : pkt'.tcpChecksum = n := by
    rw [hm.checksum, tcpChecksum, wordAt_patch_be16Bytes (by omega),
      Nat.mod_eq_of_lt (by omega)]
  have hs : tcpSum pkt'.raw = pkt.tcpWords + n := by
    rw [tcpSum_eq hk'.coherent (hk'.total ht), tcpWords_add_tcpChecksum hk'.coherent, hw, hf]
  rw [TcpChecksumOk, hs, folded_complement_stale pkt.tcpWords_pos]

theorem fixChecksums_runs (h : pkt.Coherent) :
    Runs pkt.fixChecksums False fun pkt' => Keeps pkt pkt' ∧ IpChecksumOk pkt'.raw ∧
      (wordAt pkt.raw 2 = pkt.raw.length →
        (TcpChecksumOk pkt'.raw ↔ pkt.tcpChecksum % 65535 = 0)) := by
  refine (fixIpv4Checksum_runs h).then ?_
  rintro pkt₁ ⟨-, hm, -⟩
  refine (fixTcpChecksum_runs hm.coherent).imp Iff.rfl ?_
  rintro pkt₂ - ⟨hk, hip, htc⟩
  refine ⟨hm.toKeeps.trans hk, hip, fun ht => ?_⟩
  rw [htc (hm.total ht), hm.checksum]

def cutTo (raw : Bytes) (n : ℕ) : Bytes := patch (raw.take n) 2 (be16Bytes n)

theorem length_cutTo {raw : Bytes} {n : ℕ} (hn : 4 ≤ n) (hle : n ≤ raw.length) :
    (cutTo raw n).length = n := by
  have ht : (raw.take n).length = n := by
    rw [length_take]
    omega
  rw [cutTo, length_patch (by rw [length_be16Bytes]; omega), ht]

theorem coherent_cutTo (h : pkt.Coherent) (hsi : pkt.raw.length < 65536) {splitAt : ℕ}
    (hsp : splitAt < pkt.payload.length) {pkt' : TcpPacket}
    (hr : pkt'.raw = cutTo pkt.raw (pkt.tcpOffset + pkt.tcpHeaderLen + splitAt))
    (hip : pkt'.ipHeaderLen = pkt.ipHeaderLen) (htc : pkt'.tcpOffset = pkt.tcpOffset)
    (hth : pkt'.tcpHeaderLen = pkt.tcpHeaderLen)
    (hs : pkt'.checksumOffsets = (10, pkt.tcpOffset + 16)) :
    pkt'.Coherent ∧ pkt'.payload = pkt.payload.take splitAt := by
  have hb := h.bounds
  have hp := length_payload h
  generalize hn : pkt.tcpOffset + pkt.tcpHeaderLen + splitAt = n at hr
  have hl : (cutTo pkt.raw n).length = n := length_cutTo (by omega) (by omega)
  have hta : (pkt.raw.take n).length = n := by
    rw [length_take]
    omega
  have hin : 2 + (be16Bytes n).length ≤ (pkt.raw.take n).length := by
    rw [length_be16Bytes]
    omega
  have hg (j : ℕ) (hj : j < 2 ∨ 4 ≤ j) (hjn : j < n) :
      (cutTo pkt.raw n).getD j 0 = pkt.raw.getD j 0 := by
    have ht : (pkt.raw.take n).getD j 0 = pkt.raw.getD j 0 := by
      rw [getD_eq_getElem?_getD, getD_eq_getElem?_getD, getElem?_take_of_lt hjn]
    rw [← ht]
    rcases hj with hj | hj
    · exact getD_patch_of_lt (by omega) hj 0
    · exact getD_patch_of_ge hin (by rw [length_be16Bytes]; omega) 0
  have hto : wordAt (cutTo pkt.raw n) 2 = n :=
    (wordAt_patch_be16Bytes (by omega) n).trans (Nat.mod_eq_of_lt (by omega))
  have hth' : thl (cutTo pkt.raw n) = pkt.tcpHeaderLen := by
    rw [thl, ihl_congr (hg 0 (by omega) (by omega)), ← h.tcpOffset,
      hg _ (by omega) (by omega), h.tcpHeaderLen, thl, ← h.tcpOffset]
  refine ⟨h.of_raw hip htc hs ?_ ?_ ?_ ?_ ?_ ?_ ?_, ?_⟩
  · rw [hr, hg 0 (by omega) (by omega)]
  · rw [hr, hg 9 (by omega) (by omega)]
  · rw [hr]
    omega
  · rw [hr]
    omega
  · rw [hr, hth', hth]
  · omega
  · rw [hr]
    omega
  · rw [payload, payload, hr, htc, hth, cutTo,
      drop_patch hin (by rw [length_be16Bytes]; omega), drop_take, ← hn, Nat.add_sub_cancel_left]

theorem firstFragment_runs (h : pkt.Coherent) (hsi : pkt.raw.length < 65536) {splitAt : ℕ}
    (hs : splitAt < pkt.payload.length) : Runs (pkt.firstFragment splitAt) False fun f1 =>
      f1.Coherent ∧ f1.payload = pkt.payload.take splitAt := by
  have hb := h.bounds
  have hpa := length_payload h
  have hcu := @coherent_cutTo pkt h hsi splitAt hs
  unfold firstFragment
  dsimp only
  generalize hn : pkt.tcpOffset + pkt.tcpHeaderLen + splitAt = n at hcu ⊢
  have hl : (cutTo pkt.raw n).length = n := length_cutTo (by omega) (by omega)
  have ht : (pkt.raw.take n).length = n := by
    rw [length_take]
    omega
  rw [slice_of_le (by omega) (by omega)]
  change Runs (copyAt (pkt.raw.take n) 2 (be16Bytes (pkt.raw.take n).length) >>= _) False _
  rw [ht, copyAt_of_le (by rw [length_be16Bytes]; omega)]
  change Runs (copyAt (cutTo pkt.raw n) 6 _ >>= _) False _
  have hin₆ : 6 + [(0x40 : UInt8)].length ≤ (cutTo pkt.raw n).length := by
    rw [length_singleton]
    omega
  have hin₇ : 7 + [(0x00 : UInt8)].length ≤ (patch (cutTo pkt.raw n) 6 [0x40]).length := by
    rw [length_patch hin₆, length_singleton]
    omega
  rw [copyAt_of_le hin₆, ok_bind, copyAt_of_le hin₇]
  refine runs_ok ?_
  obtain ⟨f, hf⟩ : ∃ f : TcpPacket, f = ⟨cutTo pkt.raw n, pkt.ipHeaderLen,
      (patch (patch (cutTo pkt.raw n) 6 [0x40]) 7 [0x00]).length, pkt.tcpOffset,
      pkt.tcpHeaderLen, 0, (10, pkt.tcpOffset + 16)⟩ := ⟨_, rfl⟩
  have ho : f.tcpOffset = pkt.tcpOffset := by rw [hf]
  have hth : f.tcpHeaderLen = pkt.tcpHeaderLen := by rw [hf]
  obtain ⟨hc, hp⟩ :=
    hcu (by rw [hf]) (by rw [hf]) ho hth (by rw [hf])
  have hk₆ : Keeps f { f with raw := patch f.raw 6 [0x40] } := by
    refine .patch hc ?_ ?_ <;> rw [length_singleton] <;> omega
  have hk₇ : Keeps { f with raw := patch f.raw 6 [0x40] }
      { f with raw := patch (patch f.raw 6 [0x40]) 7 [0x00] } := by
    refine .patch hk₆.coherent ?_ ?_ <;> rw [length_singleton] <;> dsimp only <;> omega
  have hk := hk₆.trans hk₇
  rw [← hp, ← hk.payload]
  subst hf
  exact ⟨hk.coherent, rfl⟩

theorem secondFragment_runs (h : pkt.Coherent) {splitAt : ℕ} (hs : splitAt < pkt.payload.length) :
    Runs (pkt.secondFragment splitAt) False fun f2 =>
      f2.ipHeaderLen ≤ f2.raw.length ∧ 12 ≤ f2.raw.length := by
  have hb := h.bounds
  have hp := length_payload h
  have hi := h.ipHeaderLen.trans h.tcpOffset.symm
  have hh : (between pkt.raw 0 pkt.ipHeaderLen).length = pkt.ipHeaderLen :=
    length_between (by omega)
  unfold secondFragment
  dsimp only
  rw [slice_of_le (by omega) (by omega), ok_bind, copyAt_of_le (by rw [length_be16Bytes]; omega),
    ok_bind]
  set head₂ := patch (between pkt.raw 0 pkt.ipHeaderLen) 2 (be16Bytes (pkt.ipHeaderLen +
    (pkt.raw.length - (pkt.tcpOffset + pkt.tcpHeaderLen) - splitAt))) with hh₂
  have hl₂ : head₂.length = pkt.ipHeaderLen :=
    (length_patch (by rw [length_be16Bytes]; omega)).trans hh
  have hin₆ : 6 + [(0x40 : UInt8)].length ≤ head₂.length := by
    rw [length_singleton]
    omega
  have hl₆ := length_patch hin₆
  rw [copyAt_of_le hin₆, ok_bind, copyAt_of_le (by rw [length_singleton]; omega),
    slice_to_end (by omega)]
  refine runs_ok ?_
  dsimp only
  rw [length_append, length_patch (by rw [length_singleton]; omega)]
  omega

/-- **`fragment_tcp_payload`** splits inside the payload. -/
theorem fragmentTcpPayload_runs (h : pkt.Coherent) (hsi : pkt.raw.length < 65536) (splitAt : ℕ) :
    Runs (pkt.fragmentTcpPayload splitAt) False fun o =>
      (o = none ↔ splitAt = 0 ∨ pkt.payload.length ≤ splitAt) ∧
      ∀ f1 f2, o = some (f1, f2) → ∃ first, TcpPacket.parse f1 = .ok (some first) ∧
        first.payload = pkt.payload.take splitAt := by
  rw [fragmentTcpPayload, tcpPayload_eq h, ok_bind]
  by_cases hn : splitAt = 0 ∨ pkt.payload.length ≤ splitAt
  · rw [if_pos hn]
    exact runs_ok ⟨by simp [hn], by simp⟩
  rw [if_neg hn]
  have hs : splitAt < pkt.payload.length := by omega
  refine (firstFragment_runs h hsi hs).then ?_
  rintro f1 ⟨hc, hp⟩
  refine (secondFragment_runs h hs).then ?_
  rintro f2 ⟨hl, ht⟩
  refine (fixChecksums_runs hc).then ?_
  rintro f1' ⟨hk, -, -⟩
  rw [fixIpv4Checksum_eq hl ht]
  refine runs_ok ⟨by simp [hn], ?_⟩
  rintro _ _ ⟨⟩
  rw [← hp]
  exact hk.parse

end TcpPacket

end BalanSir.B4
