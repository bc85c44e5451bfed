/-
# The options of a TCP header

The loops of `set_mss` and `strip_option` over the bytes of the header.
-/

import BalanSir.B4.Packet
import Mathlib.Tactic.Set

namespace BalanSir.B4

open Lib List

def MSS : UInt8 := 2

def SACK_PERMITTED : UInt8 := 4

namespace TcpPacket

def setMssRound (pkt : TcpPacket) (mss : UInt16) (i : ℕ) : Checked (ℕ ⊕ (Bool × TcpPacket)) :=
  let stop := pkt.tcpOffset + pkt.tcpHeaderLen
  if i + 1 < stop then do
    let kind ← byteAt pkt.raw i
    if kind = 0 then .ok (.inr (false, pkt))
    else if kind = 1 then .ok (.inl (i + 1))
    else do
      let len ← byteAt pkt.raw (i + 1)
      if len.toNat < 2 ∨ stop < i + len.toNat then .ok (.inr (false, pkt))
      else if kind = MSS ∧ 4 ≤ len.toNat then do
        let raw ← copyAt pkt.raw (i + 2) (be16Bytes mss.toNat)
        .ok (.inr (true, { pkt with raw }))
      else .ok (.inl (i + len.toNat))
  else .ok (.inr (false, pkt))

def setMss (pkt : TcpPacket) (mss : UInt16) : Checked (Bool × TcpPacket) :=
  rounds (setMssRound pkt mss) (pkt.tcpHeaderLen + 1) (pkt.tcpOffset + 20)

/-- The loop of `strip_option`. -/
structure Stripping where
  i : ℕ
  kept : Bytes
  changed : Bool

def stripRound (pkt : TcpPacket) (kind : UInt8) (s : Stripping) :
    Checked (Stripping ⊕ (Bytes × Bool)) :=
  let stop := pkt.tcpOffset + pkt.tcpHeaderLen
  if s.i < stop then do
    let k ← byteAt pkt.raw s.i
    if k = 0 then do
      -- end of the options: the rest is padding
      let rest ← slice pkt.raw s.i stop
      .ok (.inr (s.kept ++ rest, s.changed))
    else if k = 1 then .ok (.inl ⟨s.i + 1, s.kept ++ [1], s.changed⟩)
    else do
      let len ← byteAt pkt.raw (s.i + 1)
      if len.toNat < 2 ∨ stop < s.i + len.toNat then do
        let rest ← slice pkt.raw s.i stop
        .ok (.inr (s.kept ++ rest, s.changed))
      else if k = kind then .ok (.inl ⟨s.i + len.toNat, s.kept, true⟩)
      else do
        let option ← slice pkt.raw s.i (s.i + len.toNat)
        .ok (.inl ⟨s.i + len.toNat, s.kept ++ option, s.changed⟩)
  else .ok (.inr (s.kept, s.changed))

def padNops (kept : Bytes) : Bytes := kept ++ List.replicate ((4 - kept.length % 4) % 4) 1

def rebuild (pkt : TcpPacket) (kept : Bytes) : Checked TcpPacket := do
  let tcpStart := pkt.tcpOffset
  let payload ← slice pkt.raw (tcpStart + pkt.tcpHeaderLen) pkt.raw.length
  let ipHeader ← slice pkt.raw 0 tcpStart
  let fixedHeader ← slice pkt.raw tcpStart (tcpStart + 20)
  let out := ipHeader ++ fixedHeader ++ (kept ++ payload)
  let newTcpHeaderLen := (20 + kept.length + 3) / 4 * 4
  let dof := UInt8.ofNat (newTcpHeaderLen / 4)
  let low ← byteAt out (tcpStart + 12)
  let out ← copyAt out (tcpStart + 12) [dof <<< 4 ||| (low &&& 0x0f)]
  let _oldIpLen ← u16At out 2
  let out ← copyAt out 2 (be16Bytes out.length)
  return { pkt with raw := out, tcpHeaderLen := newTcpHeaderLen }

def stripOption (pkt : TcpPacket) (kind : UInt8) : Checked (Bool × TcpPacket) := do
  let (kept, changed) ←
    rounds (stripRound pkt kind) (pkt.tcpHeaderLen + 1) ⟨pkt.tcpOffset + 20, [], false⟩
  if changed = false then .ok (false, pkt)
  else do
    let pkt ← rebuild pkt (padNops kept)
    return (true, pkt)

def options (pkt : TcpPacket) : Bytes :=
  between pkt.raw (pkt.tcpOffset + 20) (pkt.tcpOffset + pkt.tcpHeaderLen)

end TcpPacket

/-- Complete options, then a kind with no length byte. -/
inductive EndsInKind : Bytes → Prop
  | kind {k : UInt8} (hzero : k ≠ 0) (hnop : k ≠ 1) : EndsInKind [k]
  | nop {rest : Bytes} (h : EndsInKind rest) : EndsInKind (1 :: rest)
  | option {k len : UInt8} {value rest : Bytes} (hzero : k ≠ 0) (hnop : k ≠ 1)
      (hlen : len.toNat = value.length + 2) (h : EndsInKind rest) :
      EndsInKind (k :: len :: (value ++ rest))

def Complete (front : Bytes) : Prop := ∀ rest, EndsInKind (front ++ rest) ↔ EndsInKind rest

theorem not_endsInKind_nil : ¬EndsInKind [] := by
  rintro ⟨⟩

theorem not_endsInKind_zero (rest : Bytes) : ¬EndsInKind (0 :: rest) := by
  intro h
  cases h with
  | kind hz => exact hz rfl
  | option hz => exact hz rfl

theorem endsInKind_nop {rest : Bytes} : EndsInKind (1 :: rest) ↔ EndsInKind rest := by
  refine ⟨fun h => ?_, .nop⟩
  cases h with
  | kind _ hn => exact absurd rfl hn
  | nop h => exact h
  | option _ hn => exact absurd rfl hn

theorem not_endsInKind_nops (n : ℕ) : ¬EndsInKind (List.replicate n 1) := by
  induction n with
  | zero => exact not_endsInKind_nil
  | succ n ih =>
    rw [replicate_succ, endsInKind_nop]
    exact ih

theorem complete_nil : Complete [] := fun _ => Iff.rfl

theorem complete_nop : Complete [1] := fun _ => endsInKind_nop

variable {k len : UInt8}

theorem complete_option {value : Bytes} (hz : k ≠ 0) (hn : k ≠ 1)
    (hle : len.toNat = value.length + 2) : Complete (k :: len :: value) := by
  intro rest
  refine ⟨fun h => ?_, .option hz hn hle⟩
  rw [cons_append, cons_append] at h
  -- the length byte says where the option ends, so both readings of it agree
  generalize hl : value ++ rest = tail at h
  cases h with
  | nop => exact absurd rfl hn
  | option _ _ hle' h' =>
    obtain ⟨-, rfl⟩ := append_inj hl (by omega)
    exact h'

theorem Complete.append {front front' : Bytes} (h : Complete front) (h' : Complete front') :
    Complete (front ++ front') := by
  intro rest
  rw [append_assoc, h, h']

theorem complete_between {bs : Bytes} {i : ℕ} (hz : bs.getD i 0 ≠ 0) (hn : bs.getD i 0 ≠ 1)
    (hl : 2 ≤ (bs.getD (i + 1) 0).toNat) (h : i + (bs.getD (i + 1) 0).toNat ≤ bs.length) :
    Complete (between bs i (i + (bs.getD (i + 1) 0).toNat)) := by
  rw [between_eq_cons (by omega) h, between_eq_cons (by omega) h]
  refine complete_option hz hn ?_
  rw [length_between h]
  omega

theorem not_endsInKind_broken {rest : Bytes} (hz : k ≠ 0) (hno : k ≠ 1)
    (hle : len.toNat < 2 ∨ rest.length + 2 < len.toNat) (n : ℕ) :
    ¬EndsInKind (k :: len :: rest ++ List.replicate n 1) := by
  intro h
  rw [cons_append, cons_append] at h
  generalize hl : rest ++ List.replicate n 1 = tail at h
  cases h with
  | nop => exact hno rfl
  | @option _ _ value rest' _ _ hle' h' =>
    rcases hle with hle | hle
    · omega
    · -- the option swallows NOPs, and only NOPs are left
      rcases List.append_eq_append_iff.1 hl with ⟨m, -, hm⟩ | ⟨m, rfl, -⟩
      · have hn := (List.append_eq_replicate_iff.1 hm.symm).2.2
        rw [hn] at h'
        exact not_endsInKind_nops _ h'
      · rw [length_append] at hle
        omega

namespace TcpPacket

variable {pkt : TcpPacket} {s : Stripping} {kept : Bytes}

theorem endsInKind_patch_value {i : ℕ} {src : Bytes} (h : pkt.Coherent)
    (hi : pkt.tcpOffset + 20 ≤ i)
    (hd : Complete (between pkt.raw (pkt.tcpOffset + 20) i)) (hz : pkt.raw.getD i 0 ≠ 0)
    (hn : pkt.raw.getD i 0 ≠ 1) (hle : src.length + 2 ≤ (pkt.raw.getD (i + 1) 0).toNat)
    (he : i + (pkt.raw.getD (i + 1) 0).toNat ≤ pkt.tcpOffset + pkt.tcpHeaderLen) :
    EndsInKind (options { pkt with raw := patch pkt.raw (i + 2) src }) ↔
      EndsInKind pkt.options := by
  have hb := h.bounds
  set len := (pkt.raw.getD (i + 1) 0).toNat with hl
  have hf : (patch pkt.raw (i + 2) src).getD i 0 = pkt.raw.getD i 0 :=
    getD_patch_of_lt (by omega) (by omega) 0
  have hs : (patch pkt.raw (i + 2) src).getD (i + 1) 0 = pkt.raw.getD (i + 1) 0 :=
    getD_patch_of_lt (by omega) (by omega) 0
  have hsp (bs : Bytes) : between bs (pkt.tcpOffset + 20) (pkt.tcpOffset + pkt.tcpHeaderLen) =
      between bs (pkt.tcpOffset + 20) i ++ (between bs i (i + len) ++
        between bs (i + len) (pkt.tcpOffset + pkt.tcpHeaderLen)) := by
    rw [between_append (by omega) he, between_append hi (by omega)]
  have ho := complete_between hz hn (by omega) (by omega : i + len ≤ pkt.raw.length)
  have ho' : Complete (between (patch pkt.raw (i + 2) src) i (i + len)) := by
    rw [hl, ← hs]
    refine complete_between ?_ ?_ ?_ ?_
    · rwa [hf]
    · rwa [hf]
    · rw [hs]
      omega
    · rw [hs, length_patch (by omega)]
      omega
  show EndsInKind (between (patch pkt.raw (i + 2) src) _ _) ↔ EndsInKind (between pkt.raw _ _)
  rw [hsp, hsp, between_patch_of_le (by omega) (by omega : i ≤ i + 2), hd, hd,
    ho', ho, between_patch_of_ge (by omega) (by omega)]

def stop (pkt : TcpPacket) : ℕ := pkt.tcpOffset + pkt.tcpHeaderLen

/-- A complete option of `len` bytes at place `i`. -/
structure OptionAt (pkt : TcpPacket) (i len : ℕ) : Prop where
  zero : pkt.raw.getD i 0 ≠ 0
  nop : pkt.raw.getD i 0 ≠ 1
  length : (pkt.raw.getD (i + 1) 0).toNat = len
  two_le : 2 ≤ len
  fits : i + len ≤ pkt.stop

/-- An option at place `i` whose length byte points to itself or behind the options. -/
structure BrokenAt (pkt : TcpPacket) (i : ℕ) : Prop where
  lt : i < pkt.stop
  zero : pkt.raw.getD i 0 ≠ 0
  nop : pkt.raw.getD i 0 ≠ 1
  length : (pkt.raw.getD (i + 1) 0).toNat < 2 ∨ pkt.stop < i + (pkt.raw.getD (i + 1) 0).toNat

theorem OptionAt.complete (h : pkt.Coherent) {i len : ℕ} (ho : pkt.OptionAt i len) :
    Complete (between pkt.raw i (i + len)) := by
  have hb := h.bounds
  have hf := ho.fits
  have ht := ho.two_le
  unfold stop at hf
  have hc := complete_between ho.zero ho.nop (by rw [ho.length]; exact ht)
    (by rw [ho.length]; omega)
  rwa [ho.length] at hc

/-- What a round of `set_mss` can do. -/
inductive MssStep (pkt : TcpPacket) (mss : UInt16) (i : ℕ) : Checked (ℕ ⊕ (Bool × TcpPacket)) → Prop
  | atEnd (hend : pkt.stop ≤ i + 1) : MssStep pkt mss i (.ok (.inr (false, pkt)))
  | endOfList (hlt : i + 1 < pkt.stop) (hzero : pkt.raw.getD i 0 = 0) :
      MssStep pkt mss i (.ok (.inr (false, pkt)))
  | nop (hlt : i + 1 < pkt.stop) (hnop : pkt.raw.getD i 0 = 1) :
      MssStep pkt mss i (.ok (.inl (i + 1)))
  | broken (hbroken : pkt.BrokenAt i) : MssStep pkt mss i (.ok (.inr (false, pkt)))
  | found {len : ℕ} (ho : pkt.OptionAt i len) (hkind : pkt.raw.getD i 0 = MSS) (hlen : 4 ≤ len) :
      MssStep pkt mss i
        (.ok (.inr (true, { pkt with raw := patch pkt.raw (i + 2) (be16Bytes mss.toNat) })))
  | passed {len : ℕ} (ho : pkt.OptionAt i len) (hother : ¬(pkt.raw.getD i 0 = MSS ∧ 4 ≤ len)) :
      MssStep pkt mss i (.ok (.inl (i + len)))

theorem setMssRound_step (h : pkt.Coherent) (mss : UInt16) (i : ℕ) :
    MssStep pkt mss i (setMssRound pkt mss i) := by
  have hb := h.bounds
  have hin : pkt.stop ≤ pkt.raw.length := hb.2.2.2.2
  change MssStep pkt mss i (if i + 1 < pkt.stop then _ else _)
  by_cases hlt : i + 1 < pkt.stop
  · rw [if_pos hlt, byteAt_of_lt (by omega), ok_bind]
    by_cases hz : pkt.raw.getD i 0 = 0
    · rw [if_pos hz]
      exact .endOfList hlt hz
    rw [if_neg hz]
    by_cases hn : pkt.raw.getD i 0 = 1
    · rw [if_pos hn]
      exact .nop hlt hn
    rw [byteAt_of_lt (by omega), ok_bind]
    split_ifs with hbr hm
    · exact .broken ⟨by omega, hz, hn, hbr⟩
    · rw [copyAt_of_le (by rw [length_be16Bytes]; unfold stop at *; omega)]
      exact .found ⟨hz, hn, rfl, by omega, by unfold stop; omega⟩ hm.1 hm.2
    · exact .passed ⟨hz, hn, rfl, by omega, by unfold stop; omega⟩ hm
  · rw [if_neg hlt]
    exact .atEnd (by omega)

/-- What a round of `strip_option` can do. -/
inductive StripStep (pkt : TcpPacket) (kind : UInt8) (s : Stripping) :
    Checked (Stripping ⊕ (Bytes × Bool)) → Prop
  | atEnd (hend : pkt.stop ≤ s.i) : StripStep pkt kind s (.ok (.inr (s.kept, s.changed)))
  | endOfList (hlt : s.i < pkt.stop) (hzero : pkt.raw.getD s.i 0 = 0) :
      StripStep pkt kind s (.ok (.inr (s.kept ++ between pkt.raw s.i pkt.stop, s.changed)))
  | nop (hlt : s.i < pkt.stop) (hnop : pkt.raw.getD s.i 0 = 1) :
      StripStep pkt kind s (.ok (.inl ⟨s.i + 1, s.kept ++ [1], s.changed⟩))
  -- the length byte is read behind the end of the packet
  | dangling (hlt : s.i < pkt.stop) (hzero : pkt.raw.getD s.i 0 ≠ 0) (hnop : pkt.raw.getD s.i 0 ≠ 1)
      (hlast : pkt.raw.length ≤ s.i + 1) : StripStep pkt kind s (.error .outOfRange)
  | broken (hbroken : pkt.BrokenAt s.i) (hin : s.i + 1 < pkt.raw.length) :
      StripStep pkt kind s (.ok (.inr (s.kept ++ between pkt.raw s.i pkt.stop, s.changed)))
  | cut {len : ℕ} (ho : pkt.OptionAt s.i len) (hkind : pkt.raw.getD s.i 0 = kind) :
      StripStep pkt kind s (.ok (.inl ⟨s.i + len, s.kept, true⟩))
  | keep {len : ℕ} (ho : pkt.OptionAt s.i len) (hkind : pkt.raw.getD s.i 0 ≠ kind) :
      StripStep pkt kind s
        (.ok (.inl ⟨s.i + len, s.kept ++ between pkt.raw s.i (s.i + len), s.changed⟩))

theorem stripRound_step (h : pkt.Coherent) (kind : UInt8) (s : Stripping) :
    StripStep pkt kind s (stripRound pkt kind s) := by
  have hb := h.bounds
  have hin : pkt.stop ≤ pkt.raw.length := hb.2.2.2.2
  change StripStep pkt kind s (if s.i < pkt.stop then _ else _)
  by_cases hlt : s.i < pkt.stop
  · have hr : slice pkt.raw s.i (pkt.tcpOffset + pkt.tcpHeaderLen) =
        .ok (between pkt.raw s.i pkt.stop) := slice_of_le (Nat.le_of_lt hlt) hin
    rw [if_pos hlt, byteAt_of_lt (by omega), ok_bind, hr]
    by_cases hz : pkt.raw.getD s.i 0 = 0
    · rw [if_pos hz]
      exact .endOfList hlt hz
    rw [if_neg hz]
    by_cases hno : pkt.raw.getD s.i 0 = 1
    · rw [if_pos hno]
      exact .nop hlt hno
    rw [if_neg hno]
    rcases Nat.lt_or_ge (s.i + 1) pkt.raw.length with hn | hl
    · rw [byteAt_of_lt hn, ok_bind]
      split_ifs with hbr hk
      · exact .broken ⟨hlt, hz, hno, hbr⟩ hn
      · exact .cut ⟨hz, hno, rfl, by omega, by unfold stop; omega⟩ hk
      · rw [slice_of_le (by omega) (by unfold stop at *; omega)]
        exact .keep ⟨hz, hno, rfl, by omega, by unfold stop; omega⟩ hk
    · rw [byteAt_of_le hl]
      exact .dangling hlt hz hno hl
  · rw [if_neg hlt]
    exact .atEnd (by omega)

/-- **`set_mss`** never reads out of range; it writes into the value of one option. -/
theorem setMss_runs (h : pkt.Coherent) (mss : UInt16) :
    Runs (pkt.setMss mss) False fun r => (r.1 = false → r.2 = pkt) ∧ Mutates pkt r.2 ∧
      (EndsInKind r.2.options ↔ EndsInKind pkt.options) := by
  have hb := h.bounds
  have hsa : (false = false → pkt = pkt) ∧ Mutates pkt pkt ∧
      (EndsInKind pkt.options ↔ EndsInKind pkt.options) := ⟨fun _ => rfl, .refl h, Iff.rfl⟩
  refine Runs.rounds (fun i => pkt.tcpOffset + pkt.tcpHeaderLen - i) (fun _ => False)
    (I := fun i => pkt.tcpOffset + 20 ≤ i ∧ Complete (between pkt.raw (pkt.tcpOffset + 20) i))
    ?_ ⟨Nat.le_refl _, by rw [between_self]; exact complete_nil⟩ (by omega)
  rintro i ⟨hi, hd⟩
  have hs := setMssRound_step h mss i
  generalize setMssRound pkt mss i = o at hs ⊢
  have hst : pkt.stop = pkt.tcpOffset + pkt.tcpHeaderLen := rfl
  cases hs with
  | atEnd | endOfList | broken => exact ⟨id, hsa⟩
  | nop hlt hn =>
    refine ⟨⟨by omega, ?_⟩, by dsimp only; omega, Iff.rfl⟩
    rw [← between_append hi (Nat.le_succ i), between_eq_cons (Nat.lt_succ_self i) (by omega),
      hn, between_self]
    exact hd.append complete_nop
  | @found len ho hk hl =>
    have hf := ho.fits
    refine ⟨id, by simp, .patch h ?_ ?_ ?_, endsInKind_patch_value h hi hd ho.zero ho.nop ?_ ?_⟩ <;>
      simp only [length_be16Bytes, ho.length] <;> omega
  | @passed len ho =>
    have ht := ho.two_le
    have hf := ho.fits
    refine ⟨⟨by omega, ?_⟩, by dsimp only; omega, Iff.rfl⟩
    rw [← between_append hi (Nat.le_add_right i _)]
    exact hd.append (ho.complete h)

theorem payload_eq_nil (h : pkt.Coherent) :
    pkt.payload = [] ↔ pkt.raw.length = pkt.tcpOffset + pkt.tcpHeaderLen := by
  have := length_payload h
  rw [← length_eq_zero_iff]
  omega

/-- What holds in every round of the loop of `strip_option`. -/
structure Stripping.Ok (pkt : TcpPacket) (s : Stripping) : Prop where
  ge : pkt.tcpOffset + 20 ≤ s.i
  le : s.i ≤ pkt.tcpOffset + pkt.tcpHeaderLen
  complete : Complete s.kept
  length : s.kept.length + pkt.tcpOffset + 20 ≤ s.i
  shorter : s.changed = true → s.kept.length + pkt.tcpOffset + 22 ≤ s.i

def Stripped (pkt : TcpPacket) (r : Bytes × Bool) : Prop :=
  (r.2 = true → r.1.length + 22 ≤ pkt.tcpHeaderLen) ∧
    (pkt.payload = [] → ∀ n, ¬EndsInKind (r.1 ++ List.replicate n 1))

theorem Stripping.Ok.stripped (hs : s.Ok pkt) (rest : Bytes)
    (hl : s.i + rest.length ≤ pkt.tcpOffset + pkt.tcpHeaderLen)
    (hr : pkt.payload = [] → ∀ n, ¬EndsInKind (rest ++ List.replicate n 1)) :
    Stripped pkt (s.kept ++ rest, s.changed) := by
  refine ⟨fun hc => ?_, fun hp n => ?_⟩
  · have := hs.shorter hc
    rw [length_append]
    omega
  · rw [append_assoc, hs.complete]
    exact hr hp n

theorem Stripping.Ok.keep (hs : s.Ok pkt) {part : Bytes} (hp : Complete part)
    {n : ℕ} (hn : part.length ≤ n) (hle : s.i + n ≤ pkt.tcpOffset + pkt.tcpHeaderLen) :
    Stripping.Ok pkt ⟨s.i + n, s.kept ++ part, s.changed⟩ := by
  have hl := hs.length
  have hk : (s.kept ++ part).length = s.kept.length + part.length := length_append
  refine ⟨?_, hle, hs.complete.append hp, ?_, fun hc => ?_⟩
  · show _ ≤ s.i + n
    omega
  · show (s.kept ++ part).length + _ + 20 ≤ s.i + n
    omega
  · have hsh := hs.shorter hc
    show (s.kept ++ part).length + _ + 22 ≤ s.i + n
    omega

theorem Stripping.Ok.skip (hs : s.Ok pkt) {n : ℕ} (hn : 2 ≤ n)
    (hle : s.i + n ≤ pkt.tcpOffset + pkt.tcpHeaderLen) :
    Stripping.Ok pkt ⟨s.i + n, s.kept, true⟩ := by
  have hl := hs.length
  refine ⟨?_, hle, hs.complete, ?_, fun _ => ?_⟩
  · show _ ≤ s.i + n
    omega
  · show s.kept.length + _ + 20 ≤ s.i + n
    omega
  · show s.kept.length + _ + 22 ≤ s.i + n
    omega

theorem BrokenAt.not_endsInKind (h : pkt.Coherent) {i : ℕ} (hb : pkt.BrokenAt i)
    (hin : i + 1 < pkt.raw.length) (hp : pkt.payload = []) (n : ℕ) :
    ¬EndsInKind (between pkt.raw i pkt.stop ++ List.replicate n 1) := by
  have hs : pkt.stop = pkt.raw.length := ((payload_eq_nil h).1 hp).symm
  have hlt := hb.lt
  have hl := hb.length
  rw [between_eq_cons hlt (by omega), between_eq_cons (by omega) (by omega)]
  refine not_endsInKind_broken hb.zero hb.nop ?_ n
  rw [length_between (by omega)]
  omega

theorem OptionAt.endsInKind (h : pkt.Coherent) {i len : ℕ} (ho : pkt.OptionAt i len) :
    EndsInKind (between pkt.raw i pkt.stop) ↔ EndsInKind (between pkt.raw (i + len) pkt.stop) := by
  rw [← between_append (Nat.le_add_right i len) ho.fits, ho.complete h]

theorem stripRound_ok (h : pkt.Coherent) (kind : UInt8) (hs : s.Ok pkt) :
    RoundOk (Stripping.Ok pkt) (fun s => pkt.tcpOffset + pkt.tcpHeaderLen - s.i)
      (fun s => pkt.payload = [] ∧
        EndsInKind (between pkt.raw s.i (pkt.tcpOffset + pkt.tcpHeaderLen)))
      (Stripped pkt) s (stripRound pkt kind s) := by
  have hin : pkt.stop ≤ pkt.raw.length := h.bounds.2.2.2.2
  have hle : s.i ≤ pkt.stop := hs.le
  have hr : s.i + (between pkt.raw s.i pkt.stop).length ≤ pkt.stop := by
    rw [length_between hin]
    omega
  have hste := stripRound_step h kind s
  change RoundOk (Stripping.Ok pkt) (fun s => pkt.stop - s.i)
    (fun s => pkt.payload = [] ∧ EndsInKind (between pkt.raw s.i pkt.stop)) (Stripped pkt) s _
  generalize stripRound pkt kind s = o at hste ⊢
  cases hste with
  | atEnd hen =>
    have hst := hs.stripped [] hle fun _ n => not_endsInKind_nops n
    rw [append_nil] at hst
    refine ⟨?_, hst⟩
    dsimp only
    rw [Nat.le_antisymm hle hen, between_self]
    exact fun hba => not_endsInKind_nil hba.2
  | endOfList hlt hz =>
    have hc := between_eq_cons hlt hin
    rw [hz] at hc
    refine ⟨?_, hs.stripped _ hr fun _ n => ?_⟩
    · dsimp only
      rw [hc]
      exact fun hba => not_endsInKind_zero _ hba.2
    · rw [hc]
      exact not_endsInKind_zero _
  | nop hlt hno =>
    refine ⟨hs.keep complete_nop (Nat.le_refl 1) hlt, by dsimp only; omega, ?_⟩
    dsimp only
    rw [between_eq_cons hlt hin, hno, endsInKind_nop]
  | dangling hlt hz hno hl =>
    have hen : pkt.stop = s.i + 1 := by omega
    refine ⟨rfl, (payload_eq_nil h).2 (Nat.le_antisymm (by unfold stop at *; omega) hin), ?_⟩
    rw [between_eq_cons hlt hin, hen, between_self]
    exact .kind hz hno
  | broken hb hn =>
    have he := hb.not_endsInKind h hn
    refine ⟨fun hba => ?_, hs.stripped _ hr he⟩
    have hnot := he hba.1 0
    rw [replicate_zero, append_nil] at hnot
    exact hnot hba.2
  | @cut len ho hk =>
    have ht := ho.two_le
    have hf := ho.fits
    exact ⟨hs.skip ht hf, by dsimp only; omega, and_congr_right fun _ => ho.endsInKind h⟩
  | @keep len ho hk =>
    have ht := ho.two_le
    have hf := ho.fits
    have hlen : (between pkt.raw s.i (s.i + len)).length ≤ len := by
      rw [length_between (by omega)]
      omega
    exact ⟨hs.keep (ho.complete h) hlen hf, by dsimp only; omega,
      and_congr_right fun _ => ho.endsInKind h⟩

theorem stripRounds_runs (h : pkt.Coherent) (kind : UInt8) :
    Runs (rounds (stripRound pkt kind) (pkt.tcpHeaderLen + 1) ⟨pkt.tcpOffset + 20, [], false⟩)
      (pkt.payload = [] ∧ EndsInKind pkt.options) (Stripped pkt) := by
  have hb := h.bounds
  refine Runs.rounds _ _ (fun s hs => stripRound_ok h kind hs) ⟨?_, ?_, complete_nil, ?_, ?_⟩ ?_
  · exact Nat.le_refl _
  · show pkt.tcpOffset + 20 ≤ _
    omega
  · show 0 + pkt.tcpOffset + 20 ≤ pkt.tcpOffset + 20
    omega
  · simp
  · show pkt.tcpOffset + pkt.tcpHeaderLen - (pkt.tcpOffset + 20) < _
    omega

theorem nibble_toNat {d : ℕ} (hd : d < 16) (low : UInt8) :
    ((UInt8.ofNat d <<< 4 ||| (low &&& 0x0f)) >>> 4).toNat = d := by
  have hs : (UInt8.ofNat d <<< 4).toNat = d <<< 4 := by
    show (d % 256) <<< 4 % 256 = d <<< 4
    omega
  rw [UInt8.toNat_shiftRight, UInt8.toNat_or, hs]
  show (d <<< 4 ||| (low.toNat &&& 15)) >>> 4 = d
  rw [Nat.shiftRight_or_distrib, Nat.shiftRight_and_distrib]
  simp

def joined (pkt : TcpPacket) (kept : Bytes) : Bytes :=
  pkt.raw.take (pkt.tcpOffset + 20) ++ (kept ++ pkt.payload)

def doffByte (pkt : TcpPacket) (kept : Bytes) : UInt8 :=
  UInt8.ofNat ((20 + kept.length) / 4) <<< 4 ||| (pkt.raw.getD (pkt.tcpOffset + 12) 0 &&& 0x0f)

def rebuilt (pkt : TcpPacket) (kept : Bytes) : TcpPacket :=
  { pkt with
    raw := patch (patch (joined pkt kept) (pkt.tcpOffset + 12) [doffByte pkt kept]) 2
      (be16Bytes (joined pkt kept).length)
    tcpHeaderLen := 20 + kept.length }

theorem length_take_headers (h : pkt.Coherent) :
    (pkt.raw.take (pkt.tcpOffset + 20)).length = pkt.tcpOffset + 20 := by
  have := h.bounds
  rw [length_take]
  omega

theorem length_joined (h : pkt.Coherent) (kept : Bytes) :
    (joined pkt kept).length = pkt.tcpOffset + 20 + kept.length + pkt.payload.length := by
  rw [joined, length_append, length_append, length_take_headers h, Nat.add_assoc _ kept.length]

theorem getD_joined (h : pkt.Coherent) (kept : Bytes) {j : ℕ} (hj : j < pkt.tcpOffset + 20) :
    (joined pkt kept).getD j 0 = pkt.raw.getD j 0 := by
  rw [joined, getD_append _ _ _ _ (by rwa [length_take_headers h]),
    getD_eq_getElem?_getD, getD_eq_getElem?_getD, getElem?_take_of_lt hj]

theorem rebuild_eq (h : pkt.Coherent) (hm : kept.length % 4 = 0) :
    pkt.rebuild kept = .ok (pkt.rebuilt kept) := by
  have hb := h.bounds
  have hj := length_joined h kept
  have hp : (patch (joined pkt kept) (pkt.tcpOffset + 12) [doffByte pkt kept]).length =
      (joined pkt kept).length := length_patch (by rw [length_singleton]; omega)
  have hn : (20 + kept.length + 3) / 4 * 4 = 20 + kept.length := by omega
  have hh : between pkt.raw 0 pkt.tcpOffset ++
      between pkt.raw pkt.tcpOffset (pkt.tcpOffset + 20) = pkt.raw.take (pkt.tcpOffset + 20) := by
    rw [between_append (Nat.zero_le _) (Nat.le_add_right _ _)]
    rfl
  unfold rebuild
  dsimp only
  rw [slice_to_end (by omega), ok_bind, slice_of_le (by omega) (by omega), ok_bind,
    slice_of_le (by omega) (by omega), ok_bind, hh, hn]
  change (byteAt (joined pkt kept) _ >>= _) = _
  rw [byteAt_of_lt (by omega), getD_joined h kept (by omega)]
  change (copyAt (joined pkt kept) (pkt.tcpOffset + 12) [doffByte pkt kept] >>= _) = _
  rw [copyAt_of_le (by rw [length_singleton]; omega), ok_bind, u16At_of_lt (by omega),
    copyAt_of_le (by rw [length_be16Bytes]; omega), hp]
  rfl

section Rebuilt

variable (kept : Bytes)

theorem doff_in_joined (h : pkt.Coherent) :
    pkt.tcpOffset + 12 + [doffByte pkt kept].length ≤ (joined pkt kept).length := by
  have hj := length_joined h kept
  rw [length_singleton]
  omega

theorem total_in_joined (h : pkt.Coherent) : 2 + (be16Bytes (joined pkt kept).length).length ≤
      (patch (joined pkt kept) (pkt.tcpOffset + 12) [doffByte pkt kept]).length := by
  have hj := length_joined h kept
  rw [length_patch (doff_in_joined kept h), length_be16Bytes]
  omega

theorem length_rebuilt (h : pkt.Coherent) :
    (pkt.rebuilt kept).raw.length = (joined pkt kept).length :=
  (length_patch (total_in_joined kept h)).trans (length_patch (doff_in_joined kept h))

theorem drop_rebuilt (h : pkt.Coherent) {j : ℕ} (hj : pkt.tcpOffset + 13 ≤ j) :
    (pkt.rebuilt kept).raw.drop j = (joined pkt kept).drop j :=
  (drop_patch (total_in_joined kept h) (by rw [length_be16Bytes]; omega)).trans
    (drop_patch (doff_in_joined kept h) (by rw [length_singleton]; omega))

theorem getD_rebuilt (h : pkt.Coherent) {j : ℕ}
    (hj : j < 2 ∨ 4 ≤ j ∧ j ≠ pkt.tcpOffset + 12 ∧ j < pkt.tcpOffset + 20) :
    (pkt.rebuilt kept).raw.getD j 0 = pkt.raw.getD j 0 := by
  have hin₁ := doff_in_joined kept h
  have hin₂ := total_in_joined kept h
  have hi : (patch (joined pkt kept) (pkt.tcpOffset + 12) [doffByte pkt kept]).getD j 0 =
      pkt.raw.getD j 0 := by
    rw [← getD_joined h kept (by omega)]
    rcases Nat.lt_or_ge j (pkt.tcpOffset + 12) with hlt | hge
    · exact getD_patch_of_lt (by omega) hlt 0
    · exact getD_patch_of_ge hin₁ (by rw [length_singleton]; omega) 0
  rcases hj with hj | hj
  · exact (getD_patch_of_lt (by omega) hj 0).trans hi
  · exact (getD_patch_of_ge hin₂ (by rw [length_be16Bytes]; omega) 0).trans hi

theorem getD_rebuilt_doff (h : pkt.Coherent) :
    (pkt.rebuilt kept).raw.getD (pkt.tcpOffset + 12) 0 = doffByte pkt kept := by
  have hj := length_joined h kept
  have hi : (patch (joined pkt kept) (pkt.tcpOffset + 12) [doffByte pkt kept]).getD
      (pkt.tcpOffset + 12 + 0) 0 = doffByte pkt kept :=
    getD_patch_add (by omega) (Nat.zero_lt_succ 0) 0
  refine (getD_patch_of_ge (total_in_joined kept h) ?_ 0).trans hi
  rw [length_be16Bytes]
  omega

end Rebuilt

theorem rebuilt_mutates (h : pkt.Coherent) (hs : pkt.raw.length < 65536)
    (hm : kept.length % 4 = 0) (hl : 20 + kept.length ≤ pkt.tcpHeaderLen) :
    Mutates pkt (pkt.rebuilt kept) ∧ (pkt.rebuilt kept).options = kept := by
  have hb := h.bounds
  have hp := length_payload h
  have hj := length_joined h kept
  have hr := length_rebuilt kept h
  have hf := getD_rebuilt kept h (j := 0) (by omega)
  have hth : thl (pkt.rebuilt kept).raw = 20 + kept.length := by
    rw [thl, ihl_congr hf, ← h.tcpOffset, getD_rebuilt_doff kept h, doffByte,
      nibble_toNat (by omega)]
    omega
  have ht : wordAt (pkt.rebuilt kept).raw 2 = (pkt.rebuilt kept).raw.length := by
    have hin := length_patch (doff_in_joined kept h)
    rw [hr]
    refine (wordAt_patch_be16Bytes (by omega) _).trans (Nat.mod_eq_of_lt ?_)
    omega
  have hd : (joined pkt kept).drop (pkt.tcpOffset + 20) = kept ++ pkt.payload := by
    rw [joined, drop_left' (length_take_headers h)]
  refine ⟨⟨⟨h.of_raw rfl rfl ?_ hf (getD_rebuilt kept h (by omega)) ?_
    (Nat.le_of_eq ht) hth ?_ ?_, rfl, ?_, ?_, fun _ => ht⟩, ?_⟩, ?_⟩
  · exact h.checksumOffsets.trans (by rw [h.tcpOffset])
  · omega
  · exact Nat.le_add_right ..
  · show pkt.tcpOffset + (20 + kept.length) ≤ (pkt.rebuilt kept).raw.length
    omega
  · show (pkt.rebuilt kept).raw.drop (pkt.tcpOffset + (20 + kept.length)) = pkt.payload
    rw [drop_rebuilt kept h (by omega), ← Nat.add_assoc, ← drop_drop, hd, drop_left]
  · omega
  · show wordAt (pkt.rebuilt kept).raw (pkt.tcpOffset + 16) = wordAt pkt.raw (pkt.tcpOffset + 16)
    rw [wordAt, getD_rebuilt kept h (by omega), getD_rebuilt kept h (by omega), wordAt]
  · show between (pkt.rebuilt kept).raw (pkt.tcpOffset + 20)
      (pkt.tcpOffset + (20 + kept.length)) = kept
    rw [between, drop_take, drop_rebuilt kept h (by omega), hd,
      show pkt.tcpOffset + (20 + kept.length) - (pkt.tcpOffset + 20) = kept.length by omega,
      take_left]

theorem length_padNops_mod (kept : Bytes) : (padNops kept).length % 4 = 0 := by
  rw [padNops, length_append, length_replicate]
  omega

theorem length_padNops_le (h : pkt.Coherent)
    (hk : kept.length + 22 ≤ pkt.tcpHeaderLen) : 20 + (padNops kept).length ≤ pkt.tcpHeaderLen := by
  have ht := thl_mod pkt.raw
  rw [← h.tcpHeaderLen] at ht
  rw [padNops, length_append, length_replicate]
  omega

/-- **`strip_option`** reads out of range exactly when there is no payload and the options end in a
kind. -/
theorem stripOption_runs (h : pkt.Coherent) (hsi : pkt.raw.length < 65536) (kind : UInt8) :
    Runs (pkt.stripOption kind) (pkt.payload = [] ∧ EndsInKind pkt.options) fun r =>
      (r.1 = false → r.2 = pkt) ∧ Mutates pkt r.2 ∧
        (pkt.payload = [] → ¬EndsInKind r.2.options) := by
  have hs := stripRounds_runs h kind
  refine hs.finish ?_
  rintro ⟨kept, changed⟩ hb ⟨hsh, hen⟩
  cases changed with
  | false => exact runs_ok ⟨fun _ => rfl, .refl h, fun hp he => hb ⟨hp, he⟩⟩
  | true =>
    have hmo := length_padNops_mod kept
    have hl := length_padNops_le h (hsh rfl)
    obtain ⟨hm, ho⟩ := rebuilt_mutates h hsi hmo hl
    dsimp only
    rw [rebuild_eq h hmo]
    refine runs_ok ⟨by simp, hm, fun hp => ?_⟩
    rw [ho]
    exact hen hp _

end TcpPacket

end BalanSir.B4
