/-
# Strategies, profiles and strategy sets

`strategies.rs` and `set_apply.rs`: what is done to a packet, and its checksums after it.
-/

import BalanSir.B4.Checksum
import BalanSir.Lib.Text

namespace BalanSir.B4

open Lib TcpPacket

def TcpPacket.setTtl (pkt : TcpPacket) (ttl : UInt8) : Checked (Bool × TcpPacket) := do
  let old ← byteAt pkt.raw 8
  if old ≠ ttl then do
    let raw ← copyAt pkt.raw 8 [ttl]
    return (true, { pkt with raw })
  else return (false, pkt)

inductive Strategy
  | mss (value : UInt16)
  | stripSack
  | ttl (value : UInt8)
  | noop
deriving DecidableEq

def Strategy.apply : Strategy → TcpPacket → Checked (Bool × TcpPacket)
  | .mss value, pkt => pkt.setMss value
  | .stripSack, pkt => pkt.stripOption SACK_PERMITTED
  | .ttl value, pkt => pkt.setTtl value
  | .noop, pkt => return (false, pkt)

def finish (r : Bool × TcpPacket) : Checked (Option Bytes) :=
  if r.1 then do
    let pkt ← r.2.fixChecksums
    return some pkt.raw
  else return none

def Strategy.mutate (strat : Strategy) (pkt : TcpPacket) : Checked (Option Bytes) := do
  let r ← strat.apply pkt
  finish r

structure Profile where
  name : Text
  domains : List Text
  strategies : List Strategy
deriving DecidableEq

def underDomain (host domain : Text) : Bool :=
  let d := toAsciiLowercase (trimEndMatches '.' domain)
  host = d || endsWith host ('.' :: d)

def Profile.matchesHost (profile : Profile) (host : Text) : Bool :=
  let h := toAsciiLowercase (trimEndMatches '.' host)
  profile.domains.any (underDomain h)

structure EngineConfig where
  profiles : List Profile
deriving DecidableEq

def EngineConfig.profileFor (config : EngineConfig) (host : Text) : Option Profile :=
  (config.profiles.find? fun p => !p.domains.isEmpty && p.matchesHost host).or
    (config.profiles.find? fun p => p.domains.isEmpty)

def EngineConfig.catchAll (config : EngineConfig) : Option Profile :=
  config.profiles.find? fun p => p.domains.isEmpty && !p.strategies.isEmpty

def applyAll (strategies : List Strategy) (pkt : TcpPacket) : Checked (Bool × TcpPacket) :=
  strategies.foldlM (fun r strat => do
    let (changed, pkt) ← strat.apply r.2
    return (r.1 || changed, pkt)) (false, pkt)

def applyProfile (strategies : List Strategy) (pkt : TcpPacket) : Checked (Option Bytes) := do
  let r ← applyAll strategies pkt
  finish r

structure TcpPlane where
  synTtl : UInt8
  dropSack : Bool
deriving DecidableEq

structure UdpPlane where
  mode : String
  dportFilter : String
deriving DecidableEq

structure ComboPlane where
  firstByteSplit : Bool
  extensionSplit : Bool
deriving DecidableEq

structure FragmentationPlane where
  strategy : String
  combo : ComboPlane
deriving DecidableEq

structure FakingPlane where
  sni : Bool
  strategy : String
  seqOffset : UInt32
deriving DecidableEq

structure Targets where
  sniDomains : List Text
  geositeCategories : List Text
deriving DecidableEq

structure B4Set where
  name : Text
  tcp : TcpPlane
  udp : UdpPlane
  fragmentation : FragmentationPlane
  faking : FakingPlane
  targets : Targets
  enabled : Bool
deriving DecidableEq

variable (set : B4Set)

def B4Set.wantsTcp : Bool := set.enabled

inductive ApplyOutcome
  | pass
  | mutated (bytes : Bytes)
  | fragment (first second : Bytes)
  | drop
deriving DecidableEq

def defaultMssFor (plan : FragmentationPlane) : Option UInt16 :=
  if plan.strategy = "" ∨ plan.strategy = "none" then none else some 1200

def synPlane (pkt : TcpPacket) : Checked (Bool × TcpPacket) := do
  let (mssSet, pkt) ← (match defaultMssFor set.fragmentation with
    | some mss => pkt.setMss mss
    | none => .ok (false, pkt) : Checked (Bool × TcpPacket))
  let (stripped, pkt) ← (if set.tcp.dropSack then pkt.stripOption SACK_PERMITTED
    else .ok (false, pkt) : Checked (Bool × TcpPacket))
  let (ttlSet, pkt) ← (if set.tcp.synTtl ≠ 0 then pkt.setTtl set.tcp.synTtl
    else .ok (false, pkt) : Checked (Bool × TcpPacket))
  return (mssSet || stripped || ttlSet, pkt)

def pastSeq (pkt : TcpPacket) : Checked (Bool × TcpPacket) := do
  let seq ← pkt.tcpSeq
  let offset := set.faking.seqOffset.toNat
  if 0 < offset then do
    let pkt ← pkt.setTcpSeq ((seq + offset) % 4294967296)
    return (true, pkt)
  else return (false, pkt)

def applyTcp (pkt : TcpPacket) (isSyn isFirstSeg : Bool) : Checked ApplyOutcome :=
  if set.wantsTcp = false then .ok .pass
  else do
    let (changed, mutated) ← (if isSyn then synPlane set pkt
      else .ok (false, pkt) : Checked (Bool × TcpPacket))
    let (moved, mutated) ←
      (if isFirstSeg ∧ set.faking.sni ∧ set.faking.strategy = "pastseq" then pastSeq set mutated
        else .ok (false, mutated) : Checked (Bool × TcpPacket))
    match ← finish (changed || moved, mutated) with
    | some bytes => return .mutated bytes
    | none => return .pass

def comboSplitPoint (combo : ComboPlane) (payloadLen : ℕ) : ℕ :=
  if combo.firstByteSplit then min 1 (payloadLen - 1)
  else if combo.extensionSplit ∧ 2 ≤ payloadLen then
    min (max (payloadLen / 3) 1) (payloadLen - 1)
  else payloadLen / 2

def fragmentFor (pkt : TcpPacket) : Checked (Option (Bytes × Bytes)) :=
  if set.wantsTcp = false then .ok none
  else
    let plan := set.fragmentation
    if plan.strategy ≠ "combo" ∧ plan.strategy ≠ "disorder" then .ok none
    else do
      let payload ← pkt.tcpPayload
      if payload.isEmpty ∨ payload.length < 2 then .ok none
      else do
        let splitAt := comboSplitPoint plan.combo payload.length
        if splitAt = 0 ∨ payload.length ≤ splitAt then .ok none
        else pkt.fragmentTcpPayload splitAt

def Edited (pkt : TcpPacket) (r : Bool × TcpPacket) : Prop :=
  (r.1 = false → r.2 = pkt) ∧ TcpPacket.Mutates pkt r.2

theorem Edited.trans {pkt : TcpPacket} {r r' : Bool × TcpPacket} (h : Edited pkt r)
    (h' : Edited r.2 r') : Edited pkt (r.1 || r'.1, r'.2) := by
  refine ⟨fun hf => ?_, h.2.trans h'.2⟩
  obtain ⟨h₁, h₂⟩ := Bool.or_eq_false_iff.1 hf
  exact (h'.1 h₂).trans (h.1 h₁)

variable {pkt : TcpPacket}

theorem edited_self (h : pkt.Coherent) : Edited pkt (false, pkt) := ⟨fun _ => rfl, .refl h⟩

def Dangling (pkt : TcpPacket) : Prop := pkt.payload = [] ∧ EndsInKind pkt.options

theorem setTtl_runs (h : pkt.Coherent) (ttl : UInt8) :
    Runs (pkt.setTtl ttl) False fun r => Edited pkt r ∧ (Dangling r.2 ↔ Dangling pkt) := by
  have hb := h.bounds
  have hin : 8 + [ttl].length ≤ pkt.raw.length := by
    rw [List.length_singleton]
    omega
  rw [TcpPacket.setTtl, byteAt_of_lt (by omega), ok_bind]
  split_ifs
  · rw [copyAt_of_le hin]
    have hm : TcpPacket.Mutates pkt { pkt with raw := patch pkt.raw 8 [ttl] } := by
      refine .patch h ?_ ?_ ?_ <;> rw [List.length_singleton] <;> omega
    have ho : TcpPacket.options { pkt with raw := patch pkt.raw 8 [ttl] } = pkt.options :=
      between_patch_of_ge hin (by rw [List.length_singleton]; omega)
    refine runs_ok ⟨⟨by simp, hm⟩, ?_⟩
    rw [Dangling, Dangling, hm.payload, ho]
  · exact runs_ok ⟨edited_self h, Iff.rfl⟩

/-- **A strategy** reads out of range only where it strips an option of a dangling packet. -/
theorem Strategy.apply_runs (h : pkt.Coherent) (hsi : pkt.raw.length < 65536) (strat : Strategy) :
    Runs (strat.apply pkt) (strat = .stripSack ∧ Dangling pkt) fun r =>
      Edited pkt r ∧ (Dangling r.2 ↔ Dangling pkt) := by
  cases strat with
  | mss value =>
    refine (setMss_runs h value).imp (by simp) ?_
    rintro r - ⟨hs, hm, he⟩
    exact ⟨⟨hs, hm⟩, by rw [Dangling, Dangling, hm.payload, he]⟩
  | stripSack =>
    refine (stripOption_runs h hsi SACK_PERMITTED).imp (by simp [Dangling]) ?_
    rintro r hb ⟨hs, hm, he⟩
    refine ⟨⟨hs, hm⟩, ?_⟩
    rw [Dangling, hm.payload]
    exact iff_of_false (fun hd => he hd.1 hd.2) hb
  | ttl value => exact (setTtl_runs h value).imp (by simp) fun _ _ hr => hr
  | noop => exact (runs_ok ⟨edited_self h, Iff.rfl⟩).imp (by simp) fun _ _ hr => hr

/-- **The strategies of a profile**, in order. -/
theorem applyAll_runs (h : pkt.Coherent) (hs : pkt.raw.length < 65536)
    (strategies : List Strategy) :
    Runs (applyAll strategies pkt) (.stripSack ∈ strategies ∧ Dangling pkt) (Edited pkt) := by
  have hro : ∀ (_ : List Strategy) (r : Bool × TcpPacket) (strat : Strategy),
      Edited pkt r ∧ (Dangling r.2 ↔ Dangling pkt) →
      Runs (do
        let (changed, pkt) ← strat.apply r.2
        return (r.1 || changed, pkt)) (strat = .stripSack ∧ Dangling pkt)
        fun r' => Edited pkt r' ∧ (Dangling r'.2 ↔ Dangling pkt) := by
    rintro - r strat ⟨hr, hd⟩
    have hl := hr.2.length_le
    have hh := Strategy.apply_runs hr.2.coherent (by omega) strat
    rw [hd] at hh
    exact hh.finish fun r' _ hr' => runs_ok ⟨hr.trans hr'.1, hr'.2⟩
  -- what was done before matters to no round
  refine (Runs.foldlM hro
    strategies [] ⟨edited_self h, Iff.rfl⟩).imp ?_ fun _ _ hr => hr.1
  simp

/-- The same payload and IP checksum right; the TCP checksum if it was 0 in one's complement. -/
structure Replaces (pkt : TcpPacket) (bytes : Bytes) : Prop where
  payload : ∃ again, TcpPacket.parse bytes = .ok (some again) ∧ again.payload = pkt.payload
  ipChecksum : IpChecksumOk bytes
  tcpChecksum : wordAt pkt.raw 2 = pkt.raw.length →
    (TcpChecksumOk bytes ↔ pkt.tcpChecksum % 65535 = 0)

theorem finish_runs {r : Bool × TcpPacket} (h : Edited pkt r) :
    Runs (finish r) False fun o => ∀ bytes, o = some bytes → Replaces pkt bytes := by
  unfold finish
  split_ifs
  · refine (fixChecksums_runs h.2.coherent).then ?_
    rintro pkt' ⟨hk, hip, htc⟩
    refine runs_ok ?_
    rintro _ ⟨⟩
    refine ⟨(h.2.toKeeps.trans hk).parse, hip, fun ht => ?_⟩
    rw [htc (h.2.total ht), h.2.checksum]
  · exact runs_ok (by simp)

theorem applyProfile_runs (h : pkt.Coherent) (hs : pkt.raw.length < 65536)
    (strategies : List Strategy) :
    Runs (applyProfile strategies pkt) (.stripSack ∈ strategies ∧ Dangling pkt) fun o =>
      ∀ bytes, o = some bytes → Replaces pkt bytes :=
  (applyAll_runs h hs strategies).finish fun _ _ hr => finish_runs hr

theorem Strategy.mutate_runs (h : pkt.Coherent) (hs : pkt.raw.length < 65536) (strat : Strategy) :
    Runs (strat.mutate pkt) (strat = .stripSack ∧ Dangling pkt) fun o =>
      ∀ bytes, o = some bytes → Replaces pkt bytes :=
  (strat.apply_runs h hs).finish fun _ _ hr => finish_runs hr.1

theorem synPlane_runs (h : pkt.Coherent) (hsi : pkt.raw.length < 65536) (set : B4Set) :
    Runs (synPlane set pkt) (set.tcp.dropSack ∧ Dangling pkt) (Edited pkt) := by
  have hm : Runs (match defaultMssFor set.fragmentation with
      | some mss => pkt.setMss mss
      | none => .ok (false, pkt)) False fun r => Edited pkt r ∧ (Dangling r.2 ↔ Dangling pkt) := by
    cases defaultMssFor set.fragmentation with
    | none => exact runs_ok ⟨edited_self h, Iff.rfl⟩
    | some mss => exact (Strategy.apply_runs h hsi (.mss mss)).imp (by simp) fun _ _ hr => hr
  refine hm.then ?_
  rintro r₁ ⟨hr₁, hd⟩
  have hl := hr₁.2.length_le
  have hs : Runs (if set.tcp.dropSack then r₁.2.stripOption SACK_PERMITTED
      else .ok (false, r₁.2)) (set.tcp.dropSack = true ∧ Dangling pkt) (Edited r₁.2) := by
    split_ifs with hdr
    · exact (Strategy.apply_runs hr₁.2.coherent (by omega) .stripSack).imp
        (by simp [hdr, hd]) fun _ _ hr => hr.1
    · exact (runs_ok (edited_self hr₁.2.coherent)).imp (by simp [hdr]) fun _ _ hr => hr
  refine hs.finish ?_
  rintro r₂ - hr₂
  have ht : Runs (if set.tcp.synTtl ≠ 0 then r₂.2.setTtl set.tcp.synTtl
      else .ok (false, r₂.2)) False (Edited r₂.2) := by
    split_ifs
    · exact (setTtl_runs hr₂.2.coherent _).imp Iff.rfl fun _ _ hr => hr.1
    · exact runs_ok (edited_self hr₂.2.coherent)
  refine ht.then ?_
  rintro r₃ hr₃
  exact runs_ok ((hr₁.trans hr₂).trans hr₃)

theorem pastSeq_runs (h : pkt.Coherent) (set : B4Set) :
    Runs (pastSeq set pkt) False (Edited pkt) := by
  have hb := h.bounds
  rw [pastSeq, TcpPacket.tcpSeq, u32At_of_lt (by omega), ok_bind]
  dsimp only
  split_ifs
  · rw [TcpPacket.setTcpSeq, copyAt_of_le (by rw [length_be32Bytes]; omega)]
    refine runs_ok ⟨by simp, .patch h ?_ ?_ ?_⟩ <;> rw [length_be32Bytes] <;> omega
  · exact runs_ok (edited_self h)

/-- **`apply_tcp`** passes the packet or replaces it. -/
theorem applyTcp_runs (h : pkt.Coherent) (hsi : pkt.raw.length < 65536) (set : B4Set)
    (isSyn isFirstSeg : Bool) : Runs (applyTcp set pkt isSyn isFirstSeg)
      (set.wantsTcp ∧ isSyn ∧ set.tcp.dropSack ∧ Dangling pkt) fun o =>
        o = .pass ∨ ∃ bytes, o = .mutated bytes ∧ Replaces pkt bytes := by
  unfold applyTcp
  by_cases hw : set.wantsTcp = false
  · rw [if_pos hw]
    exact (runs_ok (.inl rfl)).imp (by simp [hw]) fun _ _ hr => hr
  rw [if_neg hw]
  have hsy : Runs (if isSyn then synPlane set pkt else .ok (false, pkt))
      (set.wantsTcp = true ∧ isSyn = true ∧ set.tcp.dropSack = true ∧ Dangling pkt)
      (Edited pkt) := by
    split_ifs with hs
    · exact (synPlane_runs h hsi set).imp (by simp [hw, hs]) fun _ _ hr => hr
    · exact (runs_ok (edited_self h)).imp (by simp [hs]) fun _ _ hr => hr
  refine hsy.finish ?_
  rintro r₁ - hr₁
  have hse : Runs (if isFirstSeg ∧ set.faking.sni ∧ set.faking.strategy = "pastseq" then
      pastSeq set r₁.2 else .ok (false, r₁.2)) False (Edited r₁.2) := by
    split_ifs
    · exact pastSeq_runs hr₁.2.coherent set
    · exact runs_ok (edited_self hr₁.2.coherent)
  refine hse.then ?_
  rintro r₂ hr₂
  refine (finish_runs (hr₁.trans hr₂)).then ?_
  rintro o ho
  cases o with
  | none => exact runs_ok (.inl rfl)
  | some bytes => exact runs_ok (.inr ⟨bytes, rfl, ho bytes rfl⟩)

def Fragments (set : B4Set) (pkt : TcpPacket) : Prop :=
  set.enabled = true ∧
    (set.fragmentation.strategy = "combo" ∨ set.fragmentation.strategy = "disorder") ∧
    2 ≤ pkt.payload.length

theorem comboSplitPoint_bounds (combo : ComboPlane) {n : ℕ} (h : 2 ≤ n) :
    0 < comboSplitPoint combo n ∧ comboSplitPoint combo n < n := by
  unfold comboSplitPoint
  split_ifs <;> omega

/-- **`fragment_for`** splits where the set asks for it and there are two bytes. -/
theorem fragmentFor_runs (h : pkt.Coherent) (hsi : pkt.raw.length < 65536) (set : B4Set) :
    Runs (fragmentFor set pkt) False fun o => (o = none ↔ ¬Fragments set pkt) ∧
      ∀ f1 f2, o = some (f1, f2) → ∃ n < pkt.payload.length, ∃ first,
        TcpPacket.parse f1 = .ok (some first) ∧ first.payload = pkt.payload.take n := by
  unfold fragmentFor
  by_cases hw : set.wantsTcp = false
  · rw [if_pos hw]
    exact runs_ok ⟨by simp_all [Fragments, B4Set.wantsTcp], by simp⟩
  rw [if_neg hw]
  by_cases hp : set.fragmentation.strategy ≠ "combo" ∧ set.fragmentation.strategy ≠ "disorder"
  · rw [if_pos hp]
    exact runs_ok ⟨by simp [Fragments, hp], by simp⟩
  rw [if_neg hp, tcpPayload_eq h, ok_bind]
  by_cases hs : pkt.payload.isEmpty ∨ pkt.payload.length < 2
  · rw [if_pos hs]
    refine runs_ok ⟨iff_of_true rfl fun hf => ?_, by simp⟩
    rcases hs with he | hs
    · have hl := hf.2.2
      rw [List.isEmpty_iff.1 he] at hl
      simp at hl
    · exact absurd hf.2.2 (by omega)
  rw [if_neg hs]
  have hl : 2 ≤ pkt.payload.length := by
    by_cases hl : 2 ≤ pkt.payload.length
    · exact hl
    · exact absurd (.inr (Nat.not_le.1 hl)) hs
  obtain ⟨hpo, hlt⟩ := comboSplitPoint_bounds set.fragmentation.combo hl
  rw [if_neg (by omega)]
  refine (fragmentTcpPayload_runs h hsi _).imp Iff.rfl ?_
  rintro o - ⟨hn, hfi⟩
  have hfr : Fragments set pkt := by
    refine ⟨by simpa [B4Set.wantsTcp] using hw, ?_, hl⟩
    tauto
  refine ⟨?_, fun f1 f2 ho => ⟨_, hlt, hfi f1 f2 ho⟩⟩
  rw [hn]
  exact iff_of_false (by omega) (not_not.2 hfr)

/-- One strategy, the profile path, or the planes of a set. -/
inductive Produced (pkt : TcpPacket) (out : Bytes) : Prop
  | mutate (strat : Strategy) (h : strat.mutate pkt = .ok (some out))
  | profile (strategies : List Strategy) (h : applyProfile strategies pkt = .ok (some out))
  | set (set : B4Set) (isSyn isFirstSeg : Bool)
      (h : applyTcp set pkt isSyn isFirstSeg = .ok (.mutated out))

theorem Produced.replaces (h : pkt.Coherent) (hs : pkt.raw.length < 65536) {out : Bytes}
    (ho : Produced pkt out) : Replaces pkt out := by
  cases ho with
  | mutate strat hm => exact ((strat.mutate_runs h hs).of_ok hm).2 out rfl
  | profile strategies hp =>
    exact ((applyProfile_runs h hs strategies).of_ok hp).2 out rfl
  | set set isSyn isFirstSeg hse =>
    obtain ⟨-, hpa | ⟨bytes, hb, hr⟩⟩ :=
      (applyTcp_runs h hs set isSyn isFirstSeg).of_ok hse
    · cases hpa
    · cases hb
      exact hr

/-- **Checksums of a mutated packet.** Both are correct exactly when the TCP checksum field was one
of the two zeros of one's complement: `fix_tcp_checksum` adds up the old checksum too. -/
theorem checksums_correct_iff {raw out : Bytes} {pkt : TcpPacket}
    (hparse : TcpPacket.parse raw = .ok (some pkt)) (htotal : raw.length = pkt.ipTotalLen)
    (hout : Produced pkt out) :
    (IpChecksumOk out ∧ TcpChecksumOk out) ↔ pkt.tcpChecksum = 0 ∨ pkt.tcpChecksum = 0xffff := by
  obtain ⟨ht, rfl⟩ := parse_eq_some.1 hparse
  have hc := coherent_ofRaw ht
  have hw : raw.length = wordAt raw 2 := htotal
  have hlt := wordAt_lt raw 2
  have hr := hout.replaces hc (by rw [← hw] at hlt; exact hlt)
  have hf : (TcpPacket.ofRaw raw).tcpChecksum < 65536 := wordAt_lt _ _
  rw [and_iff_right hr.ipChecksum, hr.tcpChecksum hw.symm]
  omega

def synPacket (seq checksum : ℕ) : Bytes :=
  [0x45, 0, 0, 40, 0, 0, 0x40, 0, 64, 6, 0x26, 0xce, 10, 0, 0, 1, 10, 0, 0, 2,
    0x30, 0x39, 0x01, 0xbb, 0, 0] ++ be16Bytes seq ++
    [0, 0, 0, 0, 0x50, 0x02, 0xff, 0xff] ++ be16Bytes checksum ++ [0, 0]

theorem checksums_correct_zero_field :
    ∃ pkt out, TcpPacket.parse (synPacket 0x69ec 0) = .ok (some pkt) ∧
      (Strategy.ttl 61).mutate pkt = .ok (some out) ∧ IpChecksumOk out ∧ TcpChecksumOk out := by
  have hp :
      TcpPacket.parse (synPacket 0x69ec 0) = .ok (some (.ofRaw (synPacket 0x69ec 0))) := by
    decide +kernel
  have hm : (Strategy.ttl 61).mutate (.ofRaw (synPacket 0x69ec 0)) =
      .ok (some (patch (synPacket 0x69ec 0) 8 [61, 6, 0x29, 0xce])) := by decide +kernel
  have hc := (checksums_correct_iff hp (by decide +kernel) (.mutate (.ttl 61) hm)).2
    (.inl (by decide +kernel))
  exact ⟨_, _, hp, hm, hc⟩

/-- A SYN with correct checksums, and another TTL: the TCP checksum no longer is. -/
theorem ttl_breaks_checksum : ∃ pkt out, TcpPacket.parse (synPacket 1 0x69eb) = .ok (some pkt) ∧
      (synPacket 1 0x69eb).length = pkt.ipTotalLen ∧ IpChecksumOk (synPacket 1 0x69eb) ∧
      TcpChecksumOk (synPacket 1 0x69eb) ∧ (Strategy.ttl 61).mutate pkt = .ok (some out) ∧
      ¬TcpChecksumOk out := by
  refine ⟨.ofRaw (synPacket 1 0x69eb), patch (patch (synPacket 1 0x69eb) 8 [61, 6, 0x29, 0xce]) 36
    [0, 0], ?_, ?_, ?_, ?_, ?_, ?_⟩ <;> decide +kernel

end BalanSir.B4
