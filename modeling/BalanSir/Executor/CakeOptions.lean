/-
# CAKE's options as the kernel dumps them

`scan_cake_base_rate` looks for the rate of a CAKE qdisc among its netlink attributes.
-/

import BalanSir.Executor.Qdisc
import Mathlib.Algebra.Group.Nat.Defs

namespace BalanSir.Executor

open List

open Lib (leBytes ofLeBytes)

/-- An attribute in a chain, padded to four bytes. -/
structure CakeAttr where
  kind : UInt16
  payload : List UInt8
  pad : List UInt8
  fits : payload.length + 4 < 65536
  aligned : pad.length = (payload.length + 3) / 4 * 4 - payload.length

namespace CakeAttr

def bytes (a : CakeAttr) : List UInt8 :=
  leBytes 2 (a.payload.length + 4) ++ (leBytes 2 a.kind.toNat ++ (a.payload ++ a.pad))

theorem length_bytes (a : CakeAttr) : a.bytes.length = (a.payload.length + 4 + 3) / 4 * 4 := by
  have ha := a.aligned
  simp only [bytes, length_append, Lib.length_leBytes]
  omega

end CakeAttr

def chain (attrs : List CakeAttr) : List UInt8 := attrs.flatMap CakeAttr.bytes

theorem chain_cons (a : CakeAttr) (attrs : List CakeAttr) :
    chain (a :: attrs) = a.bytes ++ chain attrs := flatMap_cons

theorem chain_append (as bs : List CakeAttr) : chain (as ++ bs) = chain as ++ chain bs :=
  flatMap_append

def BlobScan.ofPayload (payload : List UInt8) : BlobScan :=
  match rateFromLe payload with
  | some r => .rate r
  | none => .noRate

def scanAttrs : ℕ → List CakeAttr → BlobScan
  | off, [] => .endAt off
  | off, a :: attrs =>
    if a.payload.length < 8 then .endAt off
    else if a.kind = 2 then .ofPayload a.payload
    else scanAttrs (off + a.bytes.length) attrs

theorem ofLeBytes_two {n : ℕ} (h : n < 65536) (rest : List UInt8) :
    ofLeBytes ((leBytes 2 n ++ rest).take 2) = n := by
  rw [take_left' (Lib.length_leBytes ..)]
  refine Lib.ofLeBytes_leBytes ?_
  omega

theorem read_attr (done rest : List UInt8) (a : CakeAttr) :
    ofLeBytes (((done ++ (a.bytes ++ rest)).drop done.length).take 2) = a.payload.length + 4 ∧
    ofLeBytes (((done ++ (a.bytes ++ rest)).drop (done.length + 2)).take 2) = a.kind.toNat ∧
    ((done ++ (a.bytes ++ rest)).drop (done.length + 4)).take (a.payload.length + 4 - 4) =
      a.payload := by
  have hh : ∀ xs : List UInt8, (leBytes 2 (a.payload.length + 4) ++
      (leBytes 2 a.kind.toNat ++ xs)).drop 4 = xs := by
    intro xs
    rw [← append_assoc]
    exact drop_left' (by simp)
  simp only [CakeAttr.bytes, append_assoc, drop_length_add_append, drop_left,
    hh, Nat.add_sub_cancel, take_left, and_true]
  refine ⟨ofLeBytes_two a.fits _, ?_⟩
  rw [drop_left' (Lib.length_leBytes ..), ofLeBytes_two a.kind.toNat_lt]

theorem scanFrom_attr (done rest : List UInt8) (a : CakeAttr) (fuel : ℕ) :
    scanFrom (done ++ (a.bytes ++ rest)) (fuel + 1) done.length =
      if a.payload.length < 8 then .endAt done.length
      else if a.kind = 2 then .ofPayload a.payload
      else scanFrom (done ++ (a.bytes ++ rest)) fuel (done.length + a.bytes.length) := by
  obtain ⟨hl, hk, hp⟩ := read_attr done rest a
  have hb := a.length_bytes
  have ht : (done ++ (a.bytes ++ rest)).length =
      done.length + (a.bytes.length + rest.length) := by
    rw [length_append, length_append]
  have hk2 : a.kind.toNat = 2 ↔ a.kind = 2 := by
    rw [← UInt16.toNat_inj]
    rfl
  rw [scanFrom, if_pos (by omega)]
  dsimp only
  rw [hl, hk, hp]
  by_cases hs : a.payload.length < 8
  · rw [if_pos (by omega), if_pos hs]
  · rw [if_neg (by omega), if_neg hs]
    by_cases hr : a.kind = 2
    · rw [if_pos ⟨hk2.2 hr, by omega⟩, if_pos hr]
      rfl
    · rw [if_neg (fun h => hr (hk2.1 h.1)), if_neg hr, hb]

/-- **The loop over offsets is the scan over the attributes.** -/
theorem scanFrom_chain (attrs : List CakeAttr) (done : List UInt8) {fuel : ℕ}
    (hf : (chain attrs).length < fuel) :
    scanFrom (done ++ chain attrs) fuel done.length = scanAttrs done.length attrs := by
  induction attrs generalizing done fuel with
  | nil =>
    obtain ⟨n, rfl⟩ := Nat.exists_eq_add_of_lt hf
    rw [scanFrom, if_neg]
    · rfl
    · simp [chain]
  | cons a attrs ih =>
    have hb := a.length_bytes
    rw [chain_cons, length_append] at hf
    obtain ⟨n, rfl⟩ := Nat.exists_eq_add_of_lt hf
    have hl : (chain attrs).length < a.bytes.length + (chain attrs).length + n := by omega
    have hr := ih (done ++ a.bytes) hl
    rw [append_assoc, length_append] at hr
    rw [chain_cons, scanFrom_attr, scanAttrs, hr]

theorem scanCakeBaseRate_chain (attrs : List CakeAttr) :
    scanCakeBaseRate (chain attrs) = scanAttrs 0 attrs :=
  scanFrom_chain attrs [] (Nat.lt_succ_self _)

theorem scanAttrs_append {before : List CakeAttr} (hl : ∀ a ∈ before, 8 ≤ a.payload.length)
    (hk : ∀ a ∈ before, a.kind ≠ 2) (off : ℕ) (attrs : List CakeAttr) :
    scanAttrs off (before ++ attrs) = scanAttrs (off + (chain before).length) attrs := by
  induction before generalizing off with
  | nil => rfl
  | cons a before ih =>
    rw [forall_mem_cons] at hl hk
    rw [cons_append, scanAttrs, if_neg (by omega), if_neg hk.1, ih hl.2 hk.2,
      chain_cons, length_append, Nat.add_assoc]

def baseRate (r : ℕ) : CakeAttr where
  kind := 2
  payload := leBytes 8 r
  pad := []
  fits := by rw [Lib.length_leBytes]; omega
  aligned := by rw [Lib.length_leBytes]; rfl

variable {r : ℕ}

theorem rateFromLe_eq_some_iff (hp : 0 < r) (hr : r < 2 ^ 61) (bytes : List UInt8) :
    rateFromLe bytes = some (UInt64.ofNat (8 * r)) ↔ ofLeBytes (bytes.take 8) = r := by
  have hs : UInt64.size - 1 = 18446744073709551615 := rfl
  generalize hn : ofLeBytes (bytes.take 8) = n
  have hb : UInt64.ofNat (min (n * 8) (UInt64.size - 1)) = UInt64.ofNat (8 * r) ↔ n = r := by
    rw [← UInt64.toNat_inj, UInt64.toNat_ofNat', UInt64.toNat_ofNat']
    omega
  rw [rateFromLe, hn]
  split_ifs with hz
  · rw [Option.some.injEq, hb]
  · refine iff_of_false not_false ?_
    omega

theorem ofPayload_baseRate (hp : 0 < r) (hr : r < 2 ^ 61) :
    BlobScan.ofPayload (baseRate r).payload = .rate (UInt64.ofNat (8 * r)) := by
  have hre : rateFromLe (leBytes 8 r) = some (UInt64.ofNat (8 * r)) := by
    rw [rateFromLe_eq_some_iff hp hr, take_of_length_le (by simp)]
    refine Lib.ofLeBytes_leBytes ?_
    omega
  show BlobScan.ofPayload (leBytes 8 r) = _
  rw [BlobScan.ofPayload, hre]

theorem cakeBandwidthOf_kinds (names : List String) (attributes : List TcAttribute) :
    cakeBandwidthOf (names.map .kind ++ attributes) = cakeBandwidthOf attributes := by
  induction names with
  | nil => rfl
  | cons name names ih => exact ih

theorem cakeBandwidthOf_chain (names names' : List String) (attrs : List CakeAttr) :
    cakeBandwidthOf (names.map .kind ++ .options [.other 2 (chain attrs)] :: names'.map .kind) =
      (match scanAttrs 0 attrs with
        | .rate rate => some rate
        | .noRate => none
        | .notABlob =>
          if (chain attrs).length ≥ 8 then rateFromLe ((chain attrs).take 8) else none) := by
  have hr : cakeBandwidthOf (names'.map .kind) = none := by
    rw [← append_nil (names'.map _), cakeBandwidthOf_kinds]
    rfl
  rw [cakeBandwidthOf_kinds, cakeBandwidthOf, hr, bandwidthIn, if_neg (by decide),
    scanCakeBaseRate_chain]
  cases scanAttrs 0 attrs with
  | rate rate => rfl
  | noRate => rfl
  | notABlob =>
    split_ifs
    · rfl
    · rfl

theorem long_or_split (attrs : List CakeAttr) : (∀ a ∈ attrs, 8 ≤ a.payload.length) ∨
      ∃ before a after, attrs = before ++ a :: after ∧ a.payload.length < 8 ∧
        ∀ b ∈ before, 8 ≤ b.payload.length := by
  induction attrs with
  | nil => exact .inl (by simp)
  | cons a attrs ih =>
    by_cases hs : a.payload.length < 8
    · exact .inr ⟨[], a, attrs, rfl, hs, by simp⟩
    · rcases ih with hl | ⟨before, b, after, rfl, hb, hbe⟩
      · exact .inl (List.forall_mem_cons.2 ⟨by omega, hl⟩)
      · exact .inr ⟨a :: before, b, after, rfl, hb, List.forall_mem_cons.2 ⟨by omega, hbe⟩⟩

/-- **When the rate of a dumped chain is found:** when no attribute before it has a payload of fewer
than eight bytes; or the first has, and the first eight bytes happen to be the rate. -/
theorem cakeBandwidthOf_chain_iff (names names' : List String) {before after : List CakeAttr}
    (hbefore : ∀ a ∈ before, a.kind ≠ 2) (hpos : 0 < r) (hr : r < 2 ^ 61) :
    cakeBandwidthOf (names.map .kind ++
        .options [.other 2 (chain (before ++ baseRate r :: after))] :: names'.map .kind) =
        some (UInt64.ofNat (8 * r)) ↔ (∀ a ∈ before, 8 ≤ a.payload.length) ∨
        (∃ first ∈ before.head?, first.payload.length < 8) ∧
          ofLeBytes ((chain (before ++ baseRate r :: after)).take 8) = r := by
  rw [cakeBandwidthOf_chain]
  rcases long_or_split before with hl | ⟨pre, a, post, rfl, hs, hp⟩
  · -- the scan gets to the rate
    have hra : (baseRate r).payload.length = 8 := Lib.length_leBytes ..
    have hk : (baseRate r).kind = 2 := rfl
    rw [scanAttrs_append hl hbefore, scanAttrs, if_neg (by omega), if_pos hk,
      ofPayload_baseRate hpos hr]
    exact iff_of_true rfl (.inl hl)
  · have hn : ¬∀ b ∈ pre ++ a :: post, 8 ≤ b.payload.length := fun h =>
      absurd (h a (by simp)) (by omega)
    have hsc : scanAttrs 0 (pre ++ a :: post ++ baseRate r :: after) =
        .endAt (chain pre).length := by
      rw [append_assoc, scanAttrs_append hp fun b hb => hbefore b (by simp [hb]),
        cons_append, scanAttrs, if_pos hs, Nat.zero_add]
    rw [hsc, or_iff_right hn]
    rcases pre with _ | ⟨b, pre⟩
    · -- it stops at the first attribute, and the first eight bytes are read
      have hle : (chain ([] ++ a :: post ++ baseRate r :: after)).length ≥ 8 := by
        have := (baseRate r).length_bytes
        simp only [chain_append, chain_cons, length_append, this]
        simp [baseRate]
        omega
      show (if _ then _ else _) = _ ↔ _
      rw [if_pos hle, rateFromLe_eq_some_iff hpos hr, take_take]
      exact (and_iff_right ⟨a, rfl, hs⟩).symm
    · -- it stops later, and there is no rate
      have he : BlobScan.endAt (chain (b :: pre)).length = .noRate := by
        have := b.length_bytes
        refine if_neg ?_
        rw [chain_cons, length_append]
        omega
      refine iff_of_false nofun ?_
      rintro ⟨⟨first, hf, hlt⟩, -⟩
      cases hf
      exact absurd (hp b mem_cons_self) (by omega)

def u32Attr (kind : UInt16) (value : UInt32) : CakeAttr where
  kind := kind
  payload := u32Bytes value
  pad := []
  fits := by simp [u32Bytes]
  aligned := by simp [u32Bytes]

/-- 20 Mbit/s behind an attribute of eight bytes and before the others. -/
theorem rate_behind_wide_found : cakeBandwidthOf [.kind "cake", .options [.other 2
      (chain ([{ baseRate 1 with kind := 15 }] ++
        baseRate 2500000 :: [u32Attr 7 100000, u32Attr 13 1]))]] = some 20000000 :=
  (cakeBandwidthOf_chain_iff ["cake"] [] (by simp) (by decide) (by decide)).2
    (.inl (by simp [baseRate]))

/-- The same with one of them in front: its length, number and value are taken for the rate. -/
theorem rate_second_misread : cakeBandwidthOf [.kind "cake", .options [.other 2
      (chain [u32Attr 7 100000, baseRate 2500000, u32Attr 13 1])]] = some 3435973840470080 ∧
      (3435973840470080 : UInt64) ≠ 8 * 2500000 := by
  decide +kernel

end BalanSir.Executor
