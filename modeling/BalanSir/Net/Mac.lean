/-
# MAC addresses

`validate_mac` and `format_mac`.
-/

import BalanSir.Lib.Split
import BalanSir.Lib.Text
import BalanSir.Net.Addr
import Mathlib.Data.List.Forall2

namespace BalanSir.Net

open Lib List

def fromHex (bound : ℕ) (text : Text) : Option ℕ :=
  let digits := if startsWith text ['+'] then text.drop 1 else text
  match readDigits 16 0 0 digits with
  | (value, count, []) => if 0 < count ∧ value < bound then some value else none
  | _ => none

def u8OfHex (text : Text) : Option UInt8 := (fromHex 256 text).map UInt8.ofNat

def hexByte (b : UInt8) : Text := [(b.toNat / 16).digitChar, (b.toNat % 16).digitChar]

def macText (bytes : List UInt8) : Text := List.intercalate [':'] (bytes.map hexByte)

def formatMac (bytes : List UInt8) : Option Text :=
  if bytes.length ≠ 6 then none else some (macText bytes)

def macParts (input : Text) : List Text :=
  ((input.filter fun c => isAsciiHexdigit c || c = ':' || c = '-').splitOnP
    fun c => c = ':' || c = '-').filter fun part => !part.isEmpty

def validateMac (input : Text) : Option Text :=
  let parts := macParts input
  if parts.length ≠ 6 ∨ parts.any fun part => 2 < part.length then none
  else match parts.mapM u8OfHex with
    | none => none
    | some bytes => if bytes.getD 0 0 &&& 0x01 ≠ 0 then none else some (macText bytes)

def macBytes (mac : Text) : List UInt8 := (mac.splitOn ':').filterMap u8OfHex

theorem toDigit_hex {d : ℕ} (hd : d < 16) : toDigit 16 d.digitChar = some d := by
  have ha : ∀ d < 16, toDigit 16 d.digitChar = some d := by decide
  exact ha d hd

/-- A group of one or two hexadecimal digits and the octet that it stands for. -/
inductive HexOctet : Text → UInt8 → Prop
  | one {c : Char} {low : ℕ} (hlow : toDigit 16 c = some low) : HexOctet [c] (UInt8.ofNat low)
  | two {c c' : Char} {high low : ℕ} (hhigh : toDigit 16 c = some high)
      (hlow : toDigit 16 c' = some low) : HexOctet [c, c'] (UInt8.ofNat (high * 16 + low))

variable {c : Char}

theorem toDigit_lt {radix d : ℕ} (h : toDigit radix c = some d) : d < radix :=
  of_decide_eq_true (Option.filter_eq_some_iff.1 h).2

theorem u8OfHex_of_read {rest : Text} {d n count : ℕ} (hc : toDigit 16 c = some d)
    (hr : readDigits 16 0 0 (c :: rest) = (n, count, [])) (hco : 0 < count) (hn : n < 256) :
    u8OfHex (c :: rest) = some (UInt8.ofNat n) := by
  have hne : '+' ≠ c := by
    rintro rfl
    cases hc
  have hp : startsWith (c :: rest) ['+'] = false := by
    show ('+' == c && _) = false
    rw [beq_false_of_ne hne, Bool.false_and]
  unfold u8OfHex fromHex
  dsimp only
  rw [hp, if_neg Bool.false_ne_true, hr]
  dsimp only
  rw [if_pos ⟨hco, hn⟩, Option.map_some]

theorem HexOctet.u8OfHex_eq {g : Text} {b : UInt8} (h : HexOctet g b) : u8OfHex g = some b := by
  cases h with
  | one hl =>
    have hlt := toDigit_lt hl
    exact u8OfHex_of_read hl (by simp [readDigits, hl]) Nat.one_pos (by omega)
  | two hh hl =>
    have hlt := toDigit_lt hh
    have hlt' := toDigit_lt hl
    exact u8OfHex_of_read hh (by simp [readDigits, hh, hl]) Nat.two_pos (by omega)

theorem hexOctet_hexByte (b : UInt8) : HexOctet (hexByte b) b := by
  have hb := b.toNat_lt
  have h := HexOctet.two (toDigit_hex (show b.toNat / 16 < 16 by omega))
    (toDigit_hex (Nat.mod_lt b.toNat (by decide : 0 < 16)))
  rwa [Nat.div_add_mod', UInt8.ofNat_toNat] at h

theorem u8OfHex_hexByte (b : UInt8) : u8OfHex (hexByte b) = some b :=
  (hexOctet_hexByte b).u8OfHex_eq

/-- **What is written is read back.** -/
theorem macBytes_macText {bytes : List UInt8} (hb : bytes ≠ []) :
    macBytes (macText bytes) = bytes := by
  have hc : ∀ part ∈ bytes.map hexByte, ':' ∉ part := by
    intro part hp
    obtain ⟨b, -, rfl⟩ := List.mem_map.1 hp
    have hbo := b.toNat_lt
    simp [hexByte]
  rw [macBytes, macText, splitOn_intercalate ':' hc (by simpa using hb), filterMap_map]
  have hr : u8OfHex ∘ hexByte = some := funext u8OfHex_hexByte
  rw [hr, filterMap_some]

theorem exists_toDigit (h : isAsciiHexdigit c) : ∃ d, toDigit 16 c = some d := by
  have ha : c.toNat < 128 := by
    simp only [isAsciiHexdigit, Bool.or_eq_true, Bool.and_eq_true, decide_eq_true_iff] at h
    obtain (⟨-, hle⟩ | ⟨-, hle⟩) | ⟨-, hle⟩ := h
    all_goals exact Nat.lt_of_le_of_lt (show c.toNat ≤ _ from hle) (by decide)
  exact Option.isSome_iff_exists.1 (forall_ascii
    (p := fun c => isAsciiHexdigit c → (toDigit 16 c).isSome) (by decide) c ha h)

theorem exists_hexOctet {g : Text} (hne : g ≠ []) (hl : g.length ≤ 2)
    (hh : ∀ c ∈ g, isAsciiHexdigit c) : ∃ b, HexOctet g b := by
  match g, hne, hl, hh with
  | [c], _, _, hh =>
    obtain ⟨d, hd⟩ := exists_toDigit (hh c mem_cons_self)
    exact ⟨_, .one hd⟩
  | [c, c'], _, _, hh =>
    obtain ⟨d, hd⟩ := exists_toDigit (hh c mem_cons_self)
    obtain ⟨d', hd'⟩ := exists_toDigit (hh c' (mem_cons_of_mem c mem_cons_self))
    exact ⟨_, .two hd hd'⟩

variable {octets : List UInt8}

theorem mapM_u8OfHex {groups : List Text} (h : Forall₂ HexOctet groups octets) :
    groups.mapM u8OfHex = some octets ∧ ∀ g ∈ groups, g.length ≤ 2 := by
  induction h with
  | nil => exact ⟨rfl, by simp⟩
  | cons ho _ ih =>
    refine ⟨?_, forall_mem_cons.2 ⟨?_, ih.2⟩⟩
    · rw [mapM_cons, ho.u8OfHex_eq, ih.1]
      rfl
    · cases ho
      · exact Nat.le_succ 1
      · exact le_rfl

def IsMac (input : Text) (octets : List UInt8) : Prop :=
  ∃ groups, Grouped (fun c => c = ':' || c = '-')
      (input.filter fun c => isAsciiHexdigit c || c = ':' || c = '-') groups ∧
    Forall₂ HexOctet groups octets ∧ octets.length = 6 ∧ (octets.getD 0 0).toNat % 2 = 0

theorem exists_octets {input : Text} (h : ∀ part ∈ macParts input, part.length ≤ 2) :
    ∃ octets, Forall₂ HexOctet (macParts input) octets := by
  have hg := grouped_iff.2 (Eq.refl (macParts input))
  have hpa (part : Text) (hm : part ∈ macParts input) : ∃ b, HexOctet part b := by
    obtain ⟨hne, hch⟩ := hg.of_mem part hm
    refine exists_hexOctet hne (h part hm) fun c hc => ?_
    obtain ⟨hk, hs⟩ := hch c hc
    have hk := (mem_filter.1 hk).2
    rw [Bool.or_assoc, hs, Bool.or_false] at hk
    exact hk
  generalize macParts input = parts at hpa
  induction parts with
  | nil => exact ⟨[], .nil⟩
  | cons part parts ih =>
    obtain ⟨b, hb⟩ := hpa part mem_cons_self
    obtain ⟨bs, hbs⟩ := ih fun p hp => hpa p (mem_cons_of_mem part hp)
    exact ⟨b :: bs, .cons hb hbs⟩

theorem and_one_ne_zero_iff (b : UInt8) : b &&& 0x01 ≠ 0 ↔ b.toNat % 2 ≠ 0 := by
  rw [Ne, ← UInt8.toNat_inj]
  exact not_congr (by rw [UInt8.toNat_ofNat]; simp)

variable {input mac : Text}

theorem validateMac_eq_some :
    validateMac input = some mac ↔ ∃ octets, IsMac input octets ∧ mac = macText octets := by
  constructor
  · intro h
    unfold validateMac at h
    dsimp only at h
    split_ifs at h with hp
    obtain ⟨hs, hl⟩ := not_or.1 hp
    obtain ⟨octets, ho⟩ := @exists_octets input (by simpa using hl)
    rw [(mapM_u8OfHex ho).1] at h
    dsimp only at h
    split_ifs at h with hod
    cases h
    refine ⟨octets, ⟨macParts input, grouped_iff.2 rfl, ho, ?_, ?_⟩, rfl⟩
    · rw [← ho.length_eq]
      exact not_not.1 hs
    · exact not_not.1 (mt (and_one_ne_zero_iff _).2 hod)
  · rintro ⟨octets, ⟨groups, hg, ho, hs, he⟩, rfl⟩
    have hp : macParts input = groups := hg.filter_splitOnP
    obtain ⟨hr, hl⟩ := mapM_u8OfHex ho
    have hl : ¬groups.any fun part => 2 < part.length := by simpa using hl
    unfold validateMac
    rw [hp, if_neg (not_or.2 ⟨not_not.2 (ho.length_eq.trans hs), hl⟩), hr]
    dsimp only
    rw [if_neg (mt (and_one_ne_zero_iff _).1 (not_not.2 he))]

theorem exists_of_validateMac (h : validateMac input = some mac) :
    ∃ bytes : List UInt8, bytes.length = 6 ∧ mac = macText bytes := by
  obtain ⟨octets, ⟨_, _, _, hs, _⟩, hm⟩ := validateMac_eq_some.1 h
  exact ⟨octets, hs, hm⟩

theorem isMac_macText (hs : octets.length = 6)
    (he : (octets.getD 0 0).toNat % 2 = 0) : IsMac (macText octets) octets := by
  have hd (b : UInt8) (c : Char) (hc : c ∈ hexByte b) :
      isAsciiHexdigit c = true ∧ (c = ':' || c = '-') = false := by
    have ha : ∀ d < 16, isAsciiHexdigit d.digitChar = true ∧
        (d.digitChar = ':' || d.digitChar = '-') = false := by decide
    have hb := b.toNat_lt
    obtain rfl | hc := mem_cons.1 hc
    · exact ha _ (by omega)
    · rw [mem_singleton.1 hc]
      exact ha _ (by omega)
  have hk : (macText octets).filter (fun c => isAsciiHexdigit c || c = ':' || c = '-') =
      macText octets := by
    refine filter_eq_self.2 ((forall_mem_intercalate (by decide) _).2 fun g hg c hc => ?_)
    obtain ⟨b, -, rfl⟩ := List.mem_map.1 hg
    rw [(hd b c hc).1, Bool.true_or, Bool.true_or]
  refine ⟨octets.map hexByte, ?_, ?_, hs, he⟩
  · rw [hk]
    refine grouped_intercalate (by decide) fun g hg => ?_
    obtain ⟨b, -, rfl⟩ := List.mem_map.1 hg
    exact ⟨cons_ne_nil _ _, fun c hc => (hd b c hc).2⟩
  · rw [forall₂_map_left_iff]
    exact forall₂_same.2 fun b _ => hexOctet_hexByte b

/-- **What is accepted as a MAC address**, and what comes of it: the canonical form of its octets,
which is accepted as it is. -/
theorem validateMac_accepts (input : Text) : (∀ mac, validateMac input = some mac ↔
      ∃ octets, IsMac input octets ∧ mac = macText octets) ∧
    (validateMac input).bind validateMac = validateMac input := by
  refine ⟨fun mac => validateMac_eq_some, ?_⟩
  cases h : validateMac input with
  | none => rfl
  | some mac =>
    obtain ⟨octets, ⟨_, _, _, hs, he⟩, rfl⟩ := validateMac_eq_some.1 h
    exact validateMac_eq_some.2 ⟨octets, isMac_macText hs he, rfl⟩

/-- Other characters and empty groups are passed over. -/
theorem validateMac_junk :
    validateMac "zz00::11:22:33:44:55".toList = some "00:11:22:33:44:55".toList := by
  decide

end BalanSir.Net
