/-
# UTF-8

Encoding, and decoding with replacement characters.
-/

import BalanSir.Lib.Text

namespace BalanSir.Lib

open List

def encode (text : Text) : List UInt8 := text.flatMap String.utf8EncodeChar

def decodeUtf8 (bytes : List UInt8) : Option Text :=
  (String.fromUTF8? bytes.toByteArray).map String.toList

theorem decodeUtf8_encode (text : Text) : decodeUtf8 (encode text) = some text := by
  have hv : (encode text).toByteArray.IsValidUTF8 := (String.ofList text).isValidUTF8
  have hs : String.fromUTF8? (encode text).toByteArray = some (String.ofList text) :=
    dif_pos hv
  rw [decodeUtf8, hs, Option.map_some, String.toList_ofList]

variable {bytes : List UInt8}

theorem encode_of_decodeUtf8 {text : Text} (h : decodeUtf8 bytes = some text) :
    encode text = bytes := by
  rw [decodeUtf8, Option.map_eq_some_iff] at h
  obtain ⟨s, hs, rfl⟩ := h
  unfold String.fromUTF8? at hs
  split_ifs at hs with hv
  obtain rfl := Option.some.inj hs
  have ha : (encode (String.fromUTF8 bytes.toByteArray hv).toList).toByteArray =
      bytes.toByteArray :=
    congrArg String.toByteArray (String.ofList_toList (s := String.fromUTF8 _ hv))
  have hl := congrArg (fun array => array.data.toList) ha
  simpa using hl

def byteLen (text : Text) : ℕ := text.foldl (fun n c => n + c.utf8Size) 0

def isContinuation (b : UInt8) : Bool := b &&& 0xC0 == 0x80

def isSecondOfThree (b c : UInt8) : Bool :=
  (b == 0xE0 && 0xA0 ≤ c && c ≤ 0xBF) || (0xE1 ≤ b && b ≤ 0xEC && 0x80 ≤ c && c ≤ 0xBF) ||
    (b == 0xED && 0x80 ≤ c && c ≤ 0x9F) || (0xEE ≤ b && b ≤ 0xEF && 0x80 ≤ c && c ≤ 0xBF)

def isSecondOfFour (b c : UInt8) : Bool :=
  (b == 0xF0 && 0x90 ≤ c && c ≤ 0xBF) || (0xF1 ≤ b && b ≤ 0xF3 && 0x80 ≤ c && c ≤ 0xBF) ||
    (b == 0xF4 && 0x80 ≤ c && c ≤ 0x8F)

def replacement : Char := Char.ofNat 0xFFFD

def charOf (first : ℕ) (rest : List UInt8) : Char :=
  Char.ofNat (rest.foldl (fun n b => n * 64 + b.toNat % 64) first)

def decodeLossy : List UInt8 → Text
  | [] => []
  | b :: rest =>
    if b < 0x80 then charOf b.toNat [] :: decodeLossy rest
    else if 0xC2 ≤ b ∧ b ≤ 0xDF then
      match rest with
      | c :: rest' =>
        if isContinuation c then charOf (b.toNat % 32) [c] :: decodeLossy rest'
        else replacement :: decodeLossy (c :: rest')
      | [] => [replacement]
    else if 0xE0 ≤ b ∧ b ≤ 0xEF then
      match rest with
      | c :: d :: rest' =>
        if ¬isSecondOfThree b c then replacement :: decodeLossy (c :: d :: rest')
        else if ¬isContinuation d then replacement :: decodeLossy (d :: rest')
        else charOf (b.toNat % 16) [c, d] :: decodeLossy rest'
      | [c] => if isSecondOfThree b c then [replacement] else replacement :: decodeLossy [c]
      | [] => [replacement]
    else if 0xF0 ≤ b ∧ b ≤ 0xF4 then
      match rest with
      | c :: d :: e :: rest' =>
        if ¬isSecondOfFour b c then replacement :: decodeLossy (c :: d :: e :: rest')
        else if ¬isContinuation d then replacement :: decodeLossy (d :: e :: rest')
        else if ¬isContinuation e then replacement :: decodeLossy (e :: rest')
        else charOf (b.toNat % 8) [c, d, e] :: decodeLossy rest'
      | [c, d] =>
        if ¬isSecondOfFour b c then replacement :: decodeLossy [c, d]
        else if ¬isContinuation d then replacement :: decodeLossy [d]
        else [replacement]
      | [c] => if isSecondOfFour b c then [replacement] else replacement :: decodeLossy [c]
      | [] => [replacement]
    else replacement :: decodeLossy rest

def asciiChar (b : UInt8) : Char := Char.ofNat b.toNat

theorem forall_byte {p : UInt8 → Prop} (h : ∀ n < 256, p (UInt8.ofNat n)) (b : UInt8) : p b := by
  rw [← UInt8.ofNat_toNat (x := b)]
  exact h b.toNat b.toNat_lt

theorem toNat_ofNat {n : ℕ} (h : n.isValidChar) : (Char.ofNat n).toNat = n := by
  rw [Char.ofNat, dif_pos h]
  rfl

variable {b : UInt8}

theorem toNat_asciiChar (h : b < 0x80) : (asciiChar b).toNat = b.toNat := by
  exact toNat_ofNat (Or.inl (h.trans (by decide)))

theorem decodeLossy_cons_ascii (h : b < 0x80) (bytes : List UInt8) :
    decodeLossy (b :: bytes) = asciiChar b :: decodeLossy bytes := by
  rw [decodeLossy.eq_def]
  exact if_pos h

theorem decodeLossy_ascii (h : ∀ b ∈ bytes, b < 0x80) :
    decodeLossy bytes = bytes.map asciiChar := by
  induction bytes with
  | nil => rfl
  | cons b bytes ih =>
    rw [forall_mem_cons] at h
    rw [decodeLossy_cons_ascii h.1, ih h.2, map_cons]

theorem utf8Size_asciiChar (h : b < 0x80) : (asciiChar b).utf8Size = 1 := by
  have hv : (asciiChar b).val.toNat = b.toNat := toNat_asciiChar h
  rw [Char.utf8Size_eq_one_iff, UInt32.le_iff_toNat_le, hv]
  exact Nat.le_of_lt_succ (UInt8.lt_iff_toNat_lt.1 h)

theorem byteLen_of_ascii {text : Text} (h : ∀ c ∈ text, c.toNat < 128) :
    byteLen text = text.length := by
  have hf : ∀ n, text.foldl (fun n c => n + c.utf8Size) n = n + text.length := by
    induction text with
    | nil => exact fun n => rfl
    | cons c text ih =>
      intro n
      rw [forall_mem_cons] at h
      have hs : c.utf8Size = 1 := by
        rw [Char.utf8Size_eq_one_iff]
        exact Nat.le_of_lt_succ h.1
      rw [foldl_cons, ih h.2, length_cons]
      omega
  exact (hf 0).trans (Nat.zero_add _)

theorem byteLen_ascii (h : ∀ b ∈ bytes, b < 0x80) :
    byteLen (bytes.map asciiChar) = bytes.length := by
  rw [byteLen_of_ascii, length_map]
  intro c hc
  obtain ⟨b, hb, rfl⟩ := List.mem_map.1 hc
  rw [toNat_asciiChar (h b hb)]
  exact UInt8.lt_iff_toNat_lt.1 (h b hb)

theorem encode_ascii (h : ∀ b ∈ bytes, b < 0x80) : encode (bytes.map asciiChar) = bytes := by
  induction bytes with
  | nil => rfl
  | cons b bytes ih =>
    rw [forall_mem_cons] at h
    have hv : (asciiChar b).val.toNat = b.toNat := toNat_asciiChar h.1
    have hc : String.utf8EncodeChar (asciiChar b) = [b] := by
      rw [String.utf8EncodeChar_eq_singleton (utf8Size_asciiChar h.1)]
      refine congrArg (fun b => [b]) (UInt8.toNat_inj.1 ?_)
      rw [UInt32.toNat_toUInt8, hv]
      exact Nat.mod_eq_of_lt b.toNat_lt
    rw [map_cons, encode, flatMap_cons, hc, ← encode, ih h.2]
    rfl

theorem encode_injective : Function.Injective encode := by
  intro text text' h
  have hd := congrArg decodeUtf8 h
  rw [decodeUtf8_encode, decodeUtf8_encode] at hd
  exact Option.some.inj hd

def NotAscii (c : Char) : Prop := c.toNat = 0 ∨ 128 ≤ c.toNat

theorem notAscii_ofNat {n : ℕ} (h : 128 ≤ n) : NotAscii (Char.ofNat n) := by
  by_cases hv : n.isValidChar
  · exact Or.inr (by rwa [toNat_ofNat hv])
  · left
    rw [Char.ofNat, dif_neg hv]
    rfl

variable {c : UInt8}

theorem le_two_bytes (h : 0xC2 ≤ b ∧ b ≤ 0xDF) : 128 ≤ b.toNat % 32 * 64 + c.toNat % 64 := by
  obtain ⟨hl, hh⟩ : 0xC2 ≤ b.toNat ∧ b.toNat ≤ 0xDF := h
  omega

variable {d : UInt8}

theorem le_three_bytes (hb : 0xE0 ≤ b ∧ b ≤ 0xEF) (hc : isSecondOfThree b c) :
    128 ≤ (b.toNat % 16 * 64 + c.toNat % 64) * 64 + d.toNat % 64 := by
  simp only [isSecondOfThree, Bool.or_eq_true, Bool.and_eq_true, beq_iff_eq, decide_eq_true_eq,
    UInt8.le_iff_toNat_le, ← UInt8.toNat_inj, UInt8.reduceToNat] at hb hc
  omega

theorem le_four_bytes {e : UInt8} (hb : 0xF0 ≤ b ∧ b ≤ 0xF4) (hc : isSecondOfFour b c) :
    128 ≤ ((b.toNat % 8 * 64 + c.toNat % 64) * 64 + d.toNat % 64) * 64 + e.toNat % 64 := by
  simp only [isSecondOfFour, Bool.or_eq_true, Bool.and_eq_true, beq_iff_eq, decide_eq_true_eq,
    UInt8.le_iff_toNat_le, ← UInt8.toNat_inj, UInt8.reduceToNat] at hb hc
  omega

theorem decodeLossy_cons_notAscii (h : ¬b < 0x80) (bytes : List UInt8) :
    ∃ c text, decodeLossy (b :: bytes) = c :: text ∧ NotAscii c := by
  have hr : NotAscii replacement := notAscii_ofNat (by decide)
  rw [decodeLossy.eq_def]
  dsimp only
  rw [if_neg h]
  split_ifs with h₂ h₃ h₄
  · split
    · split_ifs
      · exact ⟨_, _, rfl, notAscii_ofNat (le_two_bytes h₂)⟩
      · exact ⟨_, _, rfl, hr⟩
    · exact ⟨_, _, rfl, hr⟩
  · split
    · split_ifs with hc
      · exact ⟨_, _, rfl, notAscii_ofNat (le_three_bytes h₃ hc)⟩
      · exact ⟨_, _, rfl, hr⟩
      · exact ⟨_, _, rfl, hr⟩
    · split_ifs
      · exact ⟨_, _, rfl, hr⟩
      · exact ⟨_, _, rfl, hr⟩
    · exact ⟨_, _, rfl, hr⟩
  · split
    · split_ifs with hc
      · exact ⟨_, _, rfl, notAscii_ofNat (le_four_bytes h₄ hc)⟩
      · exact ⟨_, _, rfl, hr⟩
      · exact ⟨_, _, rfl, hr⟩
      · exact ⟨_, _, rfl, hr⟩
    · split_ifs
      · exact ⟨_, _, rfl, hr⟩
      · exact ⟨_, _, rfl, hr⟩
      · exact ⟨_, _, rfl, hr⟩
    · split_ifs
      · exact ⟨_, _, rfl, hr⟩
      · exact ⟨_, _, rfl, hr⟩
    · exact ⟨_, _, rfl, hr⟩
  · exact ⟨_, _, rfl, hr⟩

theorem decodeLossy_ne_nil (h : bytes ≠ []) : decodeLossy bytes ≠ [] := by
  obtain ⟨b, rest, rfl⟩ := exists_cons_of_ne_nil h
  by_cases hb : b < 0x80
  · rw [decodeLossy_cons_ascii hb]
    exact cons_ne_nil _ _
  · obtain ⟨c, text, heq, -⟩ := decodeLossy_cons_notAscii hb rest
    rw [heq]
    exact cons_ne_nil _ _

/-- **A property of ASCII characters** holds of what was decoded if all bytes are ASCII and have it.
-/
theorem forall_decodeLossy_iff {p : Char → Prop} (hp : ∀ c, p c → ¬NotAscii c)
    (bytes : List UInt8) :
    (∀ c ∈ decodeLossy bytes, p c) ↔ ∀ b ∈ bytes, b < 0x80 ∧ p (asciiChar b) := by
  induction bytes with
  | nil => exact ⟨fun _ _ h => absurd h not_mem_nil, fun _ _ h => absurd h not_mem_nil⟩
  | cons b bytes ih =>
    by_cases hb : b < 0x80
    · rw [decodeLossy_cons_ascii hb, forall_mem_cons, forall_mem_cons, ih, and_iff_right hb]
    · obtain ⟨c, text, heq, hc⟩ := decodeLossy_cons_notAscii hb bytes
      rw [heq, forall_mem_cons, forall_mem_cons]
      exact iff_of_false (fun h => hp c h.1 hc) fun h => hb h.1.1

theorem not_ascii_of_le {lead : UInt8} (hl : 0x80 ≤ lead) (h : lead ≤ b) : ¬b < 0x80 :=
  fun hb => UInt8.not_lt.2 (UInt8.le_trans hl h) hb

theorem decodeLossy_two (hb : 0xC2 ≤ b ∧ b ≤ 0xDF) (hc : isContinuation c) (rest : List UInt8) :
    decodeLossy (b :: c :: rest) = charOf (b.toNat % 32) [c] :: decodeLossy rest := by
  rw [decodeLossy.eq_def]
  dsimp only
  rw [if_neg (not_ascii_of_le (by decide) hb.1), if_pos hb, if_pos hc]

theorem decodeLossy_three (hb : 0xE0 ≤ b ∧ b ≤ 0xEF) (hc : isSecondOfThree b c)
    (hd : isContinuation d) (rest : List UInt8) :
    decodeLossy (b :: c :: d :: rest) = charOf (b.toNat % 16) [c, d] :: decodeLossy rest := by
  have ht : ¬(0xC2 ≤ b ∧ b ≤ 0xDF) := fun h => absurd (UInt8.le_trans hb.1 h.2) (by decide)
  rw [decodeLossy.eq_def]
  dsimp only
  rw [if_neg (not_ascii_of_le (by decide) hb.1), if_neg ht, if_pos hb, if_neg (not_not.2 hc),
    if_neg (not_not.2 hd)]

theorem decodeLossy_four {e : UInt8} (hb : 0xF0 ≤ b ∧ b ≤ 0xF4) (hc : isSecondOfFour b c)
    (hd : isContinuation d) (he : isContinuation e) (rest : List UInt8) :
    decodeLossy (b :: c :: d :: e :: rest) =
      charOf (b.toNat % 8) [c, d, e] :: decodeLossy rest := by
  have htw : ¬(0xC2 ≤ b ∧ b ≤ 0xDF) := fun h => absurd (UInt8.le_trans hb.1 h.2) (by decide)
  have ht : ¬(0xE0 ≤ b ∧ b ≤ 0xEF) := fun h => absurd (UInt8.le_trans hb.1 h.2) (by decide)
  rw [decodeLossy.eq_def]
  dsimp only
  rw [if_neg (not_ascii_of_le (by decide) hb.1), if_neg htw, if_neg ht, if_pos hb,
    if_neg (not_not.2 hc), if_neg (not_not.2 hd), if_neg (not_not.2 he)]

theorem isContinuation_ofNat (n : ℕ) : isContinuation (UInt8.ofNat (n % 64 + 128)) := by
  have ha : ∀ m < 64, isContinuation (UInt8.ofNat (m + 128)) := by decide
  exact ha _ (Nat.mod_lt _ (by decide))

theorem charOf_eq {first : ℕ} {rest : List UInt8} {c : Char}
    (h : rest.foldl (fun n b => n * 64 + b.toNat % 64) first = c.toNat) :
    charOf first rest = c := by
  rw [charOf, h, Char.ofNat_toNat]

theorem decodeLossy_utf8EncodeChar (c : Char) (rest : List UInt8) :
    decodeLossy (String.utf8EncodeChar c ++ rest) = c :: decodeLossy rest := by
  have hv := c.valid
  have hva : c.val.toNat = c.toNat := rfl
  unfold String.utf8EncodeChar
  simp only [hva]
  split_ifs with h₁ h₂ h₃
  · have hlo : UInt8.ofNat c.toNat < 0x80 := by
      exact Nat.lt_of_le_of_lt (Nat.mod_le _ _) (Nat.lt_succ_of_le h₁)
    rw [singleton_append, decodeLossy_cons_ascii hlo, asciiChar, UInt8.toNat_ofNat',
      Nat.mod_eq_of_lt (by omega), Char.ofNat_toNat]
  · have hl : 0xC2 ≤ UInt8.ofNat (c.toNat / 64 % 32 + 192) ∧
        UInt8.ofNat (c.toNat / 64 % 32 + 192) ≤ 0xDF := by
      simp only [UInt8.le_iff_toNat_le, UInt8.toNat_ofNat', UInt8.reduceToNat]
      omega
    refine (decodeLossy_two hl (isContinuation_ofNat _) rest).trans
      (congrArg (· :: decodeLossy rest) (charOf_eq ?_))
    simp only [foldl_cons, foldl_nil, UInt8.toNat_ofNat']
    omega
  · have hl : 0xE0 ≤ UInt8.ofNat (c.toNat / 4096 % 16 + 224) ∧
        UInt8.ofNat (c.toNat / 4096 % 16 + 224) ≤ 0xEF := by
      simp only [UInt8.le_iff_toNat_le, UInt8.toNat_ofNat', UInt8.reduceToNat]
      omega
    -- the second byte is where an overlong form and a surrogate would show
    have hs : isSecondOfThree (UInt8.ofNat (c.toNat / 4096 % 16 + 224))
        (UInt8.ofNat (c.toNat / 64 % 64 + 128)) := by
      simp only [isSecondOfThree, Bool.or_eq_true, Bool.and_eq_true, beq_iff_eq, decide_eq_true_eq,
        UInt8.le_iff_toNat_le, ← UInt8.toNat_inj, UInt8.toNat_ofNat', UInt8.reduceToNat]
      omega
    refine (decodeLossy_three hl hs (isContinuation_ofNat _) rest).trans
      (congrArg (· :: decodeLossy rest) (charOf_eq ?_))
    simp only [foldl_cons, foldl_nil, UInt8.toNat_ofNat']
    omega
  · have hl : 0xF0 ≤ UInt8.ofNat (c.toNat / 262144 % 8 + 240) ∧
        UInt8.ofNat (c.toNat / 262144 % 8 + 240) ≤ 0xF4 := by
      simp only [UInt8.le_iff_toNat_le, UInt8.toNat_ofNat', UInt8.reduceToNat]
      omega
    have hs : isSecondOfFour (UInt8.ofNat (c.toNat / 262144 % 8 + 240))
        (UInt8.ofNat (c.toNat / 4096 % 64 + 128)) := by
      simp only [isSecondOfFour, Bool.or_eq_true, Bool.and_eq_true, beq_iff_eq, decide_eq_true_eq,
        UInt8.le_iff_toNat_le, ← UInt8.toNat_inj, UInt8.toNat_ofNat', UInt8.reduceToNat]
      omega
    refine (decodeLossy_four hl hs (isContinuation_ofNat _) (isContinuation_ofNat _)
      rest).trans (congrArg (· :: decodeLossy rest) (charOf_eq ?_))
    simp only [foldl_cons, foldl_nil, UInt8.toNat_ofNat']
    omega

/-- **The encoding of a text is read back** without a replacement. -/
theorem decodeLossy_encode (text : Text) : decodeLossy (encode text) = text := by
  induction text with
  | nil => rfl
  | cons c text ih =>
    rw [encode, flatMap_cons, decodeLossy_utf8EncodeChar, ← encode, ih]

end BalanSir.Lib
