/-
# Texts

Lists of characters: trimming, search, lines, numbers.
-/

import Mathlib.Data.List.DropRight
import Mathlib.Data.List.Infix

namespace BalanSir.Lib

open List

abbrev Text := List Char

-- Mathlib would go through all characters.
instance (priority := high) (p : Char → Prop) [DecidablePred p] (text : Text) :
    Decidable (∀ c ∈ text, p c) :=
  decidableBAll p text

def isWhitespace (c : Char) : Bool :=
  let n := c.toNat
  (9 ≤ n && n ≤ 13) || n == 0x20 || n == 0x85 || n == 0xA0 || n == 0x1680 ||
    (0x2000 ≤ n && n ≤ 0x200A) || n == 0x2028 || n == 0x2029 || n == 0x202F || n == 0x205F ||
    n == 0x3000

def trimStart (text : Text) : Text := text.dropWhile isWhitespace

def trimEnd (text : Text) : Text := text.rdropWhile isWhitespace

def trim (text : Text) : Text := trimEnd (trimStart text)

def contains (text needle : Text) : Bool := text.tails.any needle.isPrefixOf

def find (needle : Text) : Text → Option ℕ
  | [] => if needle = [] then some 0 else none
  | c :: rest => if needle.isPrefixOf (c :: rest) then some 0 else (find needle rest).map (· + 1)

def firstWord (text : Text) : Option Text :=
  match (trimStart text).takeWhile fun c => !isWhitespace c with
  | [] => none
  | word => some word

def startsWith (text start : Text) : Bool := start.isPrefixOf text

variable {text : Text}

theorem startsWith_append (h : text ≠ []) (tail : Text) (c : Char) :
    startsWith (text ++ tail) [c] = startsWith text [c] := by
  obtain ⟨d, rest, rfl⟩ := exists_cons_of_ne_nil h
  simp [startsWith, List.isPrefixOf]

variable {c : Char}

theorem not_startsWith_of_notMem (h : c ∉ text) : ¬startsWith text [c] := by
  intro hs
  obtain ⟨rest, rfl⟩ := List.isPrefixOf_iff_prefix.1 hs
  exact h mem_cons_self

def stripPrefix (text start : Text) : Option Text :=
  if startsWith text start then some (text.drop start.length) else none

def endsWith (text ending : Text) : Bool := ending.isSuffixOf text

def trimEndMatches (c : Char) (text : Text) : Text := text.rdropWhile (· = c)

def splitOnceAt (c : Char) : Text → Option (Text × Text)
  | [] => none
  | d :: rest =>
    if d = c then some ([], rest)
    else (splitOnceAt c rest).map fun p => (d :: p.1, p.2)

def rsplitOnceAt (c : Char) (text : Text) : Option (Text × Text) :=
  (splitOnceAt c text.reverse).map fun p => (p.2.reverse, p.1.reverse)

variable {before after : Text}

theorem splitOnceAt_spec (h : splitOnceAt c text = some (before, after)) :
    text = before ++ c :: after ∧ c ∉ before := by
  induction text generalizing before with
  | nil => cases h
  | cons d rest ih =>
    rw [splitOnceAt] at h
    split_ifs at h with hd
    · cases h
      exact ⟨by rw [hd, nil_append], not_mem_nil⟩
    · obtain ⟨⟨before', after'⟩, hs, hp⟩ := Option.map_eq_some_iff.1 h
      cases hp
      refine ⟨by rw [(ih hs).1, cons_append], fun hm => ?_⟩
      exact (List.mem_cons.1 hm).elim (fun hc => hd hc.symm) (ih hs).2

theorem eq_of_splitOnceAt (h : splitOnceAt c text = some (before, after)) :
    text = before ++ c :: after := (splitOnceAt_spec h).1

theorem eq_of_rsplitOnceAt (h : rsplitOnceAt c text = some (before, after)) :
    text = before ++ c :: after := by
  obtain ⟨⟨after', before'⟩, hs, hp⟩ := Option.map_eq_some_iff.1 h
  cases hp
  rw [← reverse_reverse text, eq_of_splitOnceAt hs]
  simp

def splitOnce (separator : Text) : Text → Option (Text × Text)
  | [] => if separator = [] then some ([], []) else none
  | d :: rest =>
    if startsWith (d :: rest) separator then some ([], (d :: rest).drop separator.length)
    else (splitOnce separator rest).map fun p => (d :: p.1, p.2)

theorem notMem_of_splitOnceAt (h : splitOnceAt c text = some (before, after)) : c ∉ before :=
  (splitOnceAt_spec h).2

theorem splitOnceAt_append (h : c ∉ before) (after : Text) :
    splitOnceAt c (before ++ c :: after) = some (before, after) := by
  induction before with
  | nil => simp [splitOnceAt]
  | cons d before ih =>
    obtain ⟨hd, hb⟩ := not_or.1 (mt List.mem_cons.2 h)
    simp [splitOnceAt, Ne.symm hd, ih hb]

theorem splitOnceAt_of_notMem (h : c ∉ text) : splitOnceAt c text = none := by
  cases hs : splitOnceAt c text with
  | none => rfl
  | some p =>
    rw [eq_of_splitOnceAt hs] at h
    exact absurd (mem_append_right _ mem_cons_self) h

theorem notMem_of_splitOnceAt_eq_none (h : splitOnceAt c text = none) : c ∉ text := by
  intro hm
  obtain ⟨before, after, rfl, hb⟩ := eq_append_cons_of_mem hm
  rw [splitOnceAt_append hb] at h
  cases h

theorem rsplitOnceAt_append (before : Text) (h : c ∉ after) :
    rsplitOnceAt c (before ++ c :: after) = some (before, after) := by
  have hr : (before ++ c :: after).reverse = after.reverse ++ c :: before.reverse := by simp
  rw [rsplitOnceAt, hr, splitOnceAt_append (by simpa using h)]
  simp

theorem rsplitOnceAt_of_notMem (h : c ∉ text) : rsplitOnceAt c text = none := by
  rw [rsplitOnceAt, splitOnceAt_of_notMem (by simpa using h), Option.map_none]

theorem append_separator_inj {before' after' : Text} (h : c ∉ after) (h' : c ∉ after') :
    before ++ c :: after = before' ++ c :: after' ↔ before = before' ∧ after = after' := by
  constructor
  · intro heq
    have hs := congrArg (rsplitOnceAt c) heq
    rw [rsplitOnceAt_append _ h, rsplitOnceAt_append _ h', Option.some.injEq, Prod.mk.injEq] at hs
    exact hs
  · rintro ⟨rfl, rfl⟩
    rfl

theorem notMem_of_rsplitOnceAt_eq_none (h : rsplitOnceAt c text = none) : c ∉ text := by
  rw [rsplitOnceAt, Option.map_eq_none_iff] at h
  exact fun hm => notMem_of_splitOnceAt_eq_none h (List.mem_reverse.2 hm)

theorem eq_of_splitOnce {separator : Text} (h : splitOnce separator text = some (before, after)) :
    text = before ++ separator ++ after := by
  induction text generalizing before with
  | nil =>
    rw [splitOnce] at h
    split_ifs at h with hs
    cases h
    rw [hs]
    rfl
  | cons d rest ih =>
    rw [splitOnce] at h
    split_ifs at h with hst
    · cases h
      obtain ⟨tail, ht⟩ := List.isPrefixOf_iff_prefix.1 hst
      rw [← ht, drop_left, nil_append]
    · obtain ⟨⟨before', after'⟩, hsp, hp⟩ := Option.map_eq_some_iff.1 h
      cases hp
      rw [ih hsp]
      rfl

theorem splitOnce_append (h : c ∉ before) (separator after : Text) :
    splitOnce (c :: separator) (before ++ c :: separator ++ after) = some (before, after) := by
  induction before with
  | nil =>
    have hs : startsWith (c :: (separator ++ after)) (c :: separator) = true :=
      List.isPrefixOf_iff_prefix.2 ⟨after, rfl⟩
    have hdr : (c :: (separator ++ after)).drop (c :: separator).length = after :=
      drop_left
    rw [nil_append, cons_append, splitOnce, if_pos hs, hdr]
  | cons d before ih =>
    obtain ⟨hd, hb⟩ := not_or.1 (mt List.mem_cons.2 h)
    have hn :
        startsWith (d :: (before ++ c :: separator ++ after)) (c :: separator) = false := by
      simp [startsWith, List.isPrefixOf, hd]
    rw [cons_append, cons_append, splitOnce, hn, ih hb]
    rfl

def asciiLower (c : Char) : Char :=
  if 'A' ≤ c ∧ c ≤ 'Z' then Char.ofNat (c.toNat + 32) else c

theorem asciiLower_not_upper (c : Char) : ¬('A' ≤ asciiLower c ∧ asciiLower c ≤ 'Z') := by
  unfold asciiLower
  split_ifs with h
  · have hl : ∀ n < 26, ¬('A' ≤ Char.ofNat (n + 97) ∧ Char.ofNat (n + 97) ≤ 'Z') := by decide
    have h' : 65 ≤ c.toNat ∧ c.toNat ≤ 90 := h
    have hn := hl (c.toNat - 65) (by omega)
    rwa [show c.toNat - 65 + 97 = c.toNat + 32 by omega] at hn
  · exact h

theorem asciiLower_idem (c : Char) : asciiLower (asciiLower c) = asciiLower c :=
  if_neg (asciiLower_not_upper c)

theorem toLower_asciiLower (c : Char) : (asciiLower c).toLower = asciiLower c :=
  dif_neg (asciiLower_not_upper c)

def toAsciiLowercase (text : Text) : Text := text.map asciiLower

def isAsciiAlphanumeric (c : Char) : Bool :=
  ('0' ≤ c && c ≤ '9') || ('a' ≤ c && c ≤ 'z') || ('A' ≤ c && c ≤ 'Z')

theorem forall_ascii {p : Char → Prop} (h : ∀ n < 128, p (Char.ofNat n)) :
    ∀ c : Char, c.toNat < 128 → p c := fun c hc => by
  rw [← Char.ofNat_toNat c]
  exact h c.toNat hc

theorem asciiLower_of_not_ascii (h : ¬c.toNat < 128) : asciiLower c = c := by
  refine if_neg fun hu => h ?_
  have hle : c.toNat ≤ 90 := hu.2
  omega

theorem isAsciiAlphanumeric_asciiLower (c : Char) :
    isAsciiAlphanumeric (asciiLower c) = isAsciiAlphanumeric c := by
  by_cases hc : c.toNat < 128
  · exact forall_ascii (p := fun c => isAsciiAlphanumeric (asciiLower c) = isAsciiAlphanumeric c)
      (by decide) c hc
  · rw [asciiLower_of_not_ascii hc]

theorem asciiLower_eq_iff {d : Char} (hd : isAsciiAlphanumeric d = false) :
    asciiLower c = d ↔ c = d := by
  constructor
  · intro h
    unfold asciiLower at h
    split_ifs at h with hu
    · have hl : isAsciiAlphanumeric (asciiLower c) := by
        rw [isAsciiAlphanumeric_asciiLower]
        simp [isAsciiAlphanumeric, hu.1, hu.2]
      rw [asciiLower, if_pos hu, h, hd] at hl
      cases hl
    · exact h
  · rintro rfl
    refine if_neg fun hu => ?_
    simp [isAsciiAlphanumeric, hu.1, hu.2] at hd

def isAsciiHexdigit (c : Char) : Bool :=
  ('0' ≤ c && c ≤ '9') || ('a' ≤ c && c ≤ 'f') || ('A' ≤ c && c ≤ 'F')

def parseUnsigned (bound : ℕ) (text : Text) : Option ℕ :=
  let digits := if startsWith text ['+'] then text.drop 1 else text
  if digits = [] ∨ ¬digits.all (fun c => '0' ≤ c && c ≤ '9') then none
  else
    let n := digits.foldl (fun n c => 10 * n + (c.toNat - 48)) 0
    if n < bound then some n else none

theorem parseUnsigned_toDigits {bound n : ℕ} (h : n < bound) :
    parseUnsigned bound (Nat.toDigits 10 n) = some n := by
  have hd : ∀ c ∈ Nat.toDigits 10 n, '0' ≤ c ∧ c ≤ '9' := fun c hc => by
    have hdi := Nat.isDigit_of_mem_toDigits (by decide) (by decide) hc
    rw [Char.isDigit, Bool.and_eq_true, decide_eq_true_eq, decide_eq_true_eq] at hdi
    exact hdi
  have hp : startsWith (Nat.toDigits 10 n) ['+'] = false := by
    rw [Bool.eq_false_iff]
    intro hs
    obtain ⟨rest, hr⟩ := List.isPrefixOf_iff_prefix.1 hs
    exact absurd (hd '+' (hr ▸ mem_cons_self)) (by decide)
  have hv : (Nat.toDigits 10 n).foldl (fun n c => 10 * n + (c.toNat - 48)) 0 = n :=
    Nat.ofDigitChars_ten_toDigits
  have ha : (Nat.toDigits 10 n).all (fun c => '0' ≤ c && c ≤ '9') := by
    simpa using hd
  rw [parseUnsigned, hp, if_neg Bool.false_ne_true]
  rw [if_neg (not_or.2 ⟨Nat.toDigits_ne_nil, not_not.2 ha⟩), hv, if_pos h]

def stripCr (line : Text) : Text :=
  match line.getLast? with
  | some '\r' => line.dropLast
  | _ => line

def linesFrom (line : Text) : Text → List Text
  | [] => if line = [] then [] else [line]
  | c :: rest =>
    if c = '\n' then stripCr line :: linesFrom [] rest else linesFrom (line ++ [c]) rest

def lines (text : Text) : List Text := linesFrom [] text

@[simp] theorem lines_nil : lines [] = [] := rfl

theorem trim_concat (hc : isWhitespace c) (text : Text) :
    trim (text ++ [c]) = trim text := by
  unfold trim trimStart trimEnd
  rw [dropWhile_append]
  split_ifs with h
  · rw [List.isEmpty_iff] at h
    simp [h, hc]
  · exact rdropWhile_concat_pos _ _ _ hc

theorem mem_trim (h : c ∈ text) (hc : isWhitespace c = false) : c ∈ trim text := by
  have hd : ∀ {s : Text}, c ∈ s → c ∈ s.dropWhile isWhitespace := by
    intro s hm
    rw [← takeWhile_append_dropWhile (l := s), mem_append] at hm
    refine hm.resolve_left fun ht => ?_
    rw [mem_takeWhile_imp ht] at hc
    cases hc
  rw [trim, trimEnd, List.rdropWhile, mem_reverse]
  exact hd (List.mem_reverse.2 (hd h))

theorem trim_of_no_blank (h : ∀ c ∈ text, isWhitespace c = false) : trim text = text := by
  have hd : ∀ {s : Text}, (∀ c ∈ s, isWhitespace c = false) → s.dropWhile isWhitespace = s := by
    intro s hs
    refine List.dropWhile_eq_self_iff.2 fun hl hb => ?_
    rw [hs _ (getElem_mem hl)] at hb
    cases hb
  rw [trim, trimStart, hd h, trimEnd, List.rdropWhile,
    hd fun c hc => h c (List.mem_reverse.1 hc), reverse_reverse]

@[simp] theorem trim_trim (text : Text) : trim (trim text) = trim text := by
  have he : trimEnd (trimEnd (trimStart text)) = trimEnd (trimStart text) :=
    rdropWhile_idempotent _ _
  have hs : trimStart (trimEnd (trimStart text)) = trimEnd (trimStart text) := by
    refine List.dropWhile_eq_self_iff.2 fun hl hb => ?_
    -- the first character is that of the text without the blanks at its start
    have hi : trimEnd (trimStart text) <+: trimStart text := rdropWhile_prefix _ _
    rw [hi.getElem hl] at hb
    exact dropWhile_get_zero_not isWhitespace text (hl.trans_le hi.length_le) hb
  rw [trim, trim, hs, he]

theorem isWhitespace_asciiLower (c : Char) : isWhitespace (asciiLower c) = isWhitespace c := by
  by_cases hc : c.toNat < 128
  · exact forall_ascii (p := fun c => isWhitespace (asciiLower c) = isWhitespace c) (by decide) c hc
  · rw [asciiLower_of_not_ascii hc]

theorem toAsciiLowercase_trimStart (text : Text) :
    toAsciiLowercase (trimStart text) = trimStart (toAsciiLowercase text) := by
  have hb : isWhitespace ∘ asciiLower = isWhitespace := funext isWhitespace_asciiLower
  rw [toAsciiLowercase, toAsciiLowercase, trimStart, trimStart, dropWhile_map, hb]

theorem toAsciiLowercase_trim (text : Text) :
    toAsciiLowercase (trim text) = trim (toAsciiLowercase text) := by
  have he : ∀ s : Text, toAsciiLowercase (trimEnd s) = trimEnd (toAsciiLowercase s) := by
    intro s
    have hr := toAsciiLowercase_trimStart s.reverse
    unfold toAsciiLowercase trimStart at hr
    unfold toAsciiLowercase trimEnd List.rdropWhile
    rw [map_reverse, hr, map_reverse]
  rw [trim, he, toAsciiLowercase_trimStart, trim]

variable (line : Text)

theorem trim_stripCr : trim (stripCr line) = trim line := by
  unfold stripCr
  split
  · next h =>
      obtain ⟨init, rfl⟩ := List.getLast?_eq_some_iff.1 h
      rw [dropLast_concat, trim_concat (by decide)]
  · rfl

variable (a : Text)

theorem trim_linesFrom_newline :
    ((linesFrom line (a ++ ['\n'])).map trim).filter (· ≠ []) =
      ((linesFrom line a).map trim).filter (· ≠ []) := by
  induction a generalizing line with
  | nil =>
    by_cases h : line = []
    · subst h
      decide
    · simp [linesFrom, h, trim_stripCr]
  | cons c a ih =>
    simp only [cons_append, linesFrom]
    split_ifs with hc
    · rw [map_cons, map_cons, filter_cons, filter_cons, ih]
    · exact ih _

theorem trim_lines_newline :
    ((lines (a ++ ['\n'])).map trim).filter (· ≠ []) =
      ((lines a).map trim).filter (· ≠ []) := trim_linesFrom_newline [] a

theorem linesFrom_append_newline (b : Text) :
    linesFrom line (a ++ '\n' :: b) = linesFrom line (a ++ ['\n']) ++ lines b := by
  induction a generalizing line with
  | nil => rfl
  | cons c a ih =>
    simp only [cons_append, linesFrom]
    split_ifs with hc
    · rw [ih, cons_append]
    · exact ih _

theorem lines_append_newline (b : Text) :
    lines (a ++ '\n' :: b) = lines (a ++ ['\n']) ++ lines b := linesFrom_append_newline [] a b

/-- What a reader of trimmed lines sees of a file. -/
def entries (file : Text) : List Text := ((lines file).map trim).filter (· ≠ [])

end BalanSir.Lib
