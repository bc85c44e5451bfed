/-
# What `nft` reads of a rule

`add_rule_to_chain` hands the words of `NftRuleSpec::render` to `nft`, which joins them with blanks
and reads the line. A text of the rule is spliced in as it is: with a subnet
`192.168.3.0/24 accept #` another rule is read. `scan` is the part of the reader that decides it.
-/

import BalanSir.Executor.Nftables
import BalanSir.Net.Ipv6

namespace BalanSir.Executor

open List

/-- The word read so far, if there is one. -/
def flushWord (word : List Char) : List (List Char) := if word = [] then [] else [word]

/-- The words of a line: a blank ends one, `#` ends the line, quotes hold one together. -/
def scan (quoted : Bool) (word : List Char) : List Char → List (List Char)
  | [] => flushWord word
  | c :: rest =>
    if quoted then scan (c != '"') (word ++ [c]) rest
    else if c = '"' then scan true (word ++ [c]) rest
    else if c = '#' then flushWord word
    else if c = ' ' then flushWord word ++ scan false [] rest
    else if c ∈ [';', '\n', '{', '}'] then flushWord word ++ [c] :: scan false [] rest
    else scan false (word ++ [c]) rest

/-- A character of an address, a number or a keyword. -/
def plainChar (c : Char) : Bool := c.isAlphanum || c ∈ ['_', '-', '.', ':', '/', ',']

def isPlain (w : List Char) : Bool := !w.isEmpty && w.all plainChar

/-- One word to `nft`: plain characters, or a quoted text without a quote in it. -/
def IsWord (w : List Char) : Prop :=
  isPlain w = true ∨ ∃ text, w = '"' :: text ++ ['"'] ∧ '"' ∉ text

variable {w : List Char}

theorem scan_plain (h : ∀ c ∈ w, plainChar c = true) (word rest : List Char) :
    scan false word (w ++ rest) = scan false (word ++ w) rest := by
  induction w generalizing word with
  | nil => rw [nil_append, append_nil]
  | cons c w ih =>
    obtain ⟨hc, hw⟩ := forall_mem_cons.1 h
    have hs : ∀ d ∈ ['"', '#', ' ', ';', '\n', '{', '}'], plainChar d = false := by decide
    have hn : ∀ d ∈ ['"', '#', ' ', ';', '\n', '{', '}'], c ≠ d := by
      rintro d hd rfl
      exact Bool.false_ne_true ((hs _ hd).symm.trans hc)
    rw [cons_append, scan, if_neg Bool.false_ne_true, if_neg (hn _ (by decide)),
      if_neg (hn _ (by decide)), if_neg (hn _ (by decide)), if_neg, ih hw, append_assoc,
      singleton_append]
    exact fun hm => hn c (by simp_all) rfl

theorem scan_quoted {text : List Char} (h : '"' ∉ text) (word rest : List Char) :
    scan true word (text ++ '"' :: rest) = scan false (word ++ text ++ ['"']) rest := by
  induction text generalizing word with
  | nil => simp [scan]
  | cons c text ih =>
    rw [mem_cons, not_or] at h
    rw [cons_append, scan, bne_iff_ne.2 (Ne.symm h.1), ih h.2]
    simp

theorem IsWord.scan_append (h : IsWord w) (rest : List Char) :
    scan false [] (w ++ rest) = scan false w rest := by
  rcases h with hw | ⟨text, rfl, ht⟩
  · exact scan_plain (all_eq_true.1 (Bool.and_eq_true_iff.1 hw).2) [] rest
  · have hs := scan_quoted ht ['"'] rest
    rw [append_assoc]
    exact hs

theorem IsWord.flush (h : IsWord w) : flushWord w = [w] := by
  refine if_neg ?_
  rcases h with hw | ⟨text, rfl, -⟩
  · rintro rfl
    cases hw
  · exact cons_ne_nil _ _

/-- **Joined words are found again.** -/
theorem scan_intercalate {ws : List (List Char)} (h : ∀ w ∈ ws, IsWord w) :
    scan false [] (intercalate [' '] ws) = ws := by
  induction ws with
  | nil => rfl
  | cons w ws ih =>
    obtain ⟨hw, hws⟩ := forall_mem_cons.1 h
    cases ws with
    | nil =>
      rw [intercalate_singleton, ← append_nil w, hw.scan_append, append_nil]
      exact hw.flush
    | cons w' ws =>
      rw [intercalate_cons_cons, append_assoc, hw.scan_append]
      have hr : scan false w ([' '] ++ intercalate [' '] (w' :: ws)) =
          flushWord w ++ scan false [] (intercalate [' '] (w' :: ws)) := rfl
      rw [hr, ih hws, hw.flush, singleton_append]

namespace NftRuleSpec

/-- `nft` finds the words of the rule in the line they are joined to. -/
def ReadAsMeant (spec : NftRuleSpec) : Prop :=
  scan false [] (intercalate [' '] (spec.render.map String.toList)) =
    spec.render.map String.toList

/-- Every text of the rule is one word where it stands, and so is the verdict. -/
structure Plain (spec : NftRuleSpec) : Prop where
  unquoted : ∀ text, some text ∈ [spec.srcCidr, spec.dstCidr, spec.ctState] →
    isPlain text.toList = true
  quoted : ∀ text, some text ∈ [spec.iifname, spec.oifname, spec.comment] → '"' ∉ text.toList
  verdict : ∀ num, spec.verdict ≠ .queue num

theorem plainChar_of_mem_digits {n : ℕ} {c : Char} (h : c ∈ (Nat.repr n).toList) :
    plainChar c = true := by
  rw [Nat.toList_repr] at h
  have hd := Nat.isDigit_of_mem_toDigits (by decide) (by decide) h
  simp [plainChar, Char.isAlphanum, hd]

theorem isPlain_repr (n : ℕ) : isPlain (Nat.repr n).toList = true := by
  have hne : (Nat.repr n).toList ≠ [] := by
    rw [Nat.toList_repr]
    exact Nat.toDigits_ne_nil
  simpa [isPlain] using fun c => plainChar_of_mem_digits (n := n) (c := c)

theorem isPlain_target (addr : BitVec 32) (port : UInt16) :
    isPlain ((Net.IpAddr.v4 addr).toText ++ ":" ++ toString port).toList = true := by
  refine Bool.and_eq_true_iff.2 ⟨by simp, all_eq_true.2 fun c hc => ?_⟩
  simp only [String.toList_append, mem_append] at hc
  rcases hc with (ha | hc) | hp
  · by_contra hn
    refine Net.notMem_ipv4Text (c := c) ?_ (fun h => hn (by rw [h]; rfl)) addr ?_
    · exact Bool.eq_false_iff.2 fun hd => hn (by simp [plainChar, Char.isAlphanum, hd])
    · simpa [Net.IpAddr.toText] using ha
  · rw [mem_singleton.1 hc]
    rfl
  · exact plainChar_of_mem_digits hp

theorem forall_mem_renderField {α : Type} {field : Option α} {args : α → List String}
    {P : String → Prop} (h : ∀ a, field = some a → ∀ w ∈ args a, P w) :
    ∀ w ∈ renderField field args, P w := by
  cases field with
  | none => exact fun w hw => nomatch hw
  | some a => exact h a rfl

variable {spec : NftRuleSpec}

/-- The words of a plain rule: plain ones, and in quotes its names and its comment. -/
theorem words_of_plain (h : spec.Plain) : ∀ w ∈ spec.render, isPlain w.toList = true ∨
    ∃ text, some text ∈ [spec.iifname, spec.oifname, spec.comment] ∧ w = quoted text := by
  have hu (text : String) := h.unquoted text
  simp only [render, forall_mem_append]
  refine ⟨⟨⟨⟨⟨⟨⟨⟨⟨⟨?_, ?_⟩, ?_⟩, ?_⟩, ?_⟩, ?_⟩, ?_⟩, ?_⟩, ?_⟩, ?_⟩, ?_⟩ <;>
    try refine forall_mem_renderField fun a ha => ?_
  · cases a <;> simp only [forall_mem_cons] <;>
      exact ⟨.inl (by decide), .inl (by decide), .inl (by decide), nofun⟩
  · simp only [addrMatcher, forall_mem_cons]
    exact ⟨.inl (by split_ifs <;> decide), .inl (by decide), .inl (hu a (by simp [ha])), nofun⟩
  · simp only [addrMatcher, forall_mem_cons]
    exact ⟨.inl (by split_ifs <;> decide), .inl (by decide), .inl (hu a (by simp [ha])), nofun⟩
  · simp only [forall_mem_cons]
    exact ⟨.inl (by decide), .inr ⟨a, by simp [ha], rfl⟩, nofun⟩
  · simp only [forall_mem_cons]
    exact ⟨.inl (by decide), .inr ⟨a, by simp [ha], rfl⟩, nofun⟩
  · simp only [forall_mem_cons]
    exact ⟨.inl (by decide), .inl (by decide), .inl (isPlain_repr a.toNat), nofun⟩
  · simp only [forall_mem_cons]
    exact ⟨.inl (by decide), .inl (by decide), .inl (isPlain_repr a.toNat), nofun⟩
  · simp only [forall_mem_cons]
    exact ⟨.inl (by decide), .inl (by decide), .inl (hu a (by simp [ha])), nofun⟩
  · simp only [forall_mem_cons]
    exact ⟨.inl (by decide), .inl (by decide), .inl (by decide), .inl (isPlain_repr a.toNat),
      nofun⟩
  · cases hv : spec.verdict with
    | dnat addr port =>
      simp only [forall_mem_cons]
      exact ⟨.inl (by decide), .inl (by decide), .inl (isPlain_target addr port), nofun⟩
    | queue num => exact absurd hv (h.verdict num)
    | accept | drop | reject | masquerade => exact forall_mem_singleton.2 (.inl (by decide))
  · simp only [forall_mem_cons]
    exact ⟨.inl (by decide), .inr ⟨a, by simp [ha], rfl⟩, nofun⟩

/-- **A rule of single words is read word for word.** -/
theorem Plain.readAsMeant (h : spec.Plain) : spec.ReadAsMeant := by
  refine scan_intercalate (forall_mem_map.2 fun w hw => ?_)
  rcases words_of_plain h w hw with hp | ⟨text, ht, rfl⟩
  · exact .inl hp
  · exact .inr ⟨text.toList, by simp [NftRuleSpec.quoted], h.quoted text ht⟩

/-- A plain rule whose interface names are none of the tags, which all have a colon. -/
structure Listed (spec : NftRuleSpec) : Prop extends Plain spec where
  named : ∀ name, some name ∈ [spec.iifname, spec.oifname] → ':' ∉ name.toList

theorem toList_quoted (text : String) : (quoted text).toList = '"' :: text.toList ++ ['"'] := by
  simp [quoted]

/-- **Where the search by a quoted tag ends**: `line.contains` finds it in the comment only. -/
theorem Listed.quoted_mem_iff (h : spec.Listed) {tag : String} (ht : ':' ∈ tag.toList) :
    NftRuleSpec.quoted tag ∈ spec.render ↔ spec.comment = some tag := by
  constructor
  · intro hm
    rcases words_of_plain h.toPlain _ hm with hp | ⟨text, htx, he⟩
    · rw [toList_quoted] at hp
      exact absurd (all_eq_true.1 (Bool.and_eq_true_iff.1 hp).2 _ mem_cons_self) (by decide)
    · have hi : tag = text := by
        have hl := congrArg String.toList he
        rw [toList_quoted, toList_quoted, cons_append, cons_append, cons_inj_right,
          append_cancel_right_eq] at hl
        exact String.toList_inj.1 hl
      subst hi
      simp only [mem_cons, not_mem_nil, or_false] at htx
      rcases htx with hn | hn | hn
      · exact absurd ht (h.named tag (by simp [hn]))
      · exact absurd ht (h.named tag (by simp [hn]))
      · exact hn.symm
  · intro hc
    simp [render, renderField, hc]

end NftRuleSpec

/-- The rules were read as they were meant, and the search for a quoted tag in their listing,
`parse_handle_for_comment`, ends at the rule that `handleOf` finds by its comment. -/
def ReadBack (rules : List NftRuleSpec) : Prop :=
  (∀ r ∈ rules, r.ReadAsMeant) ∧ ∀ tag : String, ':' ∈ tag.toList →
    rules.findIdx? (fun r => NftRuleSpec.quoted tag ∈ r.render) = NftablesBackend.handleOf tag rules

theorem readBack_of_listed {rules : List NftRuleSpec} (h : ∀ r ∈ rules, r.Listed) :
    ReadBack rules := by
  refine ⟨fun r hr => (h r hr).toPlain.readAsMeant, fun tag ht => ?_⟩
  unfold NftablesBackend.handleOf
  induction rules with
  | nil => rfl
  | cons r rules ih =>
    obtain ⟨hr, hrs⟩ := forall_mem_cons.1 h
    rw [findIdx?_cons, findIdx?_cons, ih hrs]
    simp only [hr.quoted_mem_iff ht]

end BalanSir.Executor
