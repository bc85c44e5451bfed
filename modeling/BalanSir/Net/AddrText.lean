/-
# The texts of addresses

The characters and the lengths of printed addresses.
-/

import BalanSir.Net.Addr

namespace BalanSir.Net

open List

def isAddressChar (c : Char) : Bool := (toDigit 16 c).isSome || c == '.' || c == ':'

def Reads (k : ℕ) (s rest : List Char) : Prop :=
  ∃ read, s = read ++ rest ∧ read.length ≤ k ∧ ∀ c ∈ read, isAddressChar c

theorem Reads.refl (k : ℕ) (s : List Char) : Reads k s s :=
  ⟨[], rfl, Nat.zero_le _, fun _ h => absurd h not_mem_nil⟩

variable {rest s : List Char}

theorem Reads.trans {k m : ℕ} {t : List Char} (h : Reads k s t) (h' : Reads m t rest) :
    Reads (k + m) s rest := by
  obtain ⟨read, rfl, hl, hc⟩ := h
  obtain ⟨read', rfl, hl', hc'⟩ := h'
  refine ⟨read ++ read', by simp, ?_, List.forall_mem_append.2 ⟨hc, hc'⟩⟩
  rw [length_append]
  exact Nat.add_le_add hl hl'

theorem Reads.mono {k m : ℕ} (h : Reads k s rest) (hk : k ≤ m) : Reads m s rest := by
  obtain ⟨read, hs, hl, hc⟩ := h
  exact ⟨read, hs, Nat.le_trans hl hk, hc⟩

variable {radix : ℕ}

theorem isAddressChar_of_toDigit {d : ℕ} {c : Char} (hr : radix ≤ 16)
    (h : toDigit radix c = some d) : isAddressChar c := by
  obtain ⟨hd, hlt⟩ := Option.filter_eq_some_iff.1 h
  have hs : toDigit 16 c = some d := by
    refine Option.filter_eq_some_iff.2 ⟨hd, ?_⟩
    simp only [decide_eq_true_eq] at hlt ⊢
    omega
  simp [isAddressChar, hs]

theorem reads_digits (hr : radix ≤ 16) (value count : ℕ) (s : List Char) :
    ∃ read, s = read ++ (readDigits radix value count s).2.2 ∧
      count + read.length = (readDigits radix value count s).2.1 ∧
      ∀ c ∈ read, isAddressChar c := by
  induction s generalizing value count with
  | nil => exact ⟨[], rfl, rfl, fun _ h => absurd h not_mem_nil⟩
  | cons c s ih =>
    rw [readDigits]
    split
    · next d hd =>
        obtain ⟨read, hs, hco, hc⟩ := ih (value * radix + d) (count + 1)
        refine ⟨c :: read, congrArg (c :: ·) hs, ?_, List.forall_mem_cons.2 ⟨?_, hc⟩⟩
        · rw [length_cons]
          omega
        · exact isAddressChar_of_toDigit hr hd
    · exact ⟨[], rfl, rfl, fun _ h => absurd h not_mem_nil⟩

theorem reads_number {maxDigits bound n : ℕ} {allow : Bool} (hr : radix ≤ 16)
    (h : readNumber radix maxDigits bound allow s = some (n, rest)) : Reads maxDigits s rest := by
  obtain ⟨read, hs, hc, hch⟩ := reads_digits hr 0 0 s
  unfold readNumber at h
  dsimp only at h
  split_ifs at h with hm
  cases h
  rw [Nat.zero_add] at hc
  exact ⟨read, hs, hc ▸ Nat.not_lt.1 hm, hch⟩

theorem reads_givenChar {c : Char} (hc : isAddressChar c) {u : Unit}
    (h : readGivenChar c s = some (u, rest)) : Reads 1 s rest := by
  cases s with
  | nil => cases h
  | cons d s =>
    rw [readGivenChar] at h
    split_ifs at h with hd
    cases h
    exact ⟨[d], rfl, Nat.le_refl _, by simpa [hd] using hc⟩

theorem reads_separator {α : Type} {sep : Char} (hs : isAddressChar sep) {inner : Parser α}
    {k : ℕ} (hi : ∀ s a rest, inner s = some (a, rest) → Reads k s rest) {index : ℕ} {a : α}
    (h : readSeparator sep index inner s = some (a, rest)) : Reads (1 + k) s rest := by
  unfold readSeparator at h
  split_ifs at h
  · exact (hi _ _ _ h).mono (Nat.le_add_left _ _)
  · split at h
    · next hg => exact (reads_givenChar hs hg).trans (hi _ _ _ h)
    · cases h

theorem reads_octets {i acc n a : ℕ} (h : readOctets i acc n s = some (a, rest)) :
    Reads (4 * n) s rest := by
  induction n generalizing i acc s with
  | zero =>
    cases h
    exact Reads.refl _ _
  | succ n ih =>
    rw [readOctets] at h
    dsimp only at h
    split at h
    · next hr =>
        have ho := reads_separator (by decide) (fun _ _ _ => reads_number (by decide)) hr
        exact (ho.trans (ih h)).mono (by omega)
    · cases h

theorem reads_groups (i n : ℕ) (s : List Char) :
    Reads (5 * n + 17) s (readGroups i n s).2.2 := by
  induction n generalizing i s with
  | zero => exact Reads.refl _ _
  | succ n ih =>
    rw [readGroups]
    split
    · next hi4 =>
        split_ifs at hi4
        exact (reads_separator (by decide) (fun _ _ _ => reads_octets) hi4).mono (by omega)
    · split
      · next g rest hr =>
          have ho := reads_separator (by decide) (fun _ _ _ => reads_number (by decide)) hr
          exact (ho.trans (ih (i + 1) rest)).mono (by omega)
      · exact Reads.refl _ _

theorem reads_ipv6 {a : BitVec 128} (h : readIpv6Addr s = some (a, rest)) : Reads 116 s rest := by
  have hh := reads_groups 0 8 s
  unfold readIpv6Addr at h
  dsimp only at h
  split_ifs at h with hl
  · cases h
    exact hh.mono (by omega)
  · split at h
    · next s' hc =>
        rw [hc] at hh
        cases h
        have hp : Reads 2 (':' :: ':' :: s') s' :=
          ⟨[':', ':'], rfl, Nat.le_refl _, List.all_eq_true.1 rfl⟩
        exact ((hh.trans hp).trans (reads_groups 0 _ s')).mono (by omega)
    · cases h

/-- **The text of an address** is short, of digits, dots and colons. -/
theorem text_of_ofText {text : List Char} (h : (IpAddr.ofText (String.ofList text)).isSome) :
    text.length ≤ 116 ∧ ∀ c ∈ text, isAddressChar c := by
  have hre : Reads 116 text [] := by
    unfold IpAddr.ofText at h
    rw [String.toList_ofList] at h
    split at h
    · next hr => exact (reads_octets hr).mono (by omega)
    · cases h
    · split at h
      · next hr => exact reads_ipv6 hr
      · cases h
  obtain ⟨read, hs, hl, hc⟩ := hre
  rw [append_nil] at hs
  exact hs ▸ ⟨hl, hc⟩

end BalanSir.Net
