/-
# ELF inspection

`parse_elf` of `balansir-image`: the program headers say how a file is linked.
-/

import BalanSir.Lib.Checked

namespace BalanSir.Image

open Lib

variable (little : Bool)

def uintOf (bytes : Bytes) : ℕ :=
  (if little then bytes.reverse else bytes).foldl (fun value b => value * 256 + b.toNat) 0

/-- `from_le_bytes` or `from_be_bytes` of a slice. -/
def readUint (data : Bytes) (i n : ℕ) : Checked ℕ := do
  let bytes ← slice data i (i + n)
  .ok (uintOf little bytes)

def uintAt (data : Bytes) (i n : ℕ) : ℕ := uintOf little (between data i (i + n))

/-- Addition of the source, which panics on overflow. -/
def addU64 (a b : ℕ) : Checked ℕ :=
  if a + b < 18446744073709551616 then .ok (a + b) else .error .outOfRange

structure ElfInfo where
  isElf : Bool
  is64bit : Bool
  littleEndian : Bool
  machine : Option ℕ
  dynamicallyLinked : Option Bool
deriving DecidableEq

/-- Byte order and program header table of a file, and how long an entry is taken to be. -/
structure Elf where
  little : Bool
  phoff : ℕ
  phentsize : ℕ
  phnum : ℕ
  entrySize : ℕ

/-- The loop for `PT_INTERP` from header `i` on. -/
def findInterp (elf : Elf) (data : Bytes) (i : ℕ) : ℕ → Checked Bool
  | 0 => .ok false
  | left + 1 => do
    let off ← addU64 elf.phoff (i * elf.phentsize)
    let stop ← addU64 off elf.entrySize
    if data.length < stop then .ok false else do
    let pType ← readUint elf.little data off 4
    if pType = 3 then .ok true else findInterp elf data (i + 1) left

/-- The offsets differ between the two classes. -/
def readTable (is64bit little : Bool) (data : Bytes) : Checked Elf :=
  if is64bit then do
    let phoff ← readUint little data 32 8
    let phentsize ← readUint little data 54 2
    let phnum ← readUint little data 56 2
    .ok ⟨little, phoff, phentsize, phnum, 56⟩
  else do
    let phoff ← readUint little data 28 4
    let phentsize ← readUint little data 42 2
    let phnum ← readUint little data 44 2
    .ok ⟨little, phoff, phentsize, phnum, 32⟩

/-- Entries of fewer than 8 bytes are not looked at. -/
def interpIn (elf : Elf) (data : Bytes) : Checked Bool :=
  if 8 ≤ elf.phentsize ∧ 0 < elf.phnum then findInterp elf data 0 elf.phnum else .ok false

def parseElf (data : Bytes) : Checked ElfInfo :=
  if data.length < 64 then .ok ⟨false, false, false, none, none⟩ else do
  let magic ← slice data 0 4
  if magic ≠ [0x7f, 0x45, 0x4c, 0x46] then .ok ⟨false, false, false, none, none⟩ else do
  let elfClass ← byteAt data 4
  let encoding ← byteAt data 5
  let is64bit := decide (elfClass = 2)
  let little := decide (encoding = 1)
  let machine ← readUint little data 18 2
  let elf ← readTable is64bit little data
  let interp ← interpIn elf data
  .ok ⟨true, is64bit, little, some machine, some interp⟩

/-- What is inspected at all. -/
def IsElf (data : Bytes) : Prop :=
  64 ≤ data.length ∧ data.take 4 = [0x7f, 0x45, 0x4c, 0x46]

/-- `readTable` without its checks. -/
def elfOf (data : Bytes) : Elf :=
  let little := decide (data.getD 5 0 = 1)
  if data.getD 4 0 = 2 then
    ⟨little, uintAt little data 32 8, uintAt little data 54 2, uintAt little data 56 2, 56⟩
  else ⟨little, uintAt little data 28 4, uintAt little data 42 2, uintAt little data 44 2, 32⟩

/-- The first `k` from `i` on with `B`, with `A` before it. -/
def Reaches (A B : ℕ → Prop) (i n : ℕ) : Prop :=
  ∃ k, i ≤ k ∧ k < n ∧ (∀ j, i ≤ j → j < k → A j) ∧ B k

namespace Elf

variable (elf : Elf) (data : Bytes) (i : ℕ)

def offset : ℕ := elf.phoff + i * elf.phentsize

/-- Entry `i` lies in the file. -/
def Inside : Prop := elf.offset i + elf.entrySize ≤ data.length

def IsInterp : Prop := uintAt elf.little data (elf.offset i) 4 = 3

def HasInterp (i : ℕ) : Prop :=
  Reaches (elf.Inside data) (fun k => elf.Inside data k ∧ elf.IsInterp data k) i elf.phnum

/-- A header that is reached ends behind the `u64`. -/
def Overflows (i : ℕ) : Prop :=
  Reaches (fun j => elf.Inside data j ∧ ¬elf.IsInterp data j)
    (fun k => 18446744073709551616 ≤ elf.offset k + elf.entrySize) i elf.phnum

end Elf

section Reaches

variable {A B : ℕ → Prop} {i n : ℕ}

theorem reaches_here (hn : i < n) (hB : B i) : Reaches A B i n :=
  ⟨i, Nat.le_refl i, hn, fun _ hij hji => absurd hij (Nat.not_le.2 hji), hB⟩

theorem not_reaches (hA : ¬A i) (hB : ¬B i) : ¬Reaches A B i n := by
  rintro ⟨k, hik, -, ha, hk⟩
  obtain rfl | hlt := Nat.eq_or_lt_of_le hik
  · exact hB hk
  · exact hA (ha i (Nat.le_refl i) hlt)

theorem reaches_succ_iff (hA : A i) (hB : ¬B i) : Reaches A B (i + 1) n ↔ Reaches A B i n := by
  constructor
  · rintro ⟨k, hik, hkn, ha, hk⟩
    refine ⟨k, Nat.le_of_succ_le hik, hkn, fun j hij hjk => ?_, hk⟩
    obtain rfl | hlt := Nat.eq_or_lt_of_le hij
    · exact hA
    · exact ha j hlt hjk
  · rintro ⟨k, hik, hkn, ha, hk⟩
    obtain rfl | hlt := Nat.eq_or_lt_of_le hik
    · exact absurd hk hB
    · exact ⟨k, hlt, hkn, fun j hij => ha j (Nat.le_of_succ_le hij), hk⟩

end Reaches

variable {elf : Elf} {data : Bytes}

theorem readUint_of_le {little : Bool} {i n : ℕ} (h : i + n ≤ data.length) :
    readUint little data i n = .ok (uintAt little data i n) := by
  rw [readUint, slice_of_le (Nat.le_add_right i n) h, ok_bind, uintAt]

theorem addU64_offset (elf : Elf) (i : ℕ) {β : Type} (f : ℕ → ℕ → Checked β) :
    (do let off ← addU64 elf.phoff (i * elf.phentsize)
        let stop ← addU64 off elf.entrySize
        f off stop) =
      if elf.offset i + elf.entrySize < 18446744073709551616 then
        f (elf.offset i) (elf.offset i + elf.entrySize)
      else .error .outOfRange := by
  unfold addU64 Elf.offset
  by_cases h : elf.phoff + i * elf.phentsize < 18446744073709551616
  · rw [if_pos h, ok_bind]
    split_ifs
    · rw [ok_bind]
    · rw [error_bind]
  · rw [if_neg h, error_bind, if_neg (by omega)]

/-- From header `i` on the loop faults at a header that overflows, or finds what there is. -/
theorem findInterp_runs (h : 4 ≤ elf.entrySize) (left i : ℕ) (hn : i + left = elf.phnum) :
    Runs (findInterp elf data i left) (elf.Overflows data i) (· ↔ elf.HasInterp data i) := by
  induction left generalizing i with
  | zero =>
    have hno {A B : ℕ → Prop} : ¬Reaches A B i elf.phnum := by
      rintro ⟨k, hik, hkn, -⟩
      omega
    exact ⟨fun hb => absurd hb hno, fun _ => ⟨_, rfl, iff_of_false Bool.false_ne_true hno⟩⟩
  | succ left ih =>
    rw [findInterp, addU64_offset]
    by_cases ho : elf.offset i + elf.entrySize < 18446744073709551616
    · rw [if_pos ho]
      by_cases hin : elf.Inside data i
      · have hle : elf.offset i + elf.entrySize ≤ data.length := hin
        rw [if_neg (Nat.not_lt.2 hin), readUint_of_le (by omega), ok_bind]
        by_cases hi : uintAt elf.little data (elf.offset i) 4 = 3
        · rw [if_pos hi]
          refine ⟨fun hb => absurd hb ?_, fun _ => ⟨_, rfl, iff_of_true rfl ?_⟩⟩
          · exact not_reaches (fun h => h.2 hi) (Nat.not_le.2 ho)
          · exact reaches_here (by omega) ⟨hin, hi⟩
        · rw [if_neg hi]
          refine (ih (i + 1) (by omega)).imp ?_ fun _ _ h => h.trans ?_
          · exact reaches_succ_iff ⟨hin, hi⟩ (Nat.not_le.2 ho)
          · exact reaches_succ_iff hin fun h => hi h.2
      · rw [if_pos (Nat.not_le.1 hin)]
        refine ⟨fun hb => absurd hb ?_,
          fun _ => ⟨_, rfl, iff_of_false Bool.false_ne_true ?_⟩⟩
        · exact not_reaches (fun h => hin h.1) (Nat.not_le.2 ho)
        · exact not_reaches hin fun h => hin h.1
    · rw [if_neg ho]
      refine ⟨fun _ => rfl, fun hnot => absurd ?_ hnot⟩
      exact reaches_here (by omega) (Nat.not_lt.1 ho)

theorem readTable_eq (h : 64 ≤ data.length) :
    readTable (data.getD 4 0 = 2) (data.getD 5 0 = 1) data = .ok (elfOf data) := by
  unfold readTable elfOf
  by_cases hc : data.getD 4 0 = 2
  · rw [if_pos hc, if_pos (decide_eq_true hc), readUint_of_le (by omega),
      readUint_of_le (by omega), readUint_of_le (by omega)]
    rfl
  · rw [if_neg hc, if_neg (by simpa using hc), readUint_of_le (by omega),
      readUint_of_le (by omega), readUint_of_le (by omega)]
    rfl

theorem entrySize_elfOf (data : Bytes) : 4 ≤ (elfOf data).entrySize := by
  unfold elfOf
  split_ifs
  · exact Nat.le_add_left 4 52
  · exact Nat.le_add_left 4 28

theorem parseElf_of_isElf (h : IsElf data) : parseElf data =
    interpIn (elfOf data) data >>= fun interp => .ok ⟨true, data.getD 4 0 = 2, data.getD 5 0 = 1,
      some (uintAt (data.getD 5 0 = 1) data 18 2), some interp⟩ := by
  obtain ⟨hl, hm⟩ := h
  unfold parseElf
  dsimp only
  rw [if_neg (by omega), slice_of_le (Nat.zero_le 4) (by omega), ok_bind,
    if_neg (not_not.2 (show between data 0 4 = _ from hm)), byteAt_of_lt (by omega),
    ok_bind, byteAt_of_lt (by omega), ok_bind,
    readUint_of_le (by omega), ok_bind, readTable_eq hl, ok_bind]

theorem parseElf_of_not_isElf (h : ¬IsElf data) :
    parseElf data = .ok ⟨false, false, false, none, none⟩ := by
  unfold parseElf
  by_cases hl : data.length < 64
  · rw [if_pos hl]
  · rw [if_neg hl, slice_of_le (Nat.zero_le 4) (by omega)]
    exact if_pos fun hm => h ⟨Nat.not_lt.1 hl, hm⟩

/-- **Linking mode.** The file is inspected without a fault, and found to be dynamically linked as
its program headers say, exactly when no header that is reached overflows. -/
theorem parseElf_iff (data : Bytes) :
    (∃ info, parseElf data = .ok info ∧ (IsElf data → 8 ≤ (elfOf data).phentsize →
      (info.dynamicallyLinked = some true ↔ (elfOf data).HasInterp data 0))) ↔
    (IsElf data → 8 ≤ (elfOf data).phentsize → ¬(elfOf data).Overflows data 0) := by
  obtain he | he := Classical.em (¬IsElf data)
  · exact iff_of_true ⟨_, parseElf_of_not_isElf he, fun h => absurd h he⟩
      fun h => absurd h he
  rw [parseElf_of_isElf (not_not.1 he), interpIn]
  obtain hs | hs := Classical.em (¬8 ≤ (elfOf data).phentsize)
  · rw [if_neg fun h => hs h.1]
    exact iff_of_true ⟨_, rfl, fun _ h => absurd h hs⟩ fun _ h => absurd h hs
  by_cases hnu : 0 < (elfOf data).phnum
  · have hr := (findInterp_runs (entrySize_elfOf data) (elfOf data).phnum 0
      (Nat.zero_add _) : Runs (findInterp _ data _ _) _ _)
    rw [if_pos ⟨not_not.1 hs, hnu⟩]
    constructor
    · rintro ⟨info, h, -⟩ - - hb
      rw [hr.1 hb] at h
      cases h
    · intro h
      obtain ⟨interp, hi, hif⟩ := hr.2 (h (not_not.1 he) (not_not.1 hs))
      rw [hi]
      exact ⟨_, rfl, fun _ _ => Option.some_inj.trans hif⟩
  · have hn {A B : ℕ → Prop} : ¬Reaches A B 0 (elfOf data).phnum := by
      rintro ⟨k, -, hkn, -⟩
      omega
    rw [if_neg fun h => hnu h.2]
    exact iff_of_true ⟨_, rfl, fun _ _ => iff_of_false nofun hn⟩ fun _ _ => hn

/-- A header whose table starts at the last address. -/
def farTable : Bytes :=
  [0x7f, 0x45, 0x4c, 0x46, 2, 1] ++ List.replicate 26 0 ++ List.replicate 8 0xff ++
    List.replicate 14 0 ++ [56, 0, 1, 0] ++ List.replicate 6 0

theorem parseElf_overflows : farTable.length = 64 ∧ farTable.take 4 = [0x7f, 0x45, 0x4c, 0x46] ∧
      (elfOf farTable).phentsize = 56 ∧ fault? (parseElf farTable) = some .outOfRange := by
  decide +kernel

end BalanSir.Image
