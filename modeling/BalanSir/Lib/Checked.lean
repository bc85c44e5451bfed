/-
# Checked access to bytes

Programs over bytes that read out of range or go on, and rules for their results and loops.
-/

import Mathlib.Data.List.GetD
import Mathlib.Tactic.SplitIfs

namespace BalanSir.Lib

open List

abbrev Bytes := List UInt8

inductive Fault
  | outOfRange
  | unfinished
deriving DecidableEq

abbrev Checked := Except Fault

variable {α β σ : Type} {m : Checked α}

@[simp] theorem ok_bind (a : α) (f : α → Checked β) : (Except.ok a >>= f) = f a := rfl

@[simp] theorem error_bind (e : Fault) (f : α → Checked β) : (Except.error e >>= f) = .error e :=
  rfl

@[simp] theorem pure_eq_ok (a : α) : (pure a : Checked α) = .ok a := rfl

theorem bind_eq_ok {ε : Type} {m : Except ε α} {f : α → Except ε β} {b : β} :
    m >>= f = .ok b ↔ ∃ a, m = .ok a ∧ f a = .ok b := by
  cases m with
  | error e => exact ⟨nofun, nofun⟩
  | ok a => exact ⟨fun h => ⟨a, rfl, h⟩, fun ⟨_, ha, h⟩ => by cases ha; exact h⟩

def fault? : Checked α → Option Fault
  | .ok _ => none
  | .error fault => some fault

theorem fault?_eq_some {fault : Fault} : fault? m = some fault ↔ m = .error fault := by
  cases m with
  | error fault' => simp [fault?]
  | ok a => simp [fault?]

theorem exists_eq_ok {f : α → β} {b : β} (h : m.toOption.map f = some b) :
    ∃ a, m = .ok a ∧ f a = b := by
  cases m with
  | error fault => cases h
  | ok a => exact ⟨a, rfl, Option.some.inj h⟩

def byteAt (bs : Bytes) (i : ℕ) : Checked UInt8 :=
  match bs[i]? with
  | some b => .ok b
  | none => .error .outOfRange

def between (bs : Bytes) (i j : ℕ) : Bytes := (bs.take j).drop i

def slice (bs : Bytes) (i j : ℕ) : Checked Bytes :=
  if i ≤ j ∧ j ≤ bs.length then .ok (between bs i j) else .error .outOfRange

def patch (bs : Bytes) (i : ℕ) (src : Bytes) : Bytes :=
  bs.take i ++ (src ++ bs.drop (i + src.length))

def copyAt (bs : Bytes) (i : ℕ) (src : Bytes) : Checked Bytes :=
  if i + src.length ≤ bs.length then .ok (patch bs i src) else .error .outOfRange

def be16 (hi lo : UInt8) : ℕ := hi.toNat * 256 + lo.toNat

def be16Bytes (n : ℕ) : Bytes := [UInt8.ofNat (n / 256), UInt8.ofNat n]

def be32Bytes (n : ℕ) : Bytes := be16Bytes (n / 65536) ++ be16Bytes n

def le16Bytes (n : ℕ) : Bytes := [UInt8.ofNat n, UInt8.ofNat (n / 256)]

def le32Bytes (n : ℕ) : Bytes := le16Bytes n ++ le16Bytes (n / 65536)

def u16At (bs : Bytes) (i : ℕ) : Checked ℕ := do
  let hi ← byteAt bs i
  let lo ← byteAt bs (i + 1)
  return be16 hi lo

def u32At (bs : Bytes) (i : ℕ) : Checked ℕ := do
  let hi ← u16At bs i
  let lo ← u16At bs (i + 2)
  return hi * 65536 + lo

def leU16At (bs : Bytes) (i : ℕ) : Checked ℕ := do
  let lo ← byteAt bs i
  let hi ← byteAt bs (i + 1)
  return be16 hi lo

def leU32At (bs : Bytes) (i : ℕ) : Checked ℕ := do
  let lo ← leU16At bs i
  let hi ← leU16At bs (i + 2)
  return hi * 65536 + lo

def wordAt (bs : Bytes) (i : ℕ) : ℕ := be16 (bs.getD i 0) (bs.getD (i + 1) 0)

def leWordAt (bs : Bytes) (i : ℕ) : ℕ := be16 (bs.getD (i + 1) 0) (bs.getD i 0)

variable {bs : Bytes} {i j : ℕ}

theorem byteAt_of_lt (h : i < bs.length) : byteAt bs i = .ok (bs.getD i 0) := by
  simp [byteAt, h]

theorem byteAt_of_le (h : bs.length ≤ i) : byteAt bs i = .error .outOfRange := by
  simp [byteAt, h]

theorem slice_of_le (hij : i ≤ j) (h : j ≤ bs.length) : slice bs i j = .ok (between bs i j) :=
  if_pos ⟨hij, h⟩

theorem slice_take {n : ℕ} (hj : j ≤ n) (hn : n ≤ bs.length) :
    slice (bs.take n) i j = slice bs i j := by
  have hb : between (bs.take n) i j = between bs i j := by
    rw [between, take_take, Nat.min_eq_left hj, between]
  rw [slice, hb, length_take, Nat.min_eq_left hn]
  refine if_congr (and_congr_right fun _ => ?_) rfl rfl
  exact iff_of_true hj (Nat.le_trans hj hn)

theorem between_to_end (bs : Bytes) (i : ℕ) : between bs i bs.length = bs.drop i := by
  rw [between, take_length]

theorem slice_to_end (h : i ≤ bs.length) : slice bs i bs.length = .ok (bs.drop i) := by
  rw [slice_of_le h (Nat.le_refl _), between_to_end]

theorem copyAt_of_le {src : Bytes} (h : i + src.length ≤ bs.length) :
    copyAt bs i src = .ok (patch bs i src) :=
  if_pos h

theorem u16At_of_lt (h : i + 1 < bs.length) : u16At bs i = .ok (wordAt bs i) := by
  rw [u16At, byteAt_of_lt (by omega), byteAt_of_lt h]
  rfl

theorem u32At_of_lt (h : i + 3 < bs.length) :
    u32At bs i = .ok (wordAt bs i * 65536 + wordAt bs (i + 2)) := by
  rw [u32At, u16At_of_lt (by omega), u16At_of_lt (by omega)]
  rfl

theorem leU16At_of_lt (h : i + 1 < bs.length) : leU16At bs i = .ok (leWordAt bs i) := by
  rw [leU16At, byteAt_of_lt (by omega), byteAt_of_lt h]
  rfl

theorem leU32At_of_lt (h : i + 3 < bs.length) :
    leU32At bs i = .ok (leWordAt bs (i + 2) * 65536 + leWordAt bs i) := by
  rw [leU32At, leU16At_of_lt (by omega), leU16At_of_lt (by omega)]
  rfl

theorem be16_lt (hi lo : UInt8) : be16 hi lo < 65536 := by
  have := hi.toNat_lt
  have := lo.toNat_lt
  unfold be16
  omega

theorem wordAt_lt (bs : Bytes) (i : ℕ) : wordAt bs i < 65536 := be16_lt _ _

theorem leWordAt_lt (bs : Bytes) (i : ℕ) : leWordAt bs i < 65536 := be16_lt _ _

theorem be16_be16Bytes (n : ℕ) : be16 (UInt8.ofNat (n / 256)) (UInt8.ofNat n) = n % 65536 := by
  simp only [be16, UInt8.toNat_ofNat']
  omega

theorem getD_drop (bs : Bytes) (i j : ℕ) : (bs.drop i).getD j 0 = bs.getD (i + j) 0 := by
  rw [getD_eq_getElem?_getD, getD_eq_getElem?_getD, getElem?_drop]

theorem wordAt_drop (bs : Bytes) (i j : ℕ) : wordAt (bs.drop i) j = wordAt bs (i + j) := by
  rw [wordAt, getD_drop, getD_drop, wordAt, Nat.add_assoc]

theorem length_between (h : j ≤ bs.length) : (between bs i j).length = j - i := by
  rw [between, length_drop, length_take, Nat.min_eq_left h]

theorem between_of_le (h : j ≤ i) : between bs i j = [] := by
  rw [between, drop_eq_nil_iff, length_take]
  omega

@[simp] theorem between_self (bs : Bytes) (i : ℕ) : between bs i i = [] :=
  between_of_le (Nat.le_refl i)

variable {k : ℕ}

theorem between_append (hij : i ≤ j) (hjk : j ≤ k) :
    between bs i j ++ between bs j k = between bs i k := by
  have ht : bs.take j = (bs.take k).take j := by rw [take_take, Nat.min_eq_left hjk]
  obtain ⟨d, rfl⟩ := Nat.exists_eq_add_of_le hij
  rw [between, between, between, ht, drop_take, Nat.add_sub_cancel_left,
    ← drop_drop, take_append_drop]

theorem between_eq_cons (hij : i < j) (h : j ≤ bs.length) :
    between bs i j = bs.getD i 0 :: between bs (i + 1) j := by
  have hi : i < (bs.take j).length := by
    rw [length_take]
    omega
  have hg : (bs.take j)[i] = bs.getD i 0 := by
    rw [getElem_take, getD_eq_getElem _ _ (by omega)]
  rw [between, drop_eq_getElem_cons hi, hg, between]

@[simp] theorem length_be16Bytes (n : ℕ) : (be16Bytes n).length = 2 := rfl

@[simp] theorem length_be32Bytes (n : ℕ) : (be32Bytes n).length = 4 := rfl

section Patch

variable {src : Bytes} {front : Bytes}

theorem length_patch (h : i + src.length ≤ bs.length) : (patch bs i src).length = bs.length := by
  simp only [patch, length_append, length_take, length_drop]
  omega

theorem getD_patch_of_lt (h : i ≤ bs.length) (hj : j < i) (d : UInt8) :
    (patch bs i src).getD j d = bs.getD j d := by
  have hl : j < (bs.take i).length := by
    rw [length_take]
    omega
  rw [patch, getD_append _ _ _ _ hl, getD_eq_getElem?_getD,
    getD_eq_getElem?_getD, getElem?_take_of_lt hj]

theorem drop_patch (h : i + src.length ≤ bs.length) (hj : i + src.length ≤ j) :
    (patch bs i src).drop j = bs.drop j := by
  have hl : (bs.take i).length = i := by
    rw [length_take]
    omega
  obtain ⟨k, rfl⟩ := Nat.exists_eq_add_of_le hj
  rw [patch, Nat.add_assoc, ← drop_drop, drop_left' hl, ← drop_drop,
    drop_left, drop_drop, Nat.add_assoc]

theorem getD_patch_of_ge (h : i + src.length ≤ bs.length) (hj : i + src.length ≤ j) (d : UInt8) :
    (patch bs i src).getD j d = bs.getD j d := by
  have hd := congrArg (fun l => l.getD 0 d) (drop_patch h hj)
  simpa [getD_eq_getElem?_getD] using hd

theorem getD_patch_add (h : i ≤ bs.length) (hk : k < src.length) (d : UInt8) :
    (patch bs i src).getD (i + k) d = src.getD k d := by
  have hl : (bs.take i).length = i := by
    rw [length_take]
    omega
  rw [patch, getD_append_right _ _ _ _ (by omega), hl, Nat.add_sub_cancel_left,
    getD_append _ _ _ _ hk]

theorem take_patch_of_le (h : i ≤ bs.length) (hj : j ≤ i) :
    (patch bs i src).take j = bs.take j := by
  have hl : j ≤ (bs.take i).length := by
    rw [length_take]
    omega
  rw [patch, take_append_of_le_length hl, take_take, Nat.min_eq_left hj]

theorem between_patch_of_le (h : i ≤ bs.length) (hk : k ≤ i) :
    between (patch bs i src) j k = between bs j k := by
  rw [between, take_patch_of_le h hk, between]

theorem between_patch_of_ge (h : i + src.length ≤ bs.length) (hj : i + src.length ≤ j) :
    between (patch bs i src) j k = between bs j k := by
  rw [between, between, drop_take, drop_take, drop_patch h hj]

theorem between_patch_self (h : i ≤ bs.length) :
    between (patch bs i src) i (i + src.length) = src := by
  have hl := length_take_of_le h
  rw [between, drop_take, Nat.add_sub_cancel_left, patch, drop_left' hl, take_left]

theorem patch_append {front old back : Bytes} (h : old.length = src.length) :
    patch (front ++ (old ++ back)) front.length src = front ++ (src ++ back) := by
  rw [patch, take_left, ← drop_drop, drop_left, ← h, drop_left]

theorem patch_append_left (h : i + src.length ≤ front.length) (back : Bytes) :
    patch (front ++ back) i src = patch front i src ++ back := by
  rw [patch, patch, take_append_of_le_length (by omega), drop_append_of_le_length h,
    append_assoc, append_assoc]

theorem patch_append_right (front back : Bytes) (i : ℕ) (src : Bytes) :
    patch (front ++ back) (front.length + i) src = front ++ patch back i src := by
  rw [patch, patch, take_length_add_append, Nat.add_assoc, drop_length_add_append, append_assoc]

theorem between_patch (h : i + j + src.length ≤ k) (hk : k ≤ bs.length) :
    between (patch bs (i + j) src) i k = patch (between bs i k) j src := by
  have hf : (between bs i (i + j)).length = j := by
    rw [length_between (by omega)]
    omega
  have ho : (between bs (i + j) (i + j + src.length)).length = src.length := by
    rw [length_between (by omega)]
    omega
  have hs (bs : Bytes) : between bs i k = between bs i (i + j) ++
      (between bs (i + j) (i + j + src.length) ++ between bs (i + j + src.length) k) := by
    rw [between_append (by omega) h, between_append (by omega) (by omega)]
  have := @patch_append src (between bs i (i + j)) _ (between bs (i + j + src.length) k) ho
  rw [hf, ← hs] at this
  rw [this, hs, between_patch_of_le (by omega) (Nat.le_refl _),
    between_patch_self (by omega), between_patch_of_ge (by omega) (Nat.le_refl _)]

theorem patch_patch (h : i + src.length ≤ bs.length) :
    patch (patch bs i src) i src = patch bs i src := by
  have ht : (patch bs i src).take i = bs.take i := take_patch_of_le (by omega) (Nat.le_refl i)
  rw [patch, ht, drop_patch h (Nat.le_refl _), patch]

theorem wordAt_patch_be16Bytes (h : i ≤ bs.length) (n : ℕ) :
    wordAt (patch bs i (be16Bytes n)) i = n % 65536 := by
  have hf : (patch bs i (be16Bytes n)).getD (i + 0) 0 = UInt8.ofNat (n / 256) :=
    getD_patch_add h (Nat.zero_lt_succ 1) 0
  have hs : (patch bs i (be16Bytes n)).getD (i + 1) 0 = UInt8.ofNat n :=
    getD_patch_add h (Nat.lt_succ_self 1) 0
  rw [Nat.add_zero] at hf
  rw [wordAt, hf, hs, be16_be16Bytes]

theorem wordAt_patch_of_lt (h : i ≤ bs.length) (hj : j + 1 < i) :
    wordAt (patch bs i src) j = wordAt bs j := by
  rw [wordAt, getD_patch_of_lt h (by omega), getD_patch_of_lt h hj, wordAt]

theorem wordAt_patch_of_ge (h : i + src.length ≤ bs.length) (hj : i + src.length ≤ j) :
    wordAt (patch bs i src) j = wordAt bs j := by
  rw [wordAt, getD_patch_of_ge h hj, getD_patch_of_ge h (by omega), wordAt]

theorem copyAt_append_left (h : i + src.length ≤ front.length) (back : Bytes) :
    copyAt (front ++ back) i src = .ok (patch front i src ++ back) := by
  have hin : i + src.length ≤ (front ++ back).length := by
    rw [length_append]
    omega
  rw [copyAt_of_le hin, patch_append_left h]

theorem copyAt_append_right {front back : Bytes} (hj : front.length + i = j)
    (h : i + src.length ≤ back.length) :
    copyAt (front ++ back) j src = .ok (front ++ patch back i src) := by
  have hin : j + src.length ≤ (front ++ back).length := by
    rw [length_append]
    omega
  rw [copyAt_of_le hin, ← hj, patch_append_right]

variable {bs' : Bytes}

theorem copyAt_eq_ok (h : copyAt bs i src = .ok bs') :
    i + src.length ≤ bs.length ∧ bs' = patch bs i src := by
  unfold copyAt at h
  split_ifs at h with hin
  exact ⟨hin, (Except.ok.inj h).symm⟩

theorem getD_copyAt (h : copyAt bs i src = .ok bs') (hj : j < i ∨ i + src.length ≤ j) (d : UInt8) :
    bs'.getD j d = bs.getD j d := by
  obtain ⟨hin, rfl⟩ := copyAt_eq_ok h
  rcases hj with hj | hj
  · exact getD_patch_of_lt (by omega) hj d
  · exact getD_patch_of_ge hin hj d

variable {b : UInt8}

theorem getD_copyAt_self (h : copyAt bs i [b] = .ok bs') : bs'.getD i 0 = b := by
  obtain ⟨hin, rfl⟩ := copyAt_eq_ok h
  have hs : (patch bs i [b]).getD (i + 0) 0 = b :=
    getD_patch_add (by omega) (Nat.zero_lt_succ 0) 0
  exact hs

end Patch

def FromOn (bs : Bytes) (i : ℕ) (rest : Bytes) : Prop := i ≤ bs.length ∧ bs.drop i = rest

section FromOn

variable {front rest : Bytes}

theorem fromOn_zero (bs : Bytes) : FromOn bs 0 bs := ⟨Nat.zero_le _, rfl⟩

theorem FromOn.length (h : FromOn bs i rest) : i + rest.length = bs.length := by
  rw [← h.2, length_drop]
  have := h.1
  omega

theorem FromOn.skip (h : FromOn bs i (front ++ rest)) : FromOn bs (i + front.length) rest := by
  have hl := h.length
  rw [length_append] at hl
  refine ⟨by omega, ?_⟩
  rw [← drop_drop, h.2, drop_left]

theorem FromOn.skip_to (h : FromOn bs i (front ++ rest)) (hj : i + front.length = j) :
    FromOn bs j rest :=
  hj ▸ h.skip

theorem FromOn.slice (h : FromOn bs i (front ++ rest)) :
    slice bs i (i + front.length) = .ok front := by
  have hl := h.length
  rw [length_append] at hl
  rw [slice_of_le (Nat.le_add_right ..) (by omega), between, drop_take, h.2,
    Nat.add_sub_cancel_left, take_left]

theorem FromOn.getD (h : FromOn bs i (b :: rest)) : bs.getD i 0 = b := by
  have hg := getD_drop bs i 0
  rw [h.2] at hg
  exact hg.symm

theorem FromOn.byteAt (h : FromOn bs i (b :: rest)) : byteAt bs i = .ok b := by
  have hl := h.length
  rw [length_cons] at hl
  rw [byteAt_of_lt (by omega), h.getD]

theorem FromOn.tail (h : FromOn bs i (b :: rest)) : FromOn bs (i + 1) rest :=
  @FromOn.skip bs i [b] rest h

variable {n : ℕ}

theorem FromOn.leU16At (h : FromOn bs i (le16Bytes n ++ rest)) :
    leU16At bs i = .ok (n % 65536) := by
  have hf : FromOn bs i (UInt8.ofNat n :: UInt8.ofNat (n / 256) :: rest) := h
  rw [Lib.leU16At, hf.byteAt, ok_bind, hf.tail.byteAt, ok_bind, be16_be16Bytes]
  rfl

theorem FromOn.leU32At (hn : n < 4294967296) (h : FromOn bs i (le32Bytes n ++ rest)) :
    leU32At bs i = .ok n := by
  rw [le32Bytes, append_assoc] at h
  have hs : FromOn bs (i + 2) (le16Bytes (n / 65536) ++ rest) := h.skip
  rw [Lib.leU32At, h.leU16At, ok_bind, hs.leU16At, ok_bind]
  congr 1
  omega

theorem FromOn.wordAt (hn : n < 65536) (h : FromOn bs i (be16Bytes n ++ rest)) :
    wordAt bs i = n := by
  have hf : FromOn bs i (UInt8.ofNat (n / 256) :: UInt8.ofNat n :: rest) := h
  rw [Lib.wordAt, hf.getD, hf.tail.getD, be16_be16Bytes, Nat.mod_eq_of_lt hn]

end FromOn

def Runs (m : Checked α) (bad : Prop) (Q : α → Prop) : Prop :=
  (bad → m = .error .outOfRange) ∧ (¬bad → ∃ a, m = .ok a ∧ Q a)

variable {m : Checked α} {bad bad' : Prop} {P Q : α → Prop} {a : α}

theorem runs_ok (h : Q a) : Runs (.ok a) False Q :=
  ⟨False.elim, fun _ => ⟨a, rfl, h⟩⟩

theorem Runs.of_eq_ok (h : m = .ok a) (ha : Q a) : Runs m False Q := h ▸ runs_ok ha

theorem Runs.imp (h : Runs m bad P) (hba : bad ↔ bad') (hPQ : ∀ a, ¬bad → P a → Q a) :
    Runs m bad' Q := by
  refine ⟨fun hb => h.1 (hba.2 hb), fun hb => ?_⟩
  have hn : ¬bad := fun hb' => hb (hba.1 hb')
  obtain ⟨a, ha, hp⟩ := h.2 hn
  exact ⟨a, ha, hPQ a hn hp⟩

theorem Runs.of_ok (h : Runs m bad Q) (ha : m = .ok a) : ¬bad ∧ Q a := by
  have hn : ¬bad := fun hb => by simp [h.1 hb] at ha
  obtain ⟨b, hb, hq⟩ := h.2 hn
  obtain rfl : b = a := Except.ok.inj (hb.symm.trans ha)
  exact ⟨hn, hq⟩

variable {f : α → Checked β} {R : β → Prop} {body : σ → Checked (σ ⊕ α)}

theorem Runs.bind (h : Runs m bad P) (hf : ∀ a, ¬bad → P a → Runs (f a) bad' R) :
    Runs (m >>= f) (bad ∨ ¬bad ∧ bad') R := by
  by_cases hb : bad
  · refine ⟨fun _ => ?_, fun hn => absurd (.inl hb) hn⟩
    rw [h.1 hb, error_bind]
  · obtain ⟨a, rfl, ha⟩ := h.2 hb
    have := hf a hb ha
    refine ⟨fun hb' => ?_, fun hn => ?_⟩
    · rcases hb' with hb' | ⟨-, hb'⟩
      · exact absurd hb' hb
      · rw [ok_bind, this.1 hb']
    · obtain ⟨b, hfb, hr⟩ := this.2 fun hb' => hn (.inr ⟨hb, hb'⟩)
      exact ⟨b, by rw [ok_bind, hfb], hr⟩

theorem Runs.then (h : Runs m False P) (hf : ∀ a, P a → Runs (f a) bad R) : Runs (m >>= f) bad R :=
  (h.bind fun a _ ha => hf a ha).imp (by simp) fun _ _ hr => hr

theorem Runs.finish (h : Runs m bad P) (hf : ∀ a, ¬bad → P a → Runs (f a) False R) :
    Runs (m >>= f) bad R :=
  (h.bind hf).imp (by simp) fun _ _ hr => hr

def rounds (body : σ → Checked (σ ⊕ α)) : ℕ → σ → Checked α
  | 0, _ => .error .unfinished
  | n + 1, s => do
    match ← body s with
    | .inl s => rounds body n s
    | .inr a => return a

theorem rounds_end {s : σ} {a : α} (h : body s = .ok (.inr a))
    (n : ℕ) : rounds body (n + 1) s = .ok a := by
  rw [rounds, h]
  rfl

def RoundOk (I : σ → Prop) (w : σ → ℕ) (bad : σ → Prop) (Q : α → Prop) (s : σ) :
    Checked (σ ⊕ α) → Prop
  | .error e => e = .outOfRange ∧ bad s
  | .ok (.inl s') => I s' ∧ w s' < w s ∧ (bad s ↔ bad s')
  | .ok (.inr a) => ¬bad s ∧ Q a

/-- **The rule of loops.**  `w` says how far the end is. -/
theorem Runs.rounds {I : σ → Prop} (w : σ → ℕ) (bad : σ → Prop)
    (h : ∀ s, I s → RoundOk I w bad Q s (body s)) {s : σ} (hs : I s) (hn : w s < n) :
    Runs (Lib.rounds body n s) (bad s) Q := by
  induction n generalizing s with
  | zero => exact absurd hn (Nat.not_lt_zero _)
  | succ n ih =>
    have hr := h s hs
    rw [Lib.rounds]
    rcases hb : body s with e | s' | a <;> rw [hb] at hr
    · obtain ⟨rfl, hba⟩ := hr
      exact ⟨fun _ => rfl, fun hno => absurd hba hno⟩
    · obtain ⟨hI, hw, hba⟩ := hr
      have hre := ih hI (by omega)
      exact hre.imp hba.symm fun _ _ hq => hq
    · obtain ⟨hba, hq⟩ := hr
      exact ⟨fun hb => absurd hb hba, fun _ => ⟨a, rfl, hq⟩⟩

theorem Runs.foldlM {f : β → α → Checked β} {bad : α → Prop} {R : List α → β → Prop}
    (h : ∀ done b a, R done b → Runs (f b a) (bad a) (R (done ++ [a]))) (l done : List α)
    {b : β} (hb : R done b) : Runs (l.foldlM f b) (∃ a ∈ l, bad a) (R (done ++ l)) := by
  induction l generalizing done b with
  | nil =>
    rw [append_nil]
    exact (runs_ok hb).imp (by simp) fun _ _ hr => hr
  | cons a l ih =>
    refine ((h done b a hb).bind fun b' _ hb' => ih (done ++ [a]) hb').imp
      (by simp [or_and_left, Classical.em]) fun b' _ hr => ?_
    rwa [append_assoc] at hr

theorem foldlM_eq_ok {f : β → α → Checked β} {g : β → α → β} {l : List α}
    (h : ∀ b, ∀ a ∈ l, f b a = .ok (g b a)) (b : β) : l.foldlM f b = .ok (l.foldl g b) := by
  induction l generalizing b with
  | nil => rfl
  | cons a l ih =>
    rw [foldlM_cons, h b a mem_cons_self]
    exact ih (fun b a' ha' => h b a' (mem_cons_of_mem a ha')) (g b a)

end BalanSir.Lib
