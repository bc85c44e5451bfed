/-
# One's-complement sums

Sums with end-around carry, and when a checksum field makes one correct.
-/

import BalanSir.Lib.Checked

namespace BalanSir.Lib

open List

/-- The sum of the big-endian words, an odd byte as the high one. -/
def wordSum : Bytes → ℕ
  | [] => 0
  | [a] => a.toNat * 256
  | a :: b :: rest => be16 a b + wordSum rest

def foldCarry (sum : ℕ) : Checked ℕ :=
  rounds (fun sum => if sum / 65536 ≠ 0 then .ok (.inl (sum % 65536 + sum / 65536))
    else .ok (.inr sum)) (sum / 65535 + 1) sum

/-- What adding the carries comes to. -/
def folded (sum : ℕ) : ℕ := if sum = 0 then 0 else (sum - 1) % 65535 + 1

variable {sum : ℕ}

theorem folded_of_lt (h : sum < 65536) : folded sum = sum := by
  unfold folded
  split_ifs <;> omega

theorem folded_carry (sum : ℕ) : folded (sum % 65536 + sum / 65536) = folded sum := by
  have hm : sum - 1 = 65535 * (sum / 65536) + (sum % 65536 + sum / 65536 - 1) ∨ sum = 0 := by
    omega
  unfold folded
  split_ifs with h₁ h₂ h₂
  · rfl
  · omega
  · omega
  · rw [hm.resolve_right h₂, Nat.mul_add_mod]

theorem foldCarry_eq (sum : ℕ) : foldCarry sum = .ok (folded sum) := by
  have hr : Runs (foldCarry sum) False (· = folded sum) := by
    refine Runs.rounds (fun s => s / 65535) (fun _ => False)
      (I := fun s => folded s = folded sum) ?_ rfl (Nat.lt_succ_self _)
    intro s hs
    split_ifs with hc
    · refine ⟨(folded_carry s).trans hs, ?_, Iff.rfl⟩
      show (s % 65536 + s / 65536) / 65535 < s / 65535
      omega
    · exact ⟨id, by rw [← hs, folded_of_lt (by omega)]⟩
  obtain ⟨a, ha, rfl⟩ := hr.2 id
  exact ha

theorem folded_lt (sum : ℕ) : folded sum < 65536 := by
  unfold folded
  split_ifs <;> omega

theorem folded_mod (sum : ℕ) : folded sum % 65535 = sum % 65535 := by
  unfold folded
  split_ifs <;> omega

theorem folded_eq_ones (h : 0 < sum) : folded sum = 65535 ↔ sum % 65535 = 0 := by
  unfold folded
  split_ifs <;> omega

theorem folded_complement (sum : ℕ) : folded (sum + (65535 - folded sum)) = 65535 := by
  have hm := folded_mod sum
  have hlt := folded_lt sum
  have hp : 0 < sum + (65535 - folded sum) := by
    rcases Nat.eq_zero_or_pos sum with rfl | h
    · decide
    · omega
  rw [folded_eq_ones hp]
  omega

theorem folded_complement_stale (h : 0 < sum) (stale : ℕ) :
    folded (sum + (65535 - folded (sum + stale))) = 65535 ↔ stale % 65535 = 0 := by
  have hm := folded_mod (sum + stale)
  have hlt := folded_lt (sum + stale)
  rw [folded_eq_ones (by omega)]
  omega

theorem wordSum_append {xs : Bytes} (h : xs.length % 2 = 0) (ys : Bytes) :
    wordSum (xs ++ ys) = wordSum xs + wordSum ys := by
  induction xs using wordSum.induct with
  | case1 => simp [wordSum]
  | case2 a => simp at h
  | case3 a b rest ih =>
    have hr : rest.length % 2 = 0 := by
      simp only [length_cons] at h
      omega
    rw [cons_append, cons_append, wordSum, wordSum, ih hr, Nat.add_assoc]

theorem wordSum_concat (xs : Bytes) (a : UInt8) :
    wordSum (xs ++ [a]) = wordSum xs + if xs.length % 2 = 0 then a.toNat * 256 else a.toNat := by
  induction xs using wordSum.induct with
  | case1 => simp [wordSum]
  | case2 b => simp [wordSum, be16]
  | case3 b c rest ih =>
    have hp : (b :: c :: rest).length % 2 = rest.length % 2 := by
      simp only [length_cons]
      omega
    rw [cons_append, cons_append, wordSum, wordSum, ih, hp, Nat.add_assoc]

variable (bs : Bytes)

theorem wordSum_take_drop (k : ℕ) : wordSum ((bs.drop k).take 2) = wordAt bs k := by
  have hw := wordAt_drop bs k 0
  rw [Nat.add_zero] at hw
  rw [← hw, wordAt]
  rcases bs.drop k with _ | ⟨a, _ | ⟨b, rest⟩⟩ <;> simp [wordSum, be16]

theorem wordSum_split {bs : Bytes} {k : ℕ} (hk : k % 2 = 0) (h : k + 2 ≤ bs.length) :
    wordSum bs = wordSum (bs.take k) + (wordAt bs k + wordSum (bs.drop (k + 2))) := by
  have hl : (bs.take k).length % 2 = 0 := by
    rw [length_take]
    omega
  have hl' : ((bs.drop k).take 2).length % 2 = 0 := by
    rw [length_take, length_drop]
    omega
  rw [← wordSum_take_drop, ← drop_drop, ← wordSum_append hl', take_append_drop,
    ← wordSum_append hl, take_append_drop]

def sumWords (start len sum : ℕ) : Checked ℕ :=
  (List.range ((len + 1) / 2)).foldlM (fun sum j => do
    let hi ← byteAt bs (start + 2 * j)
    let lo ← (if 2 * j + 1 < len then byteAt bs (start + 2 * j + 1) else .ok 0 : Checked UInt8)
    return sum + be16 hi lo) sum

theorem foldl_words (n sum : ℕ) : (List.range n).foldl (fun sum j => sum + wordAt bs (2 * j)) sum =
      sum + wordSum (bs.take (2 * n)) := by
  induction n with
  | zero => simp [wordSum]
  | succ n ih =>
    rw [range_succ, foldl_append, ih, Nat.mul_succ, take_add]
    simp only [foldl_cons, foldl_nil]
    rcases Nat.lt_or_ge (2 * n) bs.length with h | h
    · have hl : (bs.take (2 * n)).length % 2 = 0 := by
        rw [length_take]
        omega
      rw [wordSum_append hl, wordSum_take_drop, Nat.add_assoc]
    · have hz : wordAt bs (2 * n) = 0 := by
        rw [← wordSum_take_drop, drop_of_length_le h]
        rfl
      rw [hz, drop_of_length_le h, take_nil, append_nil, Nat.add_zero]

theorem sumWords_eq {bs : Bytes} {start len : ℕ} (h : start + len = bs.length) (sum : ℕ) :
    sumWords bs start len sum = .ok (sum + wordSum (bs.drop start)) := by
  have ha : (bs.drop start).take (2 * ((len + 1) / 2)) = bs.drop start :=
    take_of_length_le (by rw [length_drop]; omega)
  rw [← ha, ← foldl_words]
  refine foldlM_eq_ok (fun sum j hj => ?_) sum
  rw [mem_range] at hj
  rw [byteAt_of_lt (by omega), wordAt_drop, wordAt]
  split_ifs with ho
  · rw [byteAt_of_lt (by omega)]
    rfl
  · have hp : bs.getD (start + 2 * j + 1) 0 = 0 := getD_eq_default _ _ (by omega)
    rw [hp]
    rfl

theorem foldl_bytes (n sum : ℕ) (h : n ≤ bs.length) : (List.range n).foldl (fun sum i =>
      sum + if i % 2 = 0 then (bs.getD i 0).toNat * 256 else (bs.getD i 0).toNat) sum =
      sum + wordSum (bs.take n) := by
  induction n with
  | zero => simp [wordSum]
  | succ n ih =>
    have hl : (bs.take n).length = n := by
      rw [length_take]
      omega
    have ht : bs.take (n + 1) = bs.take n ++ [bs.getD n 0] := by
      rw [getD_eq_getElem _ _ (by omega), take_append_getElem]
    rw [range_succ, foldl_append, ih (by omega), ht, wordSum_concat, hl]
    simp only [foldl_cons, foldl_nil]
    rw [Nat.add_assoc]

end BalanSir.Lib
