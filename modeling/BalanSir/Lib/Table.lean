/-
# Hash maps

`AList` with the operations of hash maps.
-/

import Mathlib.Data.List.AList

namespace BalanSir.Lib

open List

abbrev Table (κ ν : Type) := AList fun _ : κ => ν

namespace Table

variable {κ ν : Type} [DecidableEq κ] {t : Table κ ν}

def size (t : Table κ ν) : ℕ := t.entries.length

variable (p : κ → ν → Bool)

def retain (t : Table κ ν) : Table κ ν :=
  ⟨t.entries.filter fun e => p e.1 e.2, t.nodupKeys.sublist filter_sublist⟩

theorem lookup_retain (t : Table κ ν) (k : κ) :
    (t.retain p).lookup k = (t.lookup k).filter (p k) := by
  refine Option.ext fun v => ?_
  rw [← Option.mem_def, ← Option.mem_def, AList.mem_lookup_iff, Option.mem_filter_iff,
    AList.mem_lookup_iff]
  exact mem_filter

omit [DecidableEq κ] in
theorem size_eq_length_keys (t : Table κ ν) : t.size = t.keys.length :=
  (length_map ..).symm

omit [DecidableEq κ] in
theorem size_retain_le (t : Table κ ν) : (t.retain p).size ≤ t.size :=
  length_filter_le ..

theorem size_erase_le (k : κ) (t : Table κ ν) : size (t.erase k) ≤ t.size := by
  rw [size_eq_length_keys, size_eq_length_keys, AList.keys_erase]
  exact length_erase_le

theorem size_insert_le (k : κ) (v : ν) (t : Table κ ν) : size (t.insert k v) ≤ t.size + 1 := by
  rw [size_eq_length_keys, size_eq_length_keys, AList.keys_insert]
  exact Nat.succ_le_succ length_erase_le

theorem size_insert_of_isSome {k : κ} (h : (t.lookup k).isSome) (v : ν) :
    size (t.insert k v) = t.size := by
  have hm := AList.lookup_isSome.1 h
  have hp := length_pos_of_mem hm
  rw [size_eq_length_keys, size_eq_length_keys, AList.keys_insert, length_cons,
    length_erase_of_mem hm]
  omega

def update (g : κ → Option ν → ν) (t : Table κ ν) (k : κ) : Table κ ν :=
  t.insert k (g k (t.lookup k))

theorem lookup_foldl_update {g : κ → Option ν → ν} (hg : ∀ k v, g k (some (g k v)) = g k v)
    (ks : List κ) (t : Table κ ν) (k : κ) :
    (k ∈ ks → (ks.foldl (update g) t).lookup k = some (g k (t.lookup k))) ∧
      (k ∉ ks → (ks.foldl (update g) t).lookup k = t.lookup k) := by
  induction ks generalizing t with
  | nil => simp
  | cons k' ks ih =>
    obtain ⟨hm, hn⟩ := ih (update g t k')
    by_cases hk : k = k'
    · subst hk
      rw [update, AList.lookup_insert, hg] at hm
      rw [update, AList.lookup_insert] at hn
      refine ⟨fun _ => ?_, fun h => absurd mem_cons_self h⟩
      by_cases hks : k ∈ ks
      · exact hm hks
      · exact hn hks
    · rw [update, AList.lookup_insert_ne hk] at hm hn
      rw [mem_cons, or_iff_right hk]
      exact ⟨hm, hn⟩

variable (l : List (κ × ν))

def ofList : Table κ ν := l.foldl (fun t e => t.insert e.1 e.2) ∅

omit [DecidableEq κ] in
def toList (t : Table κ ν) : List (κ × ν) := t.entries.map fun e => (e.1, e.2)

theorem mem_toList {e : κ × ν} : e ∈ t.toList ↔ t.lookup e.1 = some e.2 := by
  rw [← Option.mem_def, AList.mem_lookup_iff]
  constructor
  · intro h
    obtain ⟨s, hs, rfl⟩ := List.mem_map.1 h
    exact hs
  · intro h
    exact List.mem_map.2 ⟨⟨e.1, e.2⟩, h, rfl⟩

omit [DecidableEq κ] in
theorem map_fst_toList (t : Table κ ν) : t.toList.map Prod.fst = t.keys := by
  rw [toList, map_map]
  rfl

theorem lookup_foldl_insert (t : Table κ ν) (k : κ) :
    (l.foldl (fun t e => t.insert e.1 e.2) t).lookup k =
      ((l.reverse.find? fun e => e.1 = k).map Prod.snd).or (t.lookup k) := by
  induction l generalizing t with
  | nil => rfl
  | cons e l ih =>
    rw [foldl_cons, ih, reverse_cons, find?_append]
    cases h : l.reverse.find? fun e => e.1 = k with
    | some e' => rfl
    | none =>
      by_cases hk : e.1 = k
      · subst hk
        simp
      · rw [AList.lookup_insert_ne fun h => hk h.symm]
        simp [hk]

theorem lookup_ofList (k : κ) :
    (ofList l).lookup k = (l.reverse.find? fun e => e.1 = k).map Prod.snd := by
  rw [ofList, lookup_foldl_insert, AList.lookup_empty, Option.or_none]

theorem lookup_ofList_toList (t : Table κ ν) (k : κ) : (ofList t.toList).lookup k = t.lookup k := by
  rw [lookup_ofList]
  cases h : t.toList.reverse.find? fun e => e.1 = k with
  | some e =>
    have hk : e.1 = k := by simpa using find?_some h
    have hm := mem_toList.1 (List.mem_reverse.1 (mem_of_find?_eq_some h))
    rw [← hk, hm]
    rfl
  | none =>
    cases hv : t.lookup k with
    | none => rfl
    | some v =>
      have hm : (k, v) ∈ t.toList := mem_toList.2 hv
      have := List.find?_eq_none.1 h (k, v) (List.mem_reverse.2 hm)
      exact absurd (decide_eq_true rfl) this

theorem toList_eq_nil : t.toList = [] ↔ ∀ k, t.lookup k = none := by
  constructor
  · intro h k
    refine Option.eq_none_iff_forall_ne_some.2 fun v hv => ?_
    have hm : (k, v) ∈ t.toList := mem_toList.2 hv
    exact absurd hm (by rw [h]; exact not_mem_nil)
  · intro h
    refine List.eq_nil_iff_forall_not_mem.2 fun e he => ?_
    exact Option.some_ne_none _ ((mem_toList.1 he).symm.trans (h e.1))

theorem toList_ofList_eq_nil {l : List (κ × ν)} : (ofList l).toList = [] ↔ l = [] := by
  refine toList_eq_nil.trans ⟨fun h => ?_, fun h => by rw [h]; exact fun _ => rfl⟩
  refine List.eq_nil_iff_forall_not_mem.2 fun e he => ?_
  have hn := h e.1
  rw [lookup_ofList, Option.map_eq_none_iff, find?_eq_none] at hn
  exact hn e (List.mem_reverse.2 he) (decide_eq_true rfl)

def same [DecidableEq ν] (s t : Table κ ν) : Bool :=
  s.size = t.size && s.toList.all fun e => t.lookup e.1 = some e.2

theorem same_iff [DecidableEq ν] {s t : Table κ ν} : s.same t ↔ ∀ k, s.lookup k = t.lookup k := by
  rw [same, Bool.and_eq_true, decide_eq_true_iff, all_eq_true]
  constructor
  · rintro ⟨hsi, ha⟩ k
    have hle : ∀ k v, s.lookup k = some v → t.lookup k = some v := fun k v h => by
      simpa using ha (k, v) (mem_toList.2 h)
    -- The keys of `s` are keys of `t`, and as many: they are all of them.
    have hsu : s.keys ⊆ t.keys := fun j hj => by
      obtain ⟨v, hv⟩ := Option.isSome_iff_exists.1 (AList.lookup_isSome.2 hj)
      exact AList.lookup_isSome.1 (by rw [hle j v hv]; rfl)
    have hp : s.keys.Perm t.keys := by
      refine (subperm_of_subset s.keys_nodup hsu).perm_of_length_le ?_
      rw [← size_eq_length_keys, ← size_eq_length_keys, hsi]
    cases hk : s.lookup k with
    | some v => exact (hle k v hk).symm
    | none =>
      have hs := AList.lookup_eq_none.1 hk
      exact (AList.lookup_eq_none.2 fun ht => hs (hp.mem_iff.2 ht)).symm
  · intro h
    refine ⟨?_, fun e he => by simpa [← h] using mem_toList.1 he⟩
    have hm : ∀ k, k ∈ s.keys ↔ k ∈ t.keys := fun k => by
      rw [← AList.mem_keys, ← AList.mem_keys, ← AList.lookup_isSome, ← AList.lookup_isSome, h]
    rw [size_eq_length_keys, size_eq_length_keys]
    exact ((perm_ext_iff_of_nodup s.keys_nodup t.keys_nodup).2 hm).length_eq

end Table

/-- An order in which the entries of a map, or its keys, come out of an iteration. -/
structure Walk (α : Type) where
  arrange : List α → List α
  perm : ∀ l, (arrange l).Perm l

namespace Walk

variable {α : Type}

def inOrder : Walk α := ⟨id, fun l => .refl l⟩

@[simp] theorem mem_arrange (w : Walk α) {l : List α} {a : α} : a ∈ w.arrange l ↔ a ∈ l :=
  (w.perm l).mem_iff

end Walk

end BalanSir.Lib
