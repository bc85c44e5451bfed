/-
# Lists whose entries carry a key

Lookup, insertion and removal by key, with distinct keys.
-/

import Mathlib.Data.List.Basic
import Mathlib.Data.List.Nodup

namespace BalanSir.Lib

open List

variable {α κ : Type*} [DecidableEq κ] (key : α → κ)

def tagged (k : κ) (l : List α) : List α := l.filter fun a => key a = k

def lookup (k : κ) (l : List α) : Option α := l.find? fun a => key a = k

def dropFirst (k : κ) (l : List α) : List α := l.eraseP fun a => key a = k

def dropAll (k : κ) (l : List α) : List α := l.filter fun a => key a ≠ k

def modifyFirst (k : κ) (f : α → α) : List α → List α
  | [] => []
  | a :: l => if key a = k then f a :: l else a :: modifyFirst k f l

variable {key} {k : κ} {a : α} {l : List α} {j : κ} {f : α → α}

theorem mem_tagged : a ∈ tagged key k l ↔ a ∈ l ∧ key a = k := by
  simp [tagged]

@[simp] theorem tagged_nil (k : κ) : tagged key k ([] : List α) = [] := rfl

theorem tagged_cons (k : κ) (a : α) (l : List α) :
    tagged key k (a :: l) = if key a = k then a :: tagged key k l else tagged key k l := by
  simp [tagged, filter_cons]

theorem tagged_append (k : κ) (l₁ l₂ : List α) :
    tagged key k (l₁ ++ l₂) = tagged key k l₁ ++ tagged key k l₂ :=
  filter_append ..

theorem tagged_append_self (h : key a = k) (l : List α) :
    tagged key k (l ++ [a]) = tagged key k l ++ [a] := by
  simp [tagged_append, tagged_cons, h]

theorem tagged_append_of_ne (h : key a ≠ k) (l : List α) :
    tagged key k (l ++ [a]) = tagged key k l := by
  simp [tagged_append, tagged_cons, h]

theorem tagged_eq_nil : tagged key k l = [] ↔ ∀ a ∈ l, key a ≠ k := by
  simp [tagged]

theorem dropFirst_cons_self (h : key a = k) (l : List α) : dropFirst key k (a :: l) = l := by
  simp [dropFirst, h]

theorem dropFirst_cons_of_ne (h : key a ≠ k) (l : List α) :
    dropFirst key k (a :: l) = a :: dropFirst key k l := by
  simp [dropFirst, h]

theorem tagged_dropFirst_self (k : κ) (l : List α) :
    tagged key k (dropFirst key k l) = (tagged key k l).tail := by
  induction l with
  | nil => rfl
  | cons a l ih =>
    by_cases h : key a = k
    · rw [dropFirst_cons_self h, tagged_cons, if_pos h, tail_cons]
    · rw [dropFirst_cons_of_ne h, tagged_cons, if_neg h, tagged_cons, if_neg h, ih]

theorem tagged_dropFirst_of_ne (h : k ≠ j) (l : List α) :
    tagged key j (dropFirst key k l) = tagged key j l := by
  induction l with
  | nil => rfl
  | cons a l ih =>
    by_cases ha : key a = k
    · rw [dropFirst_cons_self ha, tagged_cons, if_neg (ha ▸ h)]
    · rw [dropFirst_cons_of_ne ha, tagged_cons, tagged_cons, ih]

theorem dropFirst_of_not_mem (h : tagged key k l = []) : dropFirst key k l = l :=
  eraseP_of_forall_not fun a ha => by simpa using tagged_eq_nil.1 h a ha

theorem mem_of_mem_dropFirst (h : a ∈ dropFirst key k l) : a ∈ l :=
  mem_of_mem_eraseP h

theorem lookup_eq_none : lookup key k l = none ↔ ∀ a ∈ l, key a ≠ k := by
  simp [lookup]

theorem key_of_lookup (h : lookup key k l = some a) : key a = k := by
  simpa using find?_some h

theorem mem_of_lookup (h : lookup key k l = some a) : a ∈ l :=
  mem_of_find?_eq_some h

theorem lookup_cons (k : κ) (a : α) (l : List α) :
    lookup key k (a :: l) = if key a = k then some a else lookup key k l := by
  by_cases h : key a = k <;> simp [lookup, h]

theorem lookup_isSome_iff : (lookup key k l).isSome ↔ ∃ a ∈ l, key a = k := by
  simp [lookup]

theorem lookup_append (k : κ) (l₁ l₂ : List α) :
    lookup key k (l₁ ++ l₂) = (lookup key k l₁).or (lookup key k l₂) :=
  find?_append

theorem mem_dropAll : a ∈ dropAll key k l ↔ a ∈ l ∧ key a ≠ k := by
  simp [dropAll]

theorem dropAll_of_not_mem (h : tagged key k l = []) : dropAll key k l = l :=
  List.filter_eq_self.2 fun a ha => by simpa using tagged_eq_nil.1 h a ha

theorem dropAll_dropFirst (k : κ) (l : List α) :
    dropAll key k (dropFirst key k l) = dropAll key k l := by
  induction l with
  | nil => rfl
  | cons a l ih =>
    by_cases h : key a = k
    · rw [dropFirst_cons_self h]
      simp [dropAll, h]
    · rw [dropFirst_cons_of_ne h]
      simp only [dropAll, filter_cons] at ih ⊢
      rw [ih]

theorem dropAll_append (k : κ) (l₁ l₂ : List α) :
    dropAll key k (l₁ ++ l₂) = dropAll key k l₁ ++ dropAll key k l₂ :=
  filter_append ..

theorem tagged_dropAll_self (k : κ) (l : List α) : tagged key k (dropAll key k l) = [] :=
  tagged_eq_nil.2 fun _ ha => (mem_dropAll.1 ha).2

theorem tagged_of_forall (h : ∀ a ∈ l, key a = k) : tagged key k l = l :=
  List.filter_eq_self.2 fun a ha => by simpa using h a ha

theorem dropAll_of_forall (h : ∀ a ∈ l, key a = k) : dropAll key k l = [] :=
  List.filter_eq_nil_iff.2 fun a ha => by simpa using h a ha

theorem tagged_replace {l l' : List α} (h : ∀ a ∈ l', key a = k) :
    tagged key k (dropAll key k l ++ l') = l' := by
  rw [tagged_append, tagged_dropAll_self, tagged_of_forall h, nil_append]

theorem dropAll_replace {l l' : List α} (h : ∀ a ∈ l', key a = k) :
    dropAll key k (dropAll key k l ++ l') = dropAll key k l := by
  rw [dropAll_append, dropAll_of_forall h, append_nil, dropAll_of_not_mem (tagged_dropAll_self k l)]

theorem lookup_dropAll_self (k : κ) (l : List α) : lookup key k (dropAll key k l) = none :=
  lookup_eq_none.2 fun _ ha => (mem_dropAll.1 ha).2

theorem lookup_dropAll_of_ne (h : k ≠ j) (l : List α) :
    lookup key j (dropAll key k l) = lookup key j l := by
  induction l with
  | nil => rfl
  | cons a l ih =>
    by_cases ha : key a = k
    · have : dropAll key k (a :: l) = dropAll key k l := by simp [dropAll, ha]
      rw [this, ih, lookup_cons, if_neg (ha ▸ h)]
    · have : dropAll key k (a :: l) = a :: dropAll key k l := by simp [dropAll, ha]
      rw [this, lookup_cons, lookup_cons, ih]

theorem lookup_replace_self (h : key a = k) (l : List α) :
    lookup key k (dropAll key k l ++ [a]) = some a := by
  rw [lookup_append, lookup_dropAll_self, lookup_cons, if_pos h, Option.none_or]

theorem lookup_replace_of_ne (h : key a = k) (hkj : k ≠ j) (l : List α) :
    lookup key j (dropAll key k l ++ [a]) = lookup key j l := by
  rw [lookup_append, lookup_dropAll_of_ne hkj, lookup_cons, if_neg (h ▸ hkj)]
  cases lookup key j l <;> rfl

theorem nodup_dropAll (h : (l.map key).Nodup) (k : κ) : ((dropAll key k l).map key).Nodup :=
  h.sublist (List.filter_sublist.map key)

theorem nodup_replace (ha : key a = k) (h : (l.map key).Nodup) :
    ((dropAll key k l ++ [a]).map key).Nodup := by
  rw [map_append, nodup_append]
  refine ⟨nodup_dropAll h k, nodup_singleton _, ?_⟩
  intro j hj i hi hji
  obtain ⟨b, hb, rfl⟩ := List.mem_map.1 hj
  rw [List.mem_singleton.1 hi, ha] at hji
  exact (mem_dropAll.1 hb).2 hji

theorem lookup_eq_some_iff (h : (l.map key).Nodup) :
    lookup key k l = some a ↔ a ∈ l ∧ key a = k := by
  constructor
  · exact fun hl => ⟨mem_of_lookup hl, key_of_lookup hl⟩
  · rintro ⟨ha, rfl⟩
    have hs : (lookup key (key a) l).isSome := lookup_isSome_iff.2 ⟨a, ha, rfl⟩
    obtain ⟨b, hb⟩ := Option.isSome_iff_exists.1 hs
    rw [hb, inj_on_of_nodup_map h (mem_of_lookup hb) ha (key_of_lookup hb)]

section Contents

variable {β δ : Type*} {f : α → κ × δ} {g : β → κ × δ} {l : List α} {l' : List β}

theorem mem_map_iff_lookup (hl : (l.map fun a => (f a).1).Nodup) (c : κ × δ) :
    c ∈ l.map f ↔ (lookup (fun a => (f a).1) c.1 l).map f = some c := by
  simp only [mem_map, Option.map_eq_some_iff, lookup_eq_some_iff hl]
  constructor
  · rintro ⟨a, ha, rfl⟩
    exact ⟨a, ⟨ha, rfl⟩, rfl⟩
  · rintro ⟨a, ⟨ha, -⟩, rfl⟩
    exact ⟨a, ha, rfl⟩

omit [DecidableEq κ] in
theorem nodup_map_of_keys (hl : (l.map fun a => (f a).1).Nodup) : (l.map f).Nodup := by
  refine List.Nodup.of_map Prod.fst ?_
  rwa [map_map]

/-- **Lists with distinct keys are told apart by what is under a key.** -/
theorem perm_of_lookup (hl : (l.map fun a => (f a).1).Nodup) (hl' : (l'.map fun b => (g b).1).Nodup)
    (h : ∀ k, (lookup (fun a => (f a).1) k l).map f = (lookup (fun b => (g b).1) k l').map g) :
    (l.map f).Perm (l'.map g) := by
  rw [perm_ext_iff_of_nodup (nodup_map_of_keys hl) (nodup_map_of_keys hl')]
  intro c
  rw [mem_map_iff_lookup hl, mem_map_iff_lookup hl', h]

end Contents

theorem map_modifyFirst {β : Type*} {g : α → β} (h : ∀ a, g (f a) = g a) (k : κ)
    (l : List α) : (modifyFirst key k f l).map g = l.map g := by
  induction l with
  | nil => rfl
  | cons a l ih =>
    rw [modifyFirst]
    split_ifs
    · rw [map_cons, map_cons, h]
    · rw [map_cons, map_cons, ih]

theorem mem_modifyFirst (h : a ∈ modifyFirst key k f l) : a ∈ l ∨ ∃ b ∈ l, a = f b := by
  induction l with
  | nil => cases h
  | cons b l ih =>
    rw [modifyFirst] at h
    split_ifs at h
    · rcases List.mem_cons.1 h with rfl | h
      · exact .inr ⟨b, mem_cons_self, rfl⟩
      · exact .inl (mem_cons_of_mem _ h)
    · rcases List.mem_cons.1 h with rfl | h
      · exact .inl mem_cons_self
      · rcases ih h with h | ⟨c, hc, rfl⟩
        · exact .inl (mem_cons_of_mem _ h)
        · exact .inr ⟨c, mem_cons_of_mem _ hc, rfl⟩

theorem exists_of_mem_modifyFirst (ho : (tagged key k l).length ≤ 1)
    (ha : a ∈ modifyFirst key k f l) (hk : key a = k) : ∃ b ∈ l, a = f b := by
  induction l with
  | nil => cases ha
  | cons b l ih =>
    rw [tagged_cons] at ho
    rw [modifyFirst] at ha
    split_ifs at ha ho with hb
    · rcases List.mem_cons.1 ha with rfl | ha
      · exact ⟨b, mem_cons_self, rfl⟩
      · -- a second entry under the key
        have hp : 0 < (tagged key k l).length :=
          length_pos_of_mem (mem_tagged.2 ⟨ha, hk⟩)
        rw [length_cons] at ho
        omega
    · rcases List.mem_cons.1 ha with rfl | ha
      · exact absurd hk hb
      · obtain ⟨c, hc, rfl⟩ := ih ho ha
        exact ⟨c, mem_cons_of_mem _ hc, rfl⟩

theorem modifyFirst_of_lookup (h : lookup key k l = none) : modifyFirst key k f l = l := by
  induction l with
  | nil => rfl
  | cons a l ih =>
    obtain ⟨ha, hl⟩ := List.forall_mem_cons.1 (lookup_eq_none.1 h)
    rw [modifyFirst, if_neg ha, ih (lookup_eq_none.2 hl)]

theorem lookup_modifyFirst (hf : ∀ a, key (f a) = key a) (k j : κ) (l : List α) :
    lookup key j (modifyFirst key k f l) =
      if j = k then (lookup key j l).map f else lookup key j l := by
  induction l with
  | nil => simp [modifyFirst, lookup]
  | cons a l ih =>
    rw [modifyFirst, lookup_cons]
    by_cases hak : key a = k
    · rw [if_pos hak, lookup_cons, hf]
      by_cases haj : key a = j
      · rw [if_pos haj, if_pos haj, if_pos (haj.symm.trans hak), Option.map_some]
      · rw [if_neg haj, if_neg haj, if_neg fun hjk => haj (hak.trans hjk.symm)]
    · rw [if_neg hak, lookup_cons, ih]
      by_cases haj : key a = j
      · rw [if_pos haj, if_pos haj, if_neg fun hjk => hak (haj.trans hjk)]
      · rw [if_neg haj, if_neg haj]

end BalanSir.Lib
