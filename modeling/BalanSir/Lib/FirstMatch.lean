/-
# Ordered rule lists and their first match

The decision of the first rule that matches, and when reordering keeps it.
-/

import Mathlib.Data.List.Basic

namespace BalanSir.Lib

variable {ρ π ν : Type*}

def firstMatch (hit : ρ → π → Bool) (out : ρ → ν) (l : List ρ) (p : π) : Option ν :=
  (l.find? fun r => hit r p).map out

def OverlapAgree (hit : ρ → π → Bool) (out : ρ → ν) (l : List ρ) : Prop :=
  ∀ r ∈ l, ∀ s ∈ l, ∀ p, hit r p = true → hit s p = true → out r = out s

variable {hit : ρ → π → Bool} {out : ρ → ν} {l : List ρ} {p : π}

theorem firstMatch_cons_hit {r : ρ} (h : hit r p) :
    firstMatch hit out (r :: l) p = some (out r) := by
  simp [firstMatch, h]

theorem firstMatch_eq_none : firstMatch hit out l p = none ↔ ∀ r ∈ l, hit r p = false := by
  simp [firstMatch]

theorem firstMatch_eq_some {v : ν} (h : firstMatch hit out l p = some v) :
    ∃ r ∈ l, hit r p ∧ out r = v := by
  obtain ⟨r, hr, rfl⟩ := Option.map_eq_some_iff.1 h
  exact ⟨r, List.mem_of_find?_eq_some hr, by simpa using List.find?_some hr, rfl⟩

theorem OverlapAgree.firstMatch_eq (h : OverlapAgree hit out l) {r : ρ} (hr : r ∈ l)
    (hp : hit r p) : firstMatch hit out l p = some (out r) := by
  cases hf : firstMatch hit out l p with
  | none => exact absurd (firstMatch_eq_none.1 hf r hr) (by simp [hp])
  | some v =>
    obtain ⟨s, hs, hsp, rfl⟩ := firstMatch_eq_some hf
    rw [h s hs r hr p hsp hp]

/-- **When the order of a rule list does not show:** when overlapping rules agree. -/
theorem OverlapAgree.firstMatch_congr {l₁ l₂ : List ρ} (h : OverlapAgree hit out l) (h₁ : l₁ ⊆ l)
    (h₂ : l₂ ⊆ l) (hp : (∃ r ∈ l₁, hit r p) ↔ ∃ r ∈ l₂, hit r p) :
    firstMatch hit out l₁ p = firstMatch hit out l₂ p := by
  cases hf : firstMatch hit out l₂ p with
  | none =>
    rw [firstMatch_eq_none] at hf ⊢
    intro r hr
    rw [← Bool.not_eq_true]
    intro hrp
    obtain ⟨s, hs, hsp⟩ := hp.1 ⟨r, hr, hrp⟩
    simp [hf s hs] at hsp
  | some v =>
    obtain ⟨s, hs, hsp, rfl⟩ := firstMatch_eq_some hf
    obtain ⟨r, hr, hrp⟩ := hp.2 ⟨s, hs, hsp⟩
    have hl₁ : OverlapAgree hit out l₁ := fun a ha b hb => h a (h₁ ha) b (h₁ hb)
    rw [hl₁.firstMatch_eq hr hrp, h r (h₁ hr) s (h₂ hs) p hrp hsp]

end BalanSir.Lib
