/-
# Runs of a step function

Runs, properties along them, and invariants.
-/

import Mathlib.Data.List.Basic

namespace BalanSir.Lib

open List

variable {σ ω : Type*} (step : ω → σ → σ)

/-- The operations one after the other. -/
def run : List ω → σ → σ
  | [], s => s
  | o :: os, s => run os (step o s)

/-- `P` holds of each operation and the state it finds. -/
def Along (P : ω → σ → Prop) : List ω → σ → Prop
  | [], _ => True
  | o :: os, s => P o s ∧ Along P os (step o s)

instance decidableAlong (P : ω → σ → Prop) [∀ o s, Decidable (P o s)] :
    ∀ os s, Decidable (Along step P os s)
  | [], _ => isTrue trivial
  | o :: os, s =>
    have := decidableAlong P os (step o s)
    inferInstanceAs (Decidable (P o s ∧ Along step P os (step o s)))

/-- What the operations of a run give. -/
def results {α : Type*} (result : ω → σ → Option α) : List ω → σ → List α
  | [], _ => []
  | o :: os, s => (result o s).toList ++ results result os (step o s)

variable {step} {α : Type*} {result : ω → σ → Option α}

theorem run_append (os os' : List ω) (s : σ) :
    run step (os ++ os') s = run step os' (run step os s) := by
  induction os generalizing s with
  | nil => rfl
  | cons o os ih => exact ih (step o s)

theorem results_append (os os' : List ω) (s : σ) : results step result (os ++ os') s =
      results step result os s ++ results step result os' (run step os s) := by
  induction os generalizing s with
  | nil => rfl
  | cons o os ih => rw [cons_append, results, results, ih, append_assoc, run]

variable {os : List ω} {s : σ}

theorem mem_results {a : α}
    (h : a ∈ results step result os s) : ∃ o ∈ os, ∃ s', result o s' = some a := by
  induction os generalizing s with
  | nil => cases h
  | cons o os ih =>
    rcases List.mem_append.1 h with h | h
    · exact ⟨o, mem_cons_self, s, Option.mem_toList.1 h⟩
    · obtain ⟨o', ho', hr⟩ := ih h
      exact ⟨o', mem_cons_of_mem _ ho', hr⟩

theorem run_first {before after : List ω} {o : ω}
    (hc : ∀ o' ∈ before, ∀ s, step o (step o' s) = step o' (step o s)) (s : σ) :
    run step (before ++ o :: after) s = run step (before ++ after) (step o s) := by
  induction before generalizing s with
  | nil => rfl
  | cons o' before ih =>
    rw [cons_append, run, ih (fun x hx => hc x (mem_cons_of_mem _ hx)), hc o' mem_cons_self]
    rfl

variable {P : ω → σ → Prop}

theorem along_append {os' : List ω} :
    Along step P (os ++ os') s ↔ Along step P os s ∧ Along step P os' (run step os s) := by
  induction os generalizing s with
  | nil => simp [Along, run]
  | cons o os ih => simp [Along, run, ih, and_assoc]

theorem along_iff_split :
    Along step P os s ↔ ∀ pre o post, os = pre ++ o :: post → P o (run step pre s) := by
  constructor
  · rintro h pre o post rfl
    exact (along_append.1 h).2.1
  · intro h
    induction os generalizing s with
    | nil => exact trivial
    | cons o os ih =>
      exact ⟨h [] o os rfl, ih fun pre o' post e => h (o :: pre) o' post (by rw [e]; rfl)⟩

theorem Along.of_initial {os' : List ω} (h : Along step P os' s) (hp : os <+: os') :
    Along step P os s := by
  obtain ⟨rest, rfl⟩ := hp
  exact (along_append.1 h).1

variable {Q : ω → σ → Prop}

theorem Along.imp (hPQ : ∀ o s, P o s → Q o s) (h : Along step P os s) : Along step Q os s := by
  induction os generalizing s with
  | nil => exact trivial
  | cons o os ih => exact ⟨hPQ o s h.1, ih h.2⟩

theorem Along.and (hP : Along step P os s) (hQ : Along step Q os s) :
    Along step (fun o s => P o s ∧ Q o s) os s := by
  induction os generalizing s with
  | nil => exact trivial
  | cons o os ih => exact ⟨⟨hP.1, hQ.1⟩, ih hP.2 hQ.2⟩

theorem Along.and_mem (h : Along step P os s) : Along step (fun o s => o ∈ os ∧ P o s) os s := by
  rw [along_iff_split] at h ⊢
  exact fun pre o post e => ⟨by simp [e], h pre o post e⟩

variable {I : σ → Prop} {R : ω → σ → Prop}

theorem run_invariant (hst : ∀ o s, I s → I (step o s)) (os : List ω) (hs : I s) :
    I (run step os s) := by
  induction os generalizing s with
  | nil => exact hs
  | cons o os ih => exact ih (hst o s hs)

theorem forall_results {q : α → Prop} (hst : ∀ o ∈ os, ∀ s, I s → I (step o s))
    (hr : ∀ o ∈ os, ∀ s, I s → ∀ a, result o s = some a → q a) (hs : I s) :
    ∀ a ∈ results step result os s, q a := by
  induction os generalizing s with
  | nil => simp [results]
  | cons o os ih =>
    rw [forall_mem_cons] at hst hr
    intro a ha
    rcases List.mem_append.1 ha with ha | ha
    · exact hr.1 s hs a (Option.mem_toList.1 ha)
    · exact ih hst.2 hr.2 (hst.1 s hs) a ha

/-- **What no step changes, no run does.** -/
theorem run_frame {β : Type*} {f : σ → β} (h : ∀ o ∈ os, ∀ s, f (step o s) = f s) (s : σ) :
    f (run step os s) = f s := by
  induction os generalizing s with
  | nil => rfl
  | cons o os ih =>
    rw [forall_mem_cons] at h
    rw [run, ih h.2, h.1]

theorem run_of_forall (h : ∀ o ∈ os, step o s = s) : run step os s = s := by
  induction os with
  | nil => rfl
  | cons o os ih =>
    rw [run, h o mem_cons_self]
    exact ih fun o' ho' => h o' (mem_cons_of_mem o ho')

/-- **Once is enough:** a run of operations that are done once changes nothing done again. -/
theorem run_again (hs : ∀ o s, step o (step o s) = step o s)
    (hk : ∀ o o' s, step o s = s → step o (step o' s) = step o' s) (os : List ω) (s : σ) :
    run step os (run step os s) = run step os s := by
  refine run_of_forall ?_
  induction os generalizing s with
  | nil => simp
  | cons o os ih =>
    rw [forall_mem_cons]
    exact ⟨run_invariant (I := fun s => step o s = s) (fun o' s => hk o o' s) os (hs o s),
      ih (step o s)⟩

theorem Along.invariant (hst : ∀ o s, I s → P o s → I (step o s)) (hs : I s)
    (h : Along step P os s) : I (run step os s) := by
  induction os generalizing s with
  | nil => exact hs
  | cons o os ih => exact ih (hst o s hs h.1) h.2

theorem Along.imp_invariant (hst : ∀ o s, I s → P o s → I (step o s))
    (hQ : ∀ o s, I s → P o s → Q o s) (hs : I s) (h : Along step P os s) : Along step Q os s := by
  induction os generalizing s with
  | nil => exact trivial
  | cons o os ih => exact ⟨hQ o s hs h.1, ih (hst o s hs h.1) h.2⟩

theorem Along.congr (h : Along step R os s)
    (hPQ : ∀ o s, R o s → (P o s ↔ Q o s)) : Along step P os s ↔ Along step Q os s := by
  induction os generalizing s with
  | nil => exact Iff.rfl
  | cons o os ih => exact and_congr (hPQ o s h.1) (ih h.2)

theorem Along.congr_invariant (h : Along step R os s) (hPQ : ∀ o s, I s → R o s → (P o s ↔ Q o s))
    (hst : ∀ o s, I s → R o s → P o s → I (step o s)) (hs : I s) :
    Along step P os s ↔ Along step Q os s := by
  induction os generalizing s with
  | nil => exact Iff.rfl
  | cons o os ih =>
    have hpq := hPQ o s hs h.1
    constructor
    · rintro ⟨hP, hr⟩
      exact ⟨hpq.1 hP, (ih h.2 (hst o s hs h.1 hP)).1 hr⟩
    · rintro ⟨hQ, hr⟩
      have hP := hpq.2 hQ
      exact ⟨hP, (ih h.2 (hst o s hs h.1 hP)).2 hr⟩

/-- **From one step to every run.** Step properties that are equivalent under an invariant that `P`
keeps are so along runs. -/
theorem along_congr (hPQ : ∀ o ∈ os, ∀ s, I s → (P o s ↔ Q o s))
    (hst : ∀ o ∈ os, ∀ s, I s → P o s → I (step o s)) (hs : I s) :
    Along step P os s ↔ Along step Q os s := by
  have hm : Along step (fun o _ => o ∈ os) os s :=
    along_iff_split.2 fun pre o post e => by simp [e]
  exact hm.congr_invariant (fun o s hI ho => hPQ o ho s hI) (fun o s hI ho => hst o ho s hI) hs

/-- **What has held so far.** If a step keeps `E` exactly when it meets `P`, a run does when every
step meets `P`. -/
theorem run_iff_along {E : σ → Prop} (hI : ∀ o s, I s → I (step o s))
    (hE : ∀ o s, I s → (E (step o s) ↔ E s ∧ P o s)) (os : List ω) (hs : I s) :
    E (run step os s) ↔ E s ∧ Along step P os s := by
  induction os generalizing s with
  | nil => exact (and_iff_left trivial).symm
  | cons o os ih =>
    rw [run, ih (hI o s hs), hE o s hs, and_assoc]
    rfl

end BalanSir.Lib
