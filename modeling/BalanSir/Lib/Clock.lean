/-
# Runs with a clock

Steps at times that do not go back.
-/

import BalanSir.Lib.Run

namespace BalanSir.Lib

variable {ω σ τ : Type*} [LE τ] (time : ω → Option τ)

/-- The times that are given do not go back. -/
def Clocked (ops : List ω) : Prop := (ops.filterMap time).Pairwise (· ≤ ·)

instance [DecidableLE τ] (ops : List ω) : Decidable (Clocked time ops) :=
  inferInstanceAs (Decidable (List.Pairwise _ _))

variable {time} {ops later : List ω}

theorem Clocked.left (h : Clocked time (ops ++ later)) : Clocked time ops := by
  rw [Clocked, List.filterMap_append, List.pairwise_append] at h
  exact h.1

theorem Clocked.le (h : Clocked time (ops ++ later)) {o o' : ω} {t t' : τ}
    (ho : o ∈ ops) (ho' : o' ∈ later) (ht : time o = some t) (ht' : time o' = some t') :
    t ≤ t' := by
  rw [Clocked, List.filterMap_append, List.pairwise_append] at h
  exact h.2.2 t (List.mem_filterMap.2 ⟨o, ho, ht⟩) t' (List.mem_filterMap.2 ⟨o', ho', ht'⟩)

theorem run_floor {step : ω → σ → σ} {I : σ → Prop} {o : ω} {t : τ}
    (hc : Clocked time (ops ++ later)) (ho : o ∈ ops) (ht : time o = some t)
    (hst : ∀ o s, (∀ t' ∈ time o, t ≤ t') → I s → I (step o s)) {s : σ} (hs : I s) :
    I (run step later s) := by
  have hf : Along step (fun o _ => ∀ t' ∈ time o, t ≤ t') later s :=
    along_iff_split.2 fun pre o' post e t' ht' =>
      hc.le ho (by simp [e]) ht (Option.mem_def.1 ht')
  exact hf.invariant (fun o s hs hf => hst o s hf hs) hs

end BalanSir.Lib
