/-
# State machines that ignore what they do not accept

A transition function that may refuse, run over a list of inputs.
-/

import BalanSir.Lib.Run

namespace BalanSir.Lib

variable {S E : Type*} (δ : S → E → Option S)

/-- A refused event leaves the state. -/
def tick (e : E) (s : S) : S := (δ s e).getD s

def trace : S → List E → List (S × E)
  | _, [] => []
  | s, e :: es => (s, e) :: trace (tick δ e s) es

/-- No event was refused. -/
def Accepted (ts : List (S × E)) : Prop := ∀ t ∈ ts, (δ t.1 t.2).isSome

instance (ts : List (S × E)) : Decidable (Accepted δ ts) := List.decidableBAll _ ts

def entered (ts : List (S × E)) : List S := ts.filterMap fun t => δ t.1 t.2

variable {δ}

theorem trace_append (es es' : List E) (s : S) :
    trace δ s (es ++ es') = trace δ s es ++ trace δ (run (tick δ) es s) es' := by
  induction es generalizing s with
  | nil => rfl
  | cons e es ih => exact congrArg _ (ih _)

theorem not_accepted_of_first {s : S} {e : E} {es : List E} (h : δ s e = none) :
    ¬ Accepted δ (trace δ s (e :: es)) := by
  intro ha
  have := ha (s, e) (by simp [trace])
  simp [h] at this

end BalanSir.Lib
