/-
# Programs whose writes are logged

The states that a crash can leave, one for each write.
-/

import BalanSir.Lib.Prog
import BalanSir.Lib.Run

namespace BalanSir.Lib

open List

variable {σ ω ε α β : Type}

structure Journal (σ ω : Type) where
  machine : σ
  done : List ω

/-- A program over a machine `σ` that changes it by writes `ω`. -/
abbrev Logged (σ ω ε α : Type) := Prog (Journal σ ω) ε α

def inspect (f : σ → α) : Logged σ ω ε α := fun j => (.ok (f j.machine), j)

def compute (r : Except ε α) : Logged σ ω ε α := fun j => (r, j)

variable (apply : ω → σ → σ) {vs : List ω}

def perform (w : ω) : Logged σ ω ε Unit := fun j => (.ok (), ⟨apply w j.machine, j.done ++ [w]⟩)

def unwrapOr {ε' : Type} (m : Logged σ ω ε α) (a : α) : Logged σ ω ε' α := fun j =>
  match m j with
  | (.ok a, j) => (.ok a, j)
  | (.error _, j) => (.ok a, j)

def writes (m : Logged σ ω ε α) (s : σ) : List ω := (m ⟨s, []⟩).2.done

def outcome (m : Logged σ ω ε α) (s : σ) : Except ε α := (m ⟨s, []⟩).1

def Does (m : Logged σ ω ε α) (s : σ) (r : Except ε α) (ws : List ω) : Prop :=
  ∀ done, m ⟨s, done⟩ = (r, ⟨run apply ws s, done ++ ws⟩)

variable {apply} {m : Logged σ ω ε α} {f : α → Logged σ ω ε β} {s : σ} {r : Except ε α}
  {ws : List ω}

theorem Does.writes_eq (h : Does apply m s r ws) : writes m s = ws := by
  rw [writes, h []]
  exact nil_append ws

theorem Does.outcome_eq (h : Does apply m s r ws) : outcome m s = r := by
  rw [outcome, h []]

theorem does_pure (a : α) : Does apply (pure a : Logged σ ω ε α) s (.ok a) [] := by
  intro done
  rw [append_nil]
  rfl

theorem does_throw (e : ε) : Does apply (throw e : Logged σ ω ε α) s (.error e) [] := by
  intro done
  rw [append_nil]
  rfl

theorem does_inspect (g : σ → α) : Does apply (inspect g : Logged σ ω ε α) s (.ok (g s)) [] := by
  intro done
  rw [append_nil]
  rfl

theorem does_compute (r : Except ε α) : Does apply (compute r : Logged σ ω ε α) s r [] := by
  intro done
  rw [append_nil]
  rfl

theorem does_perform (w : ω) : Does apply (perform apply w : Logged σ ω ε Unit) s (.ok ()) [w] :=
  fun _ => rfl

theorem Does.bind {a : α} {r' : Except ε β} (h : Does apply m s (.ok a) ws)
    (hf : Does apply (f a) (run apply ws s) r' vs) : Does apply (m >>= f) s r' (ws ++ vs) := by
  intro done
  rw [prog_bind, h done]
  show f a ⟨run apply ws s, done ++ ws⟩ = _
  rw [hf, run_append, append_assoc]

theorem Does.bind_error {e : ε} (h : Does apply m s (.error e) ws) :
    Does apply (m >>= f) s (.error e) ws := by
  intro done
  rw [prog_bind, h done]

theorem Does.inspect_bind {g : σ → α} {r' : Except ε β}
    (hf : Does apply (f (g s)) s r' vs) : Does apply (inspect g >>= f) s r' vs :=
  (does_inspect g).bind hf

theorem Does.perform_bind {w : ω} {f : Unit → Logged σ ω ε β} {r' : Except ε β}
    (hf : Does apply (f ()) (apply w s) r' vs) :
    Does apply (perform apply w >>= f) s r' (w :: vs) :=
  (does_perform w).bind hf

theorem Does.mapError {ε' : Type} {g : ε → ε'} (h : Does apply m s r ws) :
    Does apply (Lib.mapError g m) s (r.mapError g) ws := by
  intro done
  rw [Lib.mapError, h done]
  cases r with
  | ok a => rfl
  | error e => rfl

theorem Does.unwrapOr {ε' : Type} {b : α} (h : Does apply m s r ws) :
    Does apply (Lib.unwrapOr m b : Logged σ ω ε' α) s (.ok (r.toOption.getD b)) ws := by
  intro done
  rw [Lib.unwrapOr, h done]
  cases r with
  | ok a => rfl
  | error e => rfl

end BalanSir.Lib
