/-
# Programs with a state and errors

A state monad with exceptions, and rules for its triples and loops.
-/

import Mathlib.Data.List.Basic

namespace BalanSir.Lib

open List

variable {σ ε α β γ : Type}

abbrev Prog (σ ε α : Type) := ExceptT ε (StateM σ) α

/-- From `P` the program returns `a` and leaves `Q`. -/
def Ends (P : σ → Prop) (m : Prog σ ε α) (a : α) (Q : σ → Prop) : Prop :=
  ∀ s, P s → ∃ s', m s = (.ok a, s') ∧ Q s'

variable {P Q R : σ → Prop}

theorem ends_pure (a : α) : Ends P (pure a : Prog σ ε α) a P := fun s hs => ⟨s, rfl, hs⟩

theorem prog_bind (m : Prog σ ε α) (f : α → Prog σ ε β) (s : σ) : (m >>= f) s = (match m s with
      | (.ok a, s) => f a s
      | (.error e, s) => (.error e, s)) := by
  show (match m s with | (a, s) => ExceptT.bindCont f a s) = _
  rcases m s with ⟨_ | _, _⟩ <;> rfl

variable {m : Prog σ ε α} {a : α}

theorem Ends.bind {f : α → Prog σ ε β} {b : β} (h : Ends P m a Q) (hf : Ends Q (f a) b R) :
    Ends P (m >>= f) b R := fun s hs => by
  obtain ⟨s₁, hm, hq⟩ := h s hs
  obtain ⟨s₂, hfa, hr⟩ := hf s₁ hq
  refine ⟨s₂, ?_, hr⟩
  rw [prog_bind, hm]
  exact hfa

theorem Ends.forM {I : List γ → σ → Prop} {f : α → Prog σ ε Unit} {g : α → List γ}
    (h : ∀ c a, Ends (I c) (f a) () (I (c ++ g a))) (l : List α) (c : List γ) :
    Ends (I c) (l.forM f) () (I (c ++ l.flatMap g)) := by
  induction l generalizing c with
  | nil =>
    rw [flatMap_nil, append_nil]
    exact ends_pure ()
  | cons a l ih =>
    rw [flatMap_cons, ← append_assoc]
    exact (h c a).bind (ih (c ++ g a))

def mapError {ε' : Type} (f : ε → ε') (m : Prog σ ε α) : Prog σ ε' α := fun s =>
  match m s with
  | (.ok a, s) => (.ok a, s)
  | (.error e, s) => (.error (f e), s)

theorem Ends.mapError {ε' : Type} {f : ε → ε'} (h : Ends P m a Q) :
    Ends P (Lib.mapError f m) a Q := fun s hs => by
  obtain ⟨s', hm, hq⟩ := h s hs
  exact ⟨s', by rw [Lib.mapError, hm], hq⟩

instance decidableForallOk {p : α → Prop} [DecidablePred p] :
    ∀ r : Except ε α, Decidable (∀ a, r = .ok a → p a)
  | .ok a => decidable_of_iff (p a) ⟨fun h b hb => by cases hb; exact h, fun h => h a rfl⟩
  | .error _ => isTrue nofun

instance decidableExistsOk {p : α → Prop} [DecidablePred p] :
    ∀ r : Except ε α, Decidable (∃ a, r = .ok a ∧ p a)
  | .ok a => decidable_of_iff (p a) ⟨fun h => ⟨a, rfl, h⟩, fun ⟨b, hb, h⟩ => by cases hb; exact h⟩
  | .error _ => isFalse nofun

instance decidableForallSome {p : α → Prop} [DecidablePred p] :
    ∀ o : Option α, Decidable (∀ a, o = some a → p a)
  | some a => decidable_of_iff (p a) ⟨fun h b hb => by cases hb; exact h, fun h => h a rfl⟩
  | none => isTrue nofun

def EndedIn (Q : α → σ → Prop) (E : σ → Prop) : Except ε α × σ → Prop
  | (.ok a, s) => Q a s
  | (.error _, s) => E s

theorem EndedIn.imp {Q Q' : α → σ → Prop} {E E' : σ → Prop} {r : Except ε α × σ}
    (h : EndedIn Q E r) (hQ : ∀ a s, Q a s → Q' a s) (hE : ∀ s, E s → E' s) : EndedIn Q' E' r := by
  rcases r with ⟨_ | a, s⟩
  · exact hE s h
  · exact hQ a s h

def Triple (P : σ → Prop) (m : Prog σ ε α) (Q : α → σ → Prop) (E : σ → Prop) : Prop :=
  ∀ s, P s → EndedIn Q E (m s)

variable {E : σ → Prop} {S : α → σ → Prop}

theorem Triple.of_ok (h : Triple P m S E) {s s' : σ} (hs : P s) (hm : m s = (.ok a, s')) :
    S a s' := by
  have := h s hs
  rwa [hm] at this

theorem triple_pure (h : ∀ s, P s → S a s) : Triple P (pure a : Prog σ ε α) S E :=
  fun s hs => h s hs

theorem triple_throw {e : ε} (h : ∀ s, P s → E s) : Triple P (throw e : Prog σ ε α) S E :=
  fun s hs => h s hs

theorem Triple.bind {f : α → Prog σ ε β} {T : β → σ → Prop} (h : Triple P m S E)
    (hf : ∀ a, Triple (S a) (f a) T E) : Triple P (m >>= f) T E := by
  intro s hs
  have hm := h s hs
  rw [prog_bind]
  rcases hr : m s with ⟨_ | a, s₁⟩ <;> rw [hr] at hm
  · exact hm
  · exact hf a s₁ hm

theorem Triple.weaken {P' E' : σ → Prop} {S' : α → σ → Prop} (h : Triple P m S E)
    (hP : ∀ s, P' s → P s) (hS : ∀ a s, S a s → S' a s) (hE : ∀ s, E s → E' s) :
    Triple P' m S' E' := by
  intro s hs
  exact (h s (hP s hs)).imp hS hE

theorem Triple.ok (h : Triple P m S E) : Triple P m S fun _ => True :=
  h.weaken (fun _ hs => hs) (fun _ _ hs => hs) fun _ _ => trivial

theorem Triple.mapError {ε' : Type} {f : ε → ε'} (h : Triple P m S E) :
    Triple P (Lib.mapError f m) S E := by
  intro s hs
  have hm := h s hs
  unfold Lib.mapError
  rcases hr : m s with ⟨_ | a, s₁⟩ <;> rw [hr] at hm
  · exact hm
  · exact hm

theorem Triple.foldlM {I : List α → σ → Prop} {f : β → α → Prog σ ε β}
    (h : ∀ done b a, Triple (I done) (f b a) (fun _ => I (done ++ [a])) E) (l done : List α)
    (b : β) : Triple (I done) (l.foldlM f b) (fun _ => I (done ++ l)) E := by
  induction l generalizing done b with
  | nil =>
    rw [append_nil]
    exact triple_pure fun _ hs => hs
  | cons a l ih =>
    rw [append_cons]
    exact (h done b a).bind fun b' => ih (done ++ [a]) b'

theorem Triple.forM {I : List α → σ → Prop} {f : α → Prog σ ε Unit}
    (h : ∀ done a, Triple (I done) (f a) (fun _ => I (done ++ [a])) E) (l done : List α) :
    Triple (I done) (l.forM f) (fun _ => I (done ++ l)) E := by
  induction l generalizing done with
  | nil =>
    rw [append_nil]
    exact triple_pure fun _ hs => hs
  | cons a l ih =>
    rw [append_cons]
    exact (h done a).bind fun _ => ih (done ++ [a])

/-- `n` rounds of `while cond { body }`. -/
def loop (cond : Prog σ ε Bool) (body : Prog σ ε Unit) : ℕ → Prog σ ε Unit
  | 0 => pure ()
  | n + 1 => do
    if ← cond then
      body
      loop cond body n

variable {cond : Prog σ ε Bool} {body : Prog σ ε Unit}

theorem loop_succ (n : ℕ) (s : σ) : loop cond body (n + 1) s = (match cond s with
      | (.ok true, s) => (match body s with
          | (.ok (), s) => loop cond body n s
          | (.error e, s) => (.error e, s))
      | (.ok false, s) => (.ok (), s)
      | (.error e, s) => (.error e, s)) := by
  rw [loop, prog_bind]
  rcases cond s with ⟨_ | _ | _, s₁⟩
  · rfl
  · rfl
  · show (body >>= fun _ => loop cond body n) s₁ = _
    simp only [prog_bind]
    rcases body s₁ with ⟨_ | _, _⟩ <;> rfl

theorem Triple.loop (hc : Triple P cond (fun _ => P) E) (hb : Triple P body (fun _ => P) E)
    (n : ℕ) : Triple P (Lib.loop cond body n) (fun _ => P) E := by
  induction n with
  | zero => exact triple_pure fun _ hs => hs
  | succ n ih =>
    refine hc.bind fun go => ?_
    cases go with
    | false => exact triple_pure fun _ hs => hs
    | true => exact hb.bind fun _ => ih

/-- What an unbounded `while cond { body }` does from a state, when it ends. -/
inductive While (cond : Prog σ ε Bool) (body : Prog σ ε Unit) : σ → Except ε Unit × σ → Prop
  | stop {s s' : σ} (hc : cond s = (.ok false, s')) : While cond body s (.ok (), s')
  | condFails {s s' : σ} {e : ε} (hc : cond s = (.error e, s')) : While cond body s (.error e, s')
  | bodyFails {s s₁ s' : σ} {e : ε} (hc : cond s = (.ok true, s₁))
      (hb : body s₁ = (.error e, s')) : While cond body s (.error e, s')
  | next {s s₁ s₂ : σ} {r : Except ε Unit × σ} (hc : cond s = (.ok true, s₁))
      (hb : body s₁ = (.ok (), s₂)) (h : While cond body s₂ r) : While cond body s r

/-- **Enough rounds are the whole loop**, when `w` goes down in every round. -/
theorem while_loop {w : σ → ℕ}
    (hw : ∀ s s₁ s₂, cond s = (.ok true, s₁) → body s₁ = (.ok (), s₂) → w s₂ < w s) {n : ℕ}
    {s : σ} (hn : w s < n) : While cond body s (loop cond body n s) := by
  induction n generalizing s with
  | zero => exact absurd hn (Nat.not_lt_zero _)
  | succ n ih =>
    rw [loop_succ]
    rcases hc : cond s with ⟨e | _ | _, s₁⟩
    · exact .condFails hc
    · exact .stop hc
    · simp only
      rcases hb : body s₁ with ⟨e | _, s₂⟩
      · exact .bodyFails hc hb
      · have hlt := hw s s₁ s₂ hc hb
        exact .next hc hb (ih (by omega))

theorem Ends.loop {I J : ℕ → σ → Prop} (hgo : ∀ j, Ends (I (j + 1)) cond true (J j))
    (hb : ∀ j, Ends (J j) body () (I j)) (hs : Ends (I 0) cond false Q) {n j : ℕ}
    (hj : j < n) : Ends (I j) (loop cond body n) () Q := by
  induction n generalizing j with
  | zero => exact absurd hj (Nat.not_lt_zero _)
  | succ n ih =>
    cases j with
    | zero => exact hs.bind (ends_pure ())
    | succ j => exact (hgo j).bind ((hb j).bind (ih (Nat.lt_of_succ_lt_succ hj)))

end BalanSir.Lib
