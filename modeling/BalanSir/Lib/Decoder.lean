/-
# Decoders of byte streams

Decoders that give a value and the rest, and the encoders that they undo.
-/

import Mathlib.Data.List.Basic

namespace BalanSir.Lib

open List

/-- A value and the bytes left over, or not enough bytes. -/
abbrev Decoder (α : Type) := StateT (List UInt8) Option α

namespace Decoder

variable {α β : Type}

def byte : Decoder UInt8
  | [] => none
  | b :: bs => some (b, bs)

def take (n : ℕ) : Decoder (List UInt8) := fun bs =>
  if n ≤ bs.length then some (bs.take n, bs.drop n) else none

def ofOption : Option α → Decoder α
  | none => fun _ => none
  | some a => pure a

def times (d : Decoder α) : ℕ → Decoder (List α)
  | 0 => pure []
  | n + 1 => do
    let a ← d
    let as ← times d n
    return a :: as

theorem bind_apply (d : Decoder α) (f : α → Decoder β) (bs : List UInt8) :
    (d >>= f) bs = (d bs).bind fun r => f r.1 r.2 := rfl

theorem pure_apply (a : α) (bs : List UInt8) : (pure a : Decoder α) bs = some (a, bs) := rfl

/-- The decoder uses up `front` and no more. -/
def Reads (d : Decoder α) (front : List UInt8) (a : α) : Prop :=
  ∀ more, d (front ++ more) = some (a, more)

theorem reads_pure (a : α) : Reads (pure a) [] a := fun _ => rfl

theorem reads_byte (b : UInt8) : Reads byte [b] b := fun _ => rfl

theorem reads_take (bs : List UInt8) : Reads (take bs.length) bs bs := by
  intro more
  simp [take]

variable {bs : List UInt8} {n : ℕ}

theorem length_of_take {a rest : List UInt8} (h : take n bs = some (a, rest)) :
    rest.length + n = bs.length := by
  simp only [take, Option.ite_none_right_eq_some] at h
  obtain ⟨hn, -, rfl⟩ := h
  rw [length_drop]
  omega

variable {d : Decoder α} {a : α} {f : α → Decoder β}

theorem Reads.bind {front front' : List UInt8} {b : β} (h : Reads d front a)
    (h' : Reads (f a) front' b) : Reads (d >>= f) (front ++ front') b := by
  intro more
  rw [bind_apply, append_assoc, h]
  exact h' more

theorem Reads.map {front : List UInt8} (h : Reads d front a) (f : α → β) :
    Reads (d >>= fun a => pure (f a)) front (f a) := by
  have := h.bind (f := fun a => pure (f a)) (reads_pure (f a))
  rwa [append_nil] at this

theorem Reads.times {ι : Type} {front : ι → List UInt8} {value : ι → α} (l : List ι)
    (h : ∀ i ∈ l, Reads d (front i) (value i)) :
    Reads (times d l.length) (l.flatMap front) (l.map value) := by
  induction l with
  | nil => exact reads_pure []
  | cons i l ih =>
    have hf := h i mem_cons_self
    have hr := ih fun j hj => h j (mem_cons_of_mem i hj)
    exact hf.bind (hr.map _)

/-- More bytes at the end do not change what was read. -/
def Stable (d : Decoder α) : Prop :=
  ∀ bs a rest, d bs = some (a, rest) → ∀ more, d (bs ++ more) = some (a, rest ++ more)

theorem stable_pure (a : α) : Stable (pure a) := by
  rintro bs a' rest h more
  cases h
  rfl

theorem stable_byte : Stable byte := by
  rintro (_ | ⟨b, bs⟩) a rest h more
  · cases h
  · cases h
    rfl

theorem stable_take (n : ℕ) : Stable (take n) := by
  intro bs a rest h more
  simp only [take, Option.ite_none_right_eq_some] at h
  obtain ⟨hn, rfl, rfl⟩ := h
  have hn' : n ≤ (bs ++ more).length := by
    rw [length_append]
    omega
  rw [take, if_pos hn', take_append_of_le_length hn, drop_append_of_le_length hn]

theorem stable_ofOption (o : Option α) : Stable (ofOption o) := by
  cases o with
  | none => exact fun _ _ _ h => nomatch h
  | some a => exact stable_pure a

theorem Stable.bind (h : Stable d) (h' : ∀ a, Stable (f a)) : Stable (d >>= f) := by
  intro bs b rest hb more
  obtain ⟨⟨a, mid⟩, ha, hf⟩ := Option.bind_eq_some_iff.1 hb
  rw [bind_apply, h bs a mid ha more]
  exact h' a mid b rest hf more

theorem Stable.times (h : Stable d) (n : ℕ) : Stable (times d n) := by
  induction n with
  | zero => exact stable_pure []
  | succ n ih => exact h.bind fun a => ih.bind fun as => stable_pure (a :: as)

theorem Stable.waits (h : Stable d) (hr : Reads d bs a) (hn : n < bs.length) :
    d (bs.take n) = none := by
  cases hd : d (bs.take n) with
  | none => rfl
  | some r =>
    -- with the rest of `bs` it would read `r` and leave that rest
    have ha := h _ r.1 r.2 hd (bs.drop n)
    rw [take_append_drop] at ha
    have hw := hr []
    rw [append_nil, ha] at hw
    have hre : r.2 ++ bs.drop n = [] := congrArg Prod.snd (Option.some.inj hw)
    have hdr : bs.drop n = [] := (List.append_eq_nil_iff.1 hre).2
    have := List.drop_eq_nil_iff.1 hdr
    omega

theorem times_add (d : Decoder α) (n k : ℕ) :
    times d (n + k) = do return (← times d n) ++ (← times d k) := by
  induction n with
  | zero => simp [times]
  | succ n ih =>
    rw [Nat.add_right_comm, times, ih]
    simp [times]

theorem times_concat {mid rest : List UInt8} {as : List α} (h : times d n bs = some (as, mid))
    (ha : d mid = some (a, rest)) : times d (n + 1) bs = some (as ++ [a], rest) := by
  have ho : times d 1 mid = some ([a], rest) := by
    rw [times, bind_apply, ha]
    rfl
  rw [times_add, bind_apply, h, Option.bind_some, bind_apply, ho]
  rfl

theorem times_cons {rest : List UInt8} {as : List α}
    (h : times d (n + 1) bs = some (a :: as, rest)) :
    ∃ mid, d bs = some (a, mid) ∧ times d n mid = some (as, rest) := by
  rw [times] at h
  obtain ⟨⟨b, mid⟩, hb, hr⟩ := Option.bind_eq_some_iff.1 h
  obtain ⟨⟨bs', mid'⟩, hbs, hp⟩ := Option.bind_eq_some_iff.1 hr
  cases hp
  exact ⟨mid, hb, hbs⟩

end Decoder

def leBytes : ℕ → ℕ → List UInt8
  | 0, _ => []
  | size + 1, n => UInt8.ofNat n :: leBytes size (n / 256)

def ofLeBytes : List UInt8 → ℕ
  | [] => 0
  | b :: bs => b.toNat + 256 * ofLeBytes bs

@[simp] theorem length_leBytes (size n : ℕ) : (leBytes size n).length = size := by
  induction size generalizing n with
  | zero => rfl
  | succ size ih => simp [leBytes, ih]

theorem ofLeBytes_leBytes {size : ℕ} (h : n >>> (8 * size) = 0) :
    ofLeBytes (leBytes size n) = n := by
  induction size generalizing n with
  | zero => simpa [leBytes, ofLeBytes] using h.symm
  | succ size ih =>
    have hr : (n / 256) >>> (8 * size) = 0 := by
      rw [show n / 256 = n >>> 8 by rw [Nat.shiftRight_eq_div_pow], ← Nat.shiftRight_add,
        show 8 + 8 * size = 8 * (size + 1) by omega]
      exact h
    rw [leBytes, ofLeBytes, ih hr, UInt8.toNat_ofNat']
    omega

theorem ofLeBytes_append_zeros (bs : List UInt8) (n : ℕ) :
    ofLeBytes (bs ++ List.replicate n 0) = ofLeBytes bs := by
  induction bs with
  | nil =>
    induction n with
    | zero => rfl
    | succ n ih =>
      rw [nil_append] at ih ⊢
      show (0 : UInt8).toNat + 256 * ofLeBytes (List.replicate n 0) = 0
      rw [ih]
      rfl
  | cons b bs ih => rw [cons_append, ofLeBytes, ofLeBytes, ih]

end BalanSir.Lib
