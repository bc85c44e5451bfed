/-
# Items one behind the other

A loop over places in a list, against a scan over the items that stand there.
-/

import BalanSir.Lib.Checked

namespace BalanSir.Lib

open List

structure ItemFormat (α : Type) where
  encode : α → Bytes
  Valid : α → Prop
  next : Bytes → Option (α × Bytes)
  next_eq_some : ∀ {bs a more}, next bs = some (a, more) ↔ Valid a ∧ bs = encode a ++ more
  length_pos : ∀ {a}, Valid a → 0 < (encode a).length

namespace ItemFormat

variable {α : Type} (fmt : ItemFormat α)

def upTo : ℕ → Bytes → List α × Bytes
  | 0, bs => ([], bs)
  | n + 1, bs =>
    match fmt.next bs with
    | none => ([], bs)
    | some (a, more) => (a :: (upTo n more).1, (upTo n more).2)

def items (bs : Bytes) : List α := (fmt.upTo bs.length bs).1

def rest (bs : Bytes) : Bytes := (fmt.upTo bs.length bs).2

variable {fmt} {bs more : Bytes} {a : α}

theorem length_of_next (h : fmt.next bs = some (a, more)) :
    bs.length = (fmt.encode a).length + more.length := by
  rw [(fmt.next_eq_some.1 h).2, length_append]

theorem length_lt_of_next (h : fmt.next bs = some (a, more)) : more.length < bs.length := by
  have hp := fmt.length_pos (fmt.next_eq_some.1 h).1
  have hl := length_of_next h
  omega

theorem upTo_of_le {n m : ℕ} (hn : bs.length ≤ n) (hm : bs.length ≤ m) :
    fmt.upTo n bs = fmt.upTo m bs := by
  induction n generalizing bs m with
  | zero =>
    cases m with
    | zero => rfl
    | succ m =>
      cases hne : fmt.next bs with
      | none => rw [upTo, upTo, hne]
      | some r => exact absurd (length_lt_of_next hne) (by omega)
  | succ n ih =>
    cases hne : fmt.next bs with
    | none =>
      cases m with
      | zero => rw [upTo, upTo, hne]
      | succ m => rw [upTo, upTo, hne]
    | some r =>
      obtain ⟨a, more⟩ := r
      have hlt := length_lt_of_next hne
      cases m with
      | zero => omega
      | succ m =>
        rw [upTo, upTo, hne]
        dsimp only
        rw [ih (by omega) (by omega : more.length ≤ m)]

theorem items_of_none (h : fmt.next bs = none) : fmt.items bs = [] := by
  rw [items]
  cases bs.length with
  | zero => rfl
  | succ n => rw [upTo, h]

theorem rest_of_none (h : fmt.next bs = none) : fmt.rest bs = bs := by
  rw [rest]
  cases bs.length with
  | zero => rfl
  | succ n => rw [upTo, h]

theorem upTo_of_some (h : fmt.next bs = some (a, more)) :
    fmt.upTo bs.length bs = (a :: fmt.items more, fmt.rest more) := by
  have hlt := length_lt_of_next h
  obtain ⟨n, hn⟩ := Nat.exists_eq_succ_of_ne_zero (Nat.ne_zero_of_lt hlt)
  rw [hn, upTo, h, items, rest]
  dsimp only
  rw [upTo_of_le (by omega : more.length ≤ n) (Nat.le_refl _)]

theorem items_of_some (h : fmt.next bs = some (a, more)) : fmt.items bs = a :: fmt.items more := by
  rw [items, upTo_of_some h]

theorem rest_of_some (h : fmt.next bs = some (a, more)) : fmt.rest bs = fmt.rest more := by
  rw [rest, upTo_of_some h]

/-- **Induction along the items.** -/
theorem induct {P : Bytes → Prop} (stop : ∀ bs, fmt.next bs = none → P bs)
    (item : ∀ bs a more, fmt.next bs = some (a, more) → P more → P bs) (bs : Bytes) : P bs := by
  induction h : bs.length using Nat.strongRecOn generalizing bs with
  | ind n ih =>
    cases hn : fmt.next bs with
    | none => exact stop bs hn
    | some r =>
      have hlt := length_lt_of_next hn
      exact item bs r.1 r.2 hn (ih r.2.length (by omega) r.2 rfl)

theorem flatMap_items (bs : Bytes) : (fmt.items bs).flatMap fmt.encode ++ fmt.rest bs = bs := by
  induction bs using fmt.induct with
  | stop bs h => rw [items_of_none h, rest_of_none h, flatMap_nil, nil_append]
  | item bs a more h ih =>
    rw [items_of_some h, rest_of_some h, flatMap_cons, append_assoc, ih, (fmt.next_eq_some.1 h).2]

theorem length_encode_le (h : a ∈ fmt.items bs) : (fmt.encode a).length ≤ bs.length := by
  obtain ⟨before, after, heq⟩ := append_of_mem h
  have ha := congrArg List.length (fmt.flatMap_items bs)
  rw [heq, flatMap_append, flatMap_cons] at ha
  simp only [length_append] at ha
  omega

theorem drop_items (bs : Bytes) :
    bs.drop ((fmt.items bs).flatMap fmt.encode).length = fmt.rest bs := by
  have hd : ((fmt.items bs).flatMap fmt.encode ++ fmt.rest bs).drop
      ((fmt.items bs).flatMap fmt.encode).length = fmt.rest bs := drop_left
  rwa [flatMap_items] at hd

theorem valid_of_mem_items (h : a ∈ fmt.items bs) : fmt.Valid a := by
  induction bs using fmt.induct with
  | stop bs hn =>
    rw [items_of_none hn] at h
    cases h
  | item bs b more hn ih =>
    rw [items_of_some hn] at h
    cases h with
    | head => exact (fmt.next_eq_some.1 hn).1
    | tail _ h => exact ih h

theorem items_append {l : List α} (h : ∀ a ∈ l, fmt.Valid a) (bs : Bytes) :
    fmt.items (l.flatMap fmt.encode ++ bs) = l ++ fmt.items bs := by
  induction l with
  | nil => rfl
  | cons a l ih =>
    have hn : fmt.next ((a :: l).flatMap fmt.encode ++ bs) =
        some (a, l.flatMap fmt.encode ++ bs) := by
      rw [fmt.next_eq_some, flatMap_cons, append_assoc]
      exact ⟨h a mem_cons_self, rfl⟩
    rw [items_of_some hn, ih fun b hb => h b (mem_cons_of_mem a hb), cons_append]

theorem find_items_append {p : α → Bool} {before : List α} (hv : ∀ b ∈ before, fmt.Valid b)
    (hbe : ∀ b ∈ before, p b = false) (ha : fmt.Valid a) (hp : p a) (after : Bytes) :
    (fmt.items (before.flatMap fmt.encode ++ (fmt.encode a ++ after))).find? p = some a := by
  have hn : fmt.next (fmt.encode a ++ after) = some (a, after) := fmt.next_eq_some.2 ⟨ha, rfl⟩
  rw [items_append hv, items_of_some hn, find?_append,
    List.find?_eq_none.2 fun b hb => by simp [hbe b hb], find?_cons_of_pos hp]
  rfl

theorem items_prefix (bs tail : Bytes) :
    fmt.items (bs ++ tail) = fmt.items bs ++ fmt.items (fmt.rest bs ++ tail) := by
  rw [← items_append fun a ha => valid_of_mem_items ha, ← append_assoc, flatMap_items]

section Loops

variable {σ τ β : Type} (fmt) (visit : ℕ → σ → α → σ ⊕ β) (finish : ℕ → σ → β)

def scan : List α → ℕ → σ → β
  | [], i, s => finish i s
  | a :: l, i, s =>
    match visit i s a with
    | .inl s => scan l (i + (fmt.encode a).length) s
    | .inr b => b

def turn (state : ℕ → σ → τ) (bs : Bytes) (i : ℕ) (s : σ) : τ ⊕ β :=
  match fmt.next (bs.drop i) with
  | none => .inr (finish i s)
  | some (a, _) =>
    match visit i s a with
    | .inl s => .inl (state (i + (fmt.encode a).length) s)
    | .inr b => .inr b

variable {fmt visit finish} {state : ℕ → σ → τ} {i : ℕ} {body : τ → Checked (τ ⊕ β)}

theorem turn_of_none (h : fmt.next (bs.drop i) = none) (s : σ) :
    fmt.turn visit finish state bs i s = .inr (finish i s) := by
  rw [turn, h]

theorem turn_of_some (h : fmt.next (bs.drop i) = some (a, more)) (s : σ) :
    fmt.turn visit finish state bs i s =
      match visit i s a with
      | .inl s => .inl (state (i + (fmt.encode a).length) s)
      | .inr b => .inr b := by
  rw [turn, h]

theorem drop_of_next (hi : i ≤ bs.length) (h : fmt.next (bs.drop i) = some (a, more)) :
    bs.drop (i + (fmt.encode a).length) = more ∧ i + (fmt.encode a).length ≤ bs.length ∧
      0 < (fmt.encode a).length := by
  obtain ⟨hv, hm⟩ := fmt.next_eq_some.1 h
  have hl := length_of_next h
  rw [length_drop] at hl
  refine ⟨?_, by omega, fmt.length_pos hv⟩
  rw [← drop_drop, hm, drop_left]

/-- **A loop over places is a scan over items.** -/
theorem rounds_eq_scan {state : ℕ → σ → τ} (h : ∀ i s o, i ≤ bs.length → body (state i s) = .ok o →
      o = fmt.turn visit finish state bs i s ∨
        o = .inr (fmt.scan visit finish (fmt.items (bs.drop i)) i s))
    {n i : ℕ} {s : σ} {b : β} (hi : i ≤ bs.length) (hb : rounds body n (state i s) = .ok b) :
    b = fmt.scan visit finish (fmt.items (bs.drop i)) i s := by
  induction n generalizing i s with
  | zero => cases hb
  | succ n ih =>
    rw [rounds, bind_eq_ok] at hb
    obtain ⟨o, ho, hb⟩ := hb
    rcases h i s o hi ho with rfl | rfl
    case inr => exact (Except.ok.inj hb).symm
    unfold turn at hb
    cases hn : fmt.next (bs.drop i) with
    | none =>
      rw [hn] at hb
      rw [items_of_none hn]
      exact (Except.ok.inj hb).symm
    | some r =>
      obtain ⟨a, more⟩ := r
      rw [hn] at hb
      rw [items_of_some hn, scan]
      dsimp only at hb
      cases hv : visit i s a with
      | inr b' =>
        rw [hv] at hb
        exact (Except.ok.inj hb).symm
      | inl s' =>
        rw [hv] at hb
        obtain ⟨hd, hle, -⟩ := drop_of_next hi hn
        have := ih hle hb
        rwa [hd] at this

/-- **A loop that does a turn in every round ends** with the result of the scan. -/
theorem rounds_of_turn {state : ℕ → σ → τ}
    (h : ∀ i s, i ≤ bs.length → body (state i s) = .ok (fmt.turn visit finish state bs i s))
    {n i : ℕ} {s : σ} (hi : i ≤ bs.length) (hn : bs.length - i < n) :
    rounds body n (state i s) = .ok (fmt.scan visit finish (fmt.items (bs.drop i)) i s) := by
  induction n generalizing i s with
  | zero => cases hn
  | succ n ih =>
    rw [rounds, h i s hi]
    cases hne : fmt.next (bs.drop i) with
    | none =>
      rw [turn_of_none hne, items_of_none hne]
      rfl
    | some r =>
      rw [turn_of_some hne, items_of_some hne, scan]
      cases hv : visit i s r.1 with
      | inr b => rfl
      | inl s' =>
        obtain ⟨hd, hle, hp⟩ := drop_of_next hi hne
        rw [← hd]
        exact ih hle (by omega)

variable {before after : List α} {i : ℕ} {s : σ}

theorem scan_of_forall {l : List α} (h : ∀ a ∈ l, ∀ i, visit i s a = .inl s) (i : ℕ) :
    fmt.scan visit finish l i s = finish (i + (l.flatMap fmt.encode).length) s := by
  induction l generalizing i with
  | nil => rfl
  | cons a l ih =>
    rw [scan, h a mem_cons_self]
    dsimp only
    rw [ih fun b hb => h b (mem_cons_of_mem a hb), flatMap_cons, length_append, Nat.add_assoc]

theorem scan_find {p : α → Prop} [DecidablePred p] {f : α → β} {d : β} (l : List α) (i : ℕ)
    (s : σ) : fmt.scan (fun _ s a => if p a then .inr (f a) else .inl s) (fun _ _ => d) l i s =
      ((l.find? (p ·)).map f).getD d := by
  induction l generalizing i with
  | nil => rfl
  | cons a l ih =>
    rw [scan, find?_cons]
    by_cases hp : p a
    · rw [if_pos hp, decide_eq_true hp]
      rfl
    · rw [if_neg hp, decide_eq_false hp]
      exact ih _

theorem scan_of_split {b : β} (h : ∀ a ∈ before, ∀ i, visit i s a = .inl s)
    (ha : visit (i + (before.flatMap fmt.encode).length) s a = .inr b) :
    fmt.scan visit finish (before ++ a :: after) i s = b := by
  induction before generalizing i with
  | nil =>
    rw [flatMap_nil, length_nil, Nat.add_zero] at ha
    rw [nil_append, scan, ha]
  | cons a' before ih =>
    rw [flatMap_cons, length_append, ← Nat.add_assoc] at ha
    rw [cons_append, scan, h a' mem_cons_self]
    exact ih (fun x hx => h x (mem_cons_of_mem a' hx)) ha

theorem scan_eq_foldl {g : σ → α → σ} (h : ∀ i s a, visit i s a = .inl (g s a)) (l : List α)
    (i : ℕ) (s : σ) : fmt.scan visit finish l i s =
      finish (i + (l.flatMap fmt.encode).length) (l.foldl g s) := by
  induction l generalizing i s with
  | nil => rfl
  | cons a l ih =>
    rw [scan, h]
    dsimp only
    rw [ih, flatMap_cons, length_append, Nat.add_assoc, foldl_cons]

end Loops

end ItemFormat

structure Tagged where
  tag : Bytes
  data : Bytes
deriving DecidableEq

section Tagged

variable {h : ℕ} {bs more : Bytes} {e : Tagged}

theorem between_drop (bs : Bytes) (i j k : ℕ) :
    between (bs.drop i) j k = between bs (i + j) (i + k) := by
  rw [between, between, drop_take, drop_take, drop_drop, Nat.add_sub_add_left]

theorem be16Bytes_wordAt {i : ℕ} (hi : i + 2 ≤ bs.length) :
    be16Bytes (wordAt bs i) = between bs i (i + 2) := by
  have hh : UInt8.ofNat (wordAt bs i / 256) = bs.getD i 0 := by
    have hl := (bs.getD (i + 1) 0).toNat_lt
    rw [wordAt, be16, Nat.mul_comm, Nat.mul_add_div (by decide), Nat.div_eq_of_lt hl,
      Nat.add_zero, UInt8.ofNat_toNat]
  have hl : UInt8.ofNat (wordAt bs i) = bs.getD (i + 1) 0 := by
    have hlt := (bs.getD (i + 1) 0).toNat_lt
    apply UInt8.toNat_inj.1
    rw [UInt8.toNat_ofNat', wordAt, be16]
    omega
  rw [be16Bytes, hh, hl, between_eq_cons (by omega) hi, between_eq_cons (by omega) hi, between_self]

theorem wordAt_tag (ht : e.tag.length = h) (hl : e.data.length < 65536) :
    wordAt (e.tag ++ (be16Bytes e.data.length ++ e.data) ++ more) h = e.data.length := by
  have hd := wordAt_drop (e.tag ++ (be16Bytes e.data.length ++ e.data) ++ more) h 0
  rw [append_assoc, drop_left' ht, append_assoc, Nat.add_zero] at hd
  rw [append_assoc, append_assoc, ← hd]
  exact (be16_be16Bytes _).trans (Nat.mod_eq_of_lt hl)

def tlv (h : ℕ) : ItemFormat Tagged where
  encode e := e.tag ++ (be16Bytes e.data.length ++ e.data)
  Valid e := e.tag.length = h ∧ e.data.length < 65536
  next bs :=
    if h + 2 + wordAt bs h ≤ bs.length then
      some (⟨bs.take h, between bs (h + 2) (h + 2 + wordAt bs h)⟩, bs.drop (h + 2 + wordAt bs h))
    else none
  next_eq_some := by
    intro bs e more
    constructor
    · intro hnext
      rw [Option.ite_none_right_eq_some] at hnext
      obtain ⟨hle, hsome⟩ := hnext
      cases hsome
      have hdata := length_between (i := h + 2) hle
      rw [Nat.add_sub_cancel_left] at hdata
      refine ⟨⟨length_take_of_le (by omega), ?_⟩, ?_⟩
      · rw [hdata]
        exact wordAt_lt bs h
      · rw [hdata, be16Bytes_wordAt (by omega), between_append (by omega) (by omega)]
        show bs = between bs 0 h ++ _ ++ _
        rw [between_append (by omega) (by omega)]
        exact (take_append_drop _ _).symm
    · rintro ⟨⟨htag, hlen⟩, rfl⟩
      have hat : FromOn (e.tag ++ (be16Bytes e.data.length ++ e.data) ++ more) (h + 2)
          (e.data ++ more) := by
        have hall : FromOn (e.tag ++ (be16Bytes e.data.length ++ e.data) ++ more) 0
            (e.tag ++ (be16Bytes e.data.length ++ (e.data ++ more))) :=
          ⟨Nat.zero_le _, by rw [drop_zero, append_assoc, append_assoc]⟩
        exact (hall.skip_to (by omega : 0 + e.tag.length = h)).skip
      have htotal := hat.length
      rw [length_append] at htotal
      have hslice := hat.slice
      rw [slice_of_le (by omega) (by omega)] at hslice
      rw [wordAt_tag htag hlen, if_pos (by omega), Except.ok.inj hslice, hat.skip.2]
      congr 3
      rw [append_assoc, take_left' htag]
  length_pos := by
    rintro e ⟨-, -⟩
    simp only [length_append, length_be16Bytes]
    omega

theorem tlv_encode (e : Tagged) :
    (tlv h).encode e = e.tag ++ (be16Bytes e.data.length ++ e.data) := rfl

theorem tlv_valid_of_mem {l : List Tagged} (ht : ∀ e ∈ l, e.tag.length = h)
    (hl : (l.flatMap (tlv h).encode).length < 65536) (he : e ∈ l) : (tlv h).Valid e := by
  obtain ⟨before, after, rfl⟩ := append_of_mem he
  refine ⟨ht e he, ?_⟩
  rw [flatMap_append, flatMap_cons, tlv_encode] at hl
  simp only [length_append] at hl
  omega

theorem tag_ne_of_nodup {before after : List Tagged} {e' : Tagged}
    (h : ((before ++ e :: after).map Tagged.tag).Nodup) (he' : e' ∈ before) : e'.tag ≠ e.tag := by
  rw [map_append] at h
  exact (List.nodup_append.1 h).2.2 _ (mem_map_of_mem he') _ mem_cons_self

section Loop

variable {σ τ β : Type} {visit : ℕ → σ → Tagged → σ ⊕ β} {finish : ℕ → σ → β}
  {state : ℕ → σ → τ} {i : ℕ}

theorem turn_tlv_of_le (hle : i + h + 2 + wordAt bs (i + h) ≤ bs.length) (s : σ) :
    (tlv h).turn visit finish state bs i s =
      match visit i s ⟨between bs i (i + h),
        between bs (i + h + 2) (i + h + 2 + wordAt bs (i + h))⟩ with
      | .inl s => .inl (state (i + h + 2 + wordAt bs (i + h)) s)
      | .inr b => .inr b := by
  have hf : h + 2 + wordAt (bs.drop i) h ≤ (bs.drop i).length := by
    rw [wordAt_drop, length_drop]
    omega
  have ht : (bs.drop i).take h = between bs i (i + h) := by
    rw [between, drop_take, Nat.add_sub_cancel_left]
  have hd : between (bs.drop i) (h + 2) (h + 2 + wordAt (bs.drop i) h) =
      between bs (i + h + 2) (i + h + 2 + wordAt bs (i + h)) := by
    rw [between_drop, wordAt_drop]
    congr 1
    omega
  obtain ⟨more, hn⟩ : ∃ more, (tlv h).next (bs.drop i) = some (⟨between bs i (i + h),
      between bs (i + h + 2) (i + h + 2 + wordAt bs (i + h))⟩, more) := by
    rw [← ht, ← hd]
    exact ⟨_, if_pos hf⟩
  have hl : ((tlv h).encode ⟨between bs i (i + h),
      between bs (i + h + 2) (i + h + 2 + wordAt bs (i + h))⟩).length =
        h + 2 + wordAt bs (i + h) := by
    rw [tlv_encode, length_append, length_append, length_be16Bytes,
      length_between (by omega), length_between hle]
    omega
  have hp : i + (h + 2 + wordAt bs (i + h)) = i + h + 2 + wordAt bs (i + h) := by omega
  rw [ItemFormat.turn_of_some hn, hl, hp]

theorem turn_tlv_of_lt (hlt : bs.length < i + h + 2 + wordAt bs (i + h)) (s : σ) :
    (tlv h).turn visit finish state bs i s = .inr (finish i s) := by
  have hn : (tlv h).next (bs.drop i) = none := by
    refine if_neg ?_
    rw [wordAt_drop, length_drop]
    omega
  exact ItemFormat.turn_of_none hn s

end Loop

end Tagged

end BalanSir.Lib
