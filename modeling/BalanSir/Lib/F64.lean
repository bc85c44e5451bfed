/-
# Double-precision numbers

Rationals, infinities and NaN, with arithmetic that rounds to even.
-/

import Mathlib.Data.Int.Log
import Mathlib.Data.Rat.Floor
import Mathlib.Order.WithBot

namespace BalanSir.Lib

/-- Zero has no sign here. -/
inductive F64 where
  | nan
  | negInf
  | fin (x : ℚ)
  | posInf
  deriving DecidableEq

namespace F64

def roundEven (x : ℚ) : ℤ :=
  let n := ⌊x⌋
  if x - n < 1 / 2 ∨ x - n = 1 / 2 ∧ n % 2 = 0 then n else n + 1

/-- The nearest double, of two the even one. -/
def ofRat (x : ℚ) : F64 :=
  let ulp : ℚ := 2 ^ (max (Int.log 2 |x|) (-1022) - 52)
  let y := roundEven (x / ulp) * ulp
  if 2 ^ 1024 ≤ y then posInf else if y ≤ -2 ^ 1024 then negInf else fin y

def ofNat (n : ℕ) : F64 := ofRat n

instance (n : ℕ) : OfNat F64 n := ⟨ofNat n⟩

def neg : F64 → F64
  | nan => nan
  | negInf => posInf
  | fin x => fin (-x)
  | posInf => negInf

def add : F64 → F64 → F64
  | fin x, fin y => ofRat (x + y)
  | fin _, y => y
  | x, fin _ => x
  | posInf, posInf => posInf
  | negInf, negInf => negInf
  | _, _ => nan

def infSigned (sign : ℚ) : F64 := if 0 < sign then posInf else if sign < 0 then negInf else nan

def sign : F64 → ℚ
  | negInf => -1
  | posInf => 1
  | fin x => x
  | nan => 0

def mul : F64 → F64 → F64
  | fin x, fin y => ofRat (x * y)
  | x, y => infSigned (x.sign * y.sign)

def div : F64 → F64 → F64
  | fin x, fin y => if y = 0 then infSigned x else ofRat (x / y)
  | fin _, posInf | fin _, negInf => fin 0
  | x, fin y => if y = 0 then infSigned x.sign else infSigned (x.sign * y)
  | _, _ => nan

instance : Add F64 := ⟨add⟩
instance : Sub F64 := ⟨fun x y => x.add y.neg⟩
instance : Mul F64 := ⟨mul⟩
instance : Div F64 := ⟨div⟩

def isFinite : F64 → Bool
  | fin _ => true
  | _ => false

def abs : F64 → F64
  | nan => nan
  | fin x => fin |x|
  | _ => posInf

def value? : F64 → Option (WithBot (WithTop ℚ))
  | nan => none
  | negInf => some ⊥
  | fin x => some ((x : WithTop ℚ) : WithBot (WithTop ℚ))
  | posInf => some ((⊤ : WithTop ℚ) : WithBot (WithTop ℚ))

def partialCmp (x y : F64) : Option Ordering :=
  match x.value?, y.value? with
  | some v, some w => some (compare v w)
  | _, _ => none

def lt (x y : F64) : Bool := x.partialCmp y = some .lt

def ge (x y : F64) : Bool := x.partialCmp y = some .gt || x.partialCmp y = some .eq

def max (x y : F64) : F64 :=
  if x = nan then y else if y = nan then x else if x.lt y then y else x

def clamp (x lo hi : F64) : F64 := if x.lt lo then lo else if hi.lt x then hi else x

variable {x y : F64}

theorem partialCmp_of_value {v w : WithBot (WithTop ℚ)} (hx : x.value? = some v)
    (hy : y.value? = some w) : x.partialCmp y = some (compare v w) := by
  simp [partialCmp, hx, hy]

theorem value?_eq_none {x : F64} : x.value? = none ↔ x = nan := by
  cases x <;> simp [value?]

theorem value?_inj (hx : x ≠ nan) : x.value? = y.value? ↔ x = y := by
  cases x <;> cases y <;> simp_all [value?]

theorem max_ne_nan (hy : y ≠ nan) : x.max y ≠ nan := by
  unfold max
  split_ifs with hx
  · exact hy
  · exact hy
  · exact hx

def decimal (digits n : ℕ) : List Char :=
  let text := Nat.toDigits 10 n
  if digits = 0 then text
  else
    let text := List.replicate (digits + 1 - text.length) '0' ++ text
    text.take (text.length - digits) ++ '.' :: text.drop (text.length - digits)

def signed (text : ℚ → List Char) : F64 → List Char
  | nan => "NaN".toList
  | negInf => "-inf".toList
  | posInf => "inf".toList
  | fin x => (if x < 0 then ['-'] else []) ++ text |x|

def fixed (digits : ℕ) : F64 → List Char :=
  signed fun x => decimal digits (roundEven (x * 10 ^ digits)).toNat

def shortestOf (x : ℚ) (digits : ℕ) : List ℚ :=
  let unit : ℚ := 10 ^ (Int.log 10 x + 1 - digits)
  let below := ⌊x / unit⌋ * unit
  let near := if x - below ≤ below + unit - x then [below, below + unit] else [below + unit, below]
  near.filter fun d => ofRat d = fin x

def display : F64 → List Char :=
  signed fun x =>
    match ((List.range 17).flatMap fun k => shortestOf x (k + 1)).head? with
    | some d =>
      match (List.range 1100).find? fun k => (d * 10 ^ k).den = 1 with
      | some k => decimal k (d * 10 ^ k).num.toNat
      | none => []
    | none => ['0']

end F64
end BalanSir.Lib
