/-
# Addresses and their text

`Ipv4Addr` and `Ipv6Addr`: parsing, printing, and the private ranges.
-/

import Mathlib.Data.List.Basic

namespace BalanSir.Net

open List

inductive IpAddr where
  | v4 (a : BitVec 32)
  | v6 (a : BitVec 128)
  deriving DecidableEq

def IpAddr.ofOctets (a b c d : UInt8) : IpAddr :=
  .v4 (BitVec.ofNat 32 (((a.toNat * 256 + b.toNat) * 256 + c.toNat) * 256 + d.toNat))

def IpAddr.ofOctets16 (octets : List UInt8) : IpAddr :=
  .v6 (BitVec.ofNat 128 (octets.foldl (fun n b => n * 256 + b.toNat) 0))

def IpAddr.isUnspecified : IpAddr → Bool
  | .v4 a => a == 0
  | .v6 a => a == 0

def octet (a : BitVec 32) (i : ℕ) : ℕ := a.toNat >>> (8 * (3 - i)) % 256

def IpAddr.isLoopback : IpAddr → Bool
  | .v4 a => octet a 0 == 127
  | .v6 a => a == 1

def IpAddr.isMulticast : IpAddr → Bool
  | .v4 a => 224 ≤ octet a 0 && octet a 0 ≤ 239
  | .v6 a => a.toNat >>> 120 == 0xff

def segment (a : BitVec 128) (i : ℕ) : ℕ := a.toNat >>> (16 * (7 - i)) % 65536

def segments (a : BitVec 128) : List ℕ := (List.range 8).map (segment a)

def ipv4Text (a : BitVec 32) : List Char :=
  List.intercalate ['.'] ((List.range 4).map fun i => Nat.toDigits 10 (octet a i))

/-- A run of zero groups: `Span` in `Display` of `Ipv6Addr`. -/
structure Span where
  start : ℕ
  len : ℕ
  deriving DecidableEq

def longestZeros (longest current : Span) (i : ℕ) : List ℕ → Span
  | [] => longest
  | 0 :: rest =>
    let start := if current.len = 0 then i else current.start
    let current := Span.mk start (current.len + 1)
    longestZeros (if longest.len < current.len then current else longest) current (i + 1) rest
  | _ :: rest => longestZeros longest ⟨0, 0⟩ (i + 1) rest

def fmtSubslice (chunk : List ℕ) : List Char :=
  List.intercalate [':'] (chunk.map (Nat.toDigits 16))

def ipv6Text (a : BitVec 128) : List Char :=
  if a.toNat >>> 32 = 0xffff then
    "::ffff:".toList ++ ipv4Text (BitVec.ofNat 32 a.toNat)
  else
    let groups := segments a
    let zeros := longestZeros ⟨0, 0⟩ ⟨0, 0⟩ 0 groups
    if 1 < zeros.len then
      fmtSubslice (groups.take zeros.start) ++ "::".toList
        ++ fmtSubslice (groups.drop (zeros.start + zeros.len))
    else fmtSubslice groups

def IpAddr.toText : IpAddr → String
  | .v4 a => String.ofList (ipv4Text a)
  | .v6 a => String.ofList (ipv6Text a)

/-- A parser reads a prefix of the text and returns what is left of it. -/
abbrev Parser (α : Type) := List Char → Option (α × List Char)

def toDigit (radix : ℕ) (c : Char) : Option ℕ :=
  let d :=
    if '0' ≤ c ∧ c ≤ '9' then some (c.toNat - '0'.toNat)
    else if 'a' ≤ c ∧ c ≤ 'z' then some (c.toNat - 'a'.toNat + 10)
    else if 'A' ≤ c ∧ c ≤ 'Z' then some (c.toNat - 'A'.toNat + 10)
    else none
  d.filter (· < radix)

def readDigits (radix : ℕ) (value count : ℕ) : List Char → ℕ × ℕ × List Char
  | [] => (value, count, [])
  | c :: rest =>
    match toDigit radix c with
    | some d => readDigits radix (value * radix + d) (count + 1) rest
    | none => (value, count, c :: rest)

def readNumber (radix maxDigits bound : ℕ) (allowZeroPrefix : Bool) : Parser ℕ := fun s =>
  let (value, count, rest) := readDigits radix 0 0 s
  if maxDigits < count then none
  else if count = 0 then none
  else if !allowZeroPrefix && s.head? == some '0' && decide (1 < count) then none
  else if value < bound then some (value, rest) else none

def readGivenChar (c : Char) : Parser Unit
  | [] => none
  | d :: rest => if d = c then some ((), rest) else none

def readSeparator {α : Type} (sep : Char) (index : ℕ) (inner : Parser α) : Parser α := fun s =>
  if index = 0 then inner s
  else match readGivenChar sep s with
    | some (_, rest) => inner rest
    | none => none

def readOctets (i : ℕ) (acc : ℕ) : ℕ → Parser ℕ
  | 0 => fun s => some (acc, s)
  | n + 1 => fun s =>
    match readSeparator '.' i (readNumber 10 3 256 false) s with
    | some (o, rest) => readOctets (i + 1) (acc * 256 + o) n rest
    | none => none

def readIpv4Addr : Parser ℕ := readOctets 0 0 4

def readGroups (i : ℕ) : ℕ → List Char → List ℕ × Bool × List Char
  | 0, s => ([], false, s)
  | n + 1, s =>
    let ipv4 := if 0 < n then readSeparator ':' i readIpv4Addr s else none
    match ipv4 with
    | some (a, rest) => ([a / 65536, a % 65536], true, rest)
    | none =>
      match readSeparator ':' i (readNumber 16 4 65536 true) s with
      | some (g, rest) =>
        let (gs, v4, rest) := readGroups (i + 1) n rest
        (g :: gs, v4, rest)
      | none => ([], false, s)

def ofSegments (gs : List ℕ) : BitVec 128 :=
  BitVec.ofNat 128 (gs.foldl (fun a g => a * 65536 + g) 0)

def readIpv6Addr : Parser (BitVec 128) := fun s =>
  let (head, headV4, s) := readGroups 0 8 s
  if head.length = 8 then some (ofSegments head, s)
  -- an IPv4 part is not allowed before `::`
  else if headV4 then none
  else match s with
    | ':' :: ':' :: s =>
      let (tail, _, s) := readGroups 0 (8 - (head.length + 1)) s
      let zeros := List.replicate (8 - head.length - tail.length) 0
      some (ofSegments (head ++ zeros ++ tail), s)
    | _ => none

def IpAddr.ofText (text : String) : Option IpAddr :=
  match readIpv4Addr text.toList with
  | some (a, []) => some (.v4 (BitVec.ofNat 32 a))
  | some (_, _ :: _) => none
  | none =>
    match readIpv6Addr text.toList with
    | some (a, []) => some (.v6 a)
    | _ => none

def ipv4OfText (text : String) : Option (BitVec 32) :=
  match IpAddr.ofText text with
  | some (.v4 a) => some a
  | _ => none

variable {radix : ℕ} {rest : List Char} {n : ℕ}

theorem readDigits_append {digits rest : List Char} (hd : ∀ c ∈ digits, (toDigit radix c).isSome)
    (hr : ∀ c ∈ rest.head?, toDigit radix c = none) (value count : ℕ) :
    readDigits radix value count (digits ++ rest) =
      ((readDigits radix value count digits).1, (readDigits radix value count digits).2.1,
        rest) := by
  induction digits generalizing value count with
  | nil =>
    cases rest with
    | nil => rfl
    | cons c rest => simp [readDigits, hr c rfl]
  | cons c digits ih =>
    obtain ⟨d, hc⟩ := Option.isSome_iff_exists.1 (hd c mem_cons_self)
    rw [cons_append, readDigits, readDigits, hc]
    exact ih (fun x hx => hd x (mem_cons_of_mem _ hx)) _ _

theorem readDigits_concat {d : ℕ} {digits : List Char} {c : Char}
    (hd : ∀ c ∈ digits, (toDigit radix c).isSome) (hc : toDigit radix c = some d)
    (value count : ℕ) : readDigits radix value count (digits ++ [c]) =
      ((readDigits radix value count digits).1 * radix + d,
        (readDigits radix value count digits).2.1 + 1, []) := by
  induction digits generalizing value count with
  | nil => simp [readDigits, hc]
  | cons c' digits ih =>
    obtain ⟨d', hd'⟩ := Option.isSome_iff_exists.1 (hd c' mem_cons_self)
    rw [cons_append, readDigits, readDigits, hd']
    exact ih (fun x hx => hd x (mem_cons_of_mem _ hx)) _ _

theorem toDigit_digitChar {d : ℕ} (hs : radix ≤ 16) (hd : d < radix) :
    toDigit radix d.digitChar = some d := by
  have ha : ∀ radix ≤ 16, ∀ d < radix, toDigit radix d.digitChar = some d := by decide +kernel
  exact ha radix hs d hd

theorem readDigits_toDigits (ho : 1 < radix) (hs : radix ≤ 16) (n : ℕ) :
    (∀ c ∈ Nat.toDigits radix n, (toDigit radix c).isSome) ∧
      readDigits radix 0 0 (Nat.toDigits radix n) = (n, (Nat.toDigits radix n).length, []) := by
  induction n using Nat.strongRecOn with
  | ind n ih =>
    have hl := toDigit_digitChar hs (Nat.mod_lt n (by omega : 0 < radix))
    rw [Nat.toDigits_eq_if ho]
    split_ifs with hn
    · have hd := toDigit_digitChar hs hn
      simp [readDigits, hd]
    · obtain ⟨hdi, hr⟩ := ih (n / radix) (Nat.div_lt_self (by omega) ho)
      refine ⟨fun c hc => ?_, ?_⟩
      · rcases List.mem_append.1 hc with hc | hc
        · exact hdi c hc
        · rw [List.mem_singleton.1 hc, hl]
          rfl
      · rw [readDigits_concat hdi hl, hr, length_append, length_singleton, Nat.div_add_mod']

theorem head?_toDigits (ho : 1 < radix) (hs : radix ≤ 16)
    (h : (Nat.toDigits radix n).head? = some '0') : n = 0 := by
  induction n using Nat.strongRecOn with
  | ind n ih =>
    have hz : ∀ d < 16, d.digitChar = '0' → d = 0 := by decide
    rw [Nat.toDigits_eq_if ho] at h
    split_ifs at h with hn
    · exact hz n (by omega) (Option.some.inj h)
    · rw [head?_append_of_ne_nil _ Nat.toDigits_ne_nil] at h
      have hq := ih (n / radix) (Nat.div_lt_self (by omega) ho) h
      exact absurd (Nat.div_eq_zero_iff.1 hq) (by omega)

/-- One to three digits without a zero in front. -/
structure OctetDigits (n : ℕ) (digits : List Char) : Prop where
  digit : ∀ c ∈ digits, (toDigit 10 c).isSome = true
  value : (readDigits 10 0 0 digits).1 = n
  count : (readDigits 10 0 0 digits).2.1 = digits.length
  ne_nil : digits ≠ []
  length_le : digits.length ≤ 3
  zero : digits.head? = some '0' → digits.length = 1

theorem octetDigits_of_lt (hn : n < 256) : OctetDigits n (Nat.toDigits 10 n) := by
  have ht : 1 < 10 ∧ 10 ≤ 16 := by decide
  obtain ⟨hd, hr⟩ := readDigits_toDigits ht.1 ht.2 n
  refine ⟨hd, by rw [hr], by rw [hr], Nat.toDigits_ne_nil, ?_, fun hz => ?_⟩
  · rw [Nat.length_toDigits_le_iff ht.1 (by decide)]
    omega
  · rw [head?_toDigits ht.1 ht.2 hz]
    rfl

theorem readNumber_octet (hn : n < 256) (hr : ∀ c ∈ rest.head?, toDigit 10 c = none) :
    readNumber 10 3 256 false (Nat.toDigits 10 n ++ rest) = some (n, rest) := by
  obtain ⟨hd, hv, hc, hne, hl, hz⟩ := octetDigits_of_lt hn
  have hp : (Nat.toDigits 10 n).length ≠ 0 := List.length_eq_zero_iff.not.2 hne
  unfold readNumber
  rw [readDigits_append hd hr, hv, hc, head?_append_of_ne_nil _ hne]
  dsimp only
  rw [if_neg (by omega), if_neg hp, if_neg ?_, if_pos hn]
  simp only [Bool.and_eq_true, beq_iff_eq, not_and]
  rintro ⟨-, h0⟩
  rw [hz h0]
  decide

variable (a : BitVec 32)

theorem octet_lt (i : ℕ) : octet a i < 256 := Nat.mod_lt _ (by decide)

theorem toNat_eq_octets :
    ((octet a 0 * 256 + octet a 1) * 256 + octet a 2) * 256 + octet a 3 = a.toNat := by
  simp only [octet]
  omega

theorem readOctets_succ {o : ℕ} (ho : o < 256)
    (hr : ∀ c ∈ rest.head?, toDigit 10 c = none) (i acc n : ℕ) :
    readOctets (i + 1) acc (n + 1) ('.' :: (Nat.toDigits 10 o ++ rest)) =
      readOctets (i + 2) (acc * 256 + o) n rest := by
  simp only [readOctets, readSeparator, if_neg (Nat.succ_ne_zero i), readGivenChar, if_true,
    readNumber_octet ho hr]

theorem readOctets_zero {o : ℕ} (ho : o < 256)
    (hr : ∀ c ∈ rest.head?, toDigit 10 c = none) (n : ℕ) :
    readOctets 0 0 (n + 1) (Nat.toDigits 10 o ++ rest) = readOctets 1 o n rest := by
  simp only [readOctets, readSeparator, if_true, readNumber_octet ho hr, Nat.zero_mul, Nat.zero_add]

theorem readIpv4Addr_text : readIpv4Addr (ipv4Text a) = some (a.toNat, []) := by
  have hd : ∀ rest : List Char, ∀ c ∈ ('.' :: rest).head?, toDigit 10 c = none := by
    intro rest c hc
    obtain rfl : '.' = c := Option.some.inj hc
    decide
  have he : ∀ c ∈ ([] : List Char).head?, toDigit 10 c = none := fun c hc => nomatch hc
  have ht : ipv4Text a = Nat.toDigits 10 (octet a 0) ++ '.' :: (Nat.toDigits 10 (octet a 1) ++
      '.' :: (Nat.toDigits 10 (octet a 2) ++ '.' :: (Nat.toDigits 10 (octet a 3) ++ []))) := by
    simp [ipv4Text, List.range, List.range.loop]
  rw [ht, readIpv4Addr, readOctets_zero (octet_lt a 0) (hd _),
    readOctets_succ (octet_lt a 1) (hd _), readOctets_succ (octet_lt a 2) (hd _),
    readOctets_succ (octet_lt a 3) he, readOctets, toNat_eq_octets]

/-- **An IPv4 address is read back from its text.** -/
theorem IpAddr.ofText_toText_v4 : ofText (toText (.v4 a)) = some (.v4 a) := by
  have h : readIpv4Addr (toText (.v4 a)).toList = some (a.toNat, []) := by
    rw [toText, String.toList_ofList, readIpv4Addr_text]
  rw [ofText, h]
  simp

theorem ipv4OfText_toText : ipv4OfText (IpAddr.toText (.v4 a)) = some a := by
  rw [ipv4OfText, IpAddr.ofText_toText_v4]

/-- `addr/len` as nft reads it: the family and the leading `len` bits of `addr`. -/
structure Cidr where
  addr : IpAddr
  len : ℕ
  deriving DecidableEq

def Cidr.ofText (text : String) : Option Cidr :=
  match text.toList.splitOn '/' with
  | [a] => (IpAddr.ofText (String.ofList a)).map fun addr =>
    ⟨addr, match addr with | .v4 _ => 32 | .v6 _ => 128⟩
  | [a, l] =>
    match IpAddr.ofText (String.ofList a), readNumber 10 3 129 true l with
    | some (.v4 addr), some (len, []) => if len ≤ 32 then some ⟨.v4 addr, len⟩ else none
    | some (.v6 addr), some (len, []) => some ⟨.v6 addr, len⟩
    | _, _ => none
  | _ => none

def Cidr.contains (c : Cidr) : IpAddr → Bool
  | .v4 a => match c.addr with
      | .v4 b => a.toNat >>> (32 - c.len) == b.toNat >>> (32 - c.len)
      | .v6 _ => false
  | .v6 a => match c.addr with
      | .v6 b => a.toNat >>> (128 - c.len) == b.toNat >>> (128 - c.len)
      | .v4 _ => false

end BalanSir.Net
