/-
# Reading back an IPv6 address

The parser of an IPv6 text undoes the printer.
-/

import BalanSir.Lib.Split
import BalanSir.Net.Addr

namespace BalanSir.Net

open List

variable {rest : List Char}

theorem readNumber_group {g : ℕ} (hg : g < 65536) (hr : ∀ c ∈ rest.head?, toDigit 16 c = none) :
    readNumber 16 4 65536 true (Nat.toDigits 16 g ++ rest) = some (g, rest) := by
  have hs : 1 < 16 ∧ 16 ≤ 16 := by decide
  obtain ⟨hd, hre⟩ := readDigits_toDigits hs.1 hs.2 g
  have hp : (Nat.toDigits 16 g).length ≠ 0 :=
    List.length_eq_zero_iff.not.2 Nat.toDigits_ne_nil
  have hl : (Nat.toDigits 16 g).length ≤ 4 :=
    (Nat.length_toDigits_le_iff hs.1 (by decide)).2 hg
  unfold readNumber
  rw [readDigits_append hd hr, hre]
  dsimp only
  rw [if_neg (by omega), if_neg hp, if_neg (by simp), if_pos hg]

theorem readDigits_suffix (radix value count : ℕ) (s : List Char) :
    (readDigits radix value count s).2.2 <:+ s := by
  induction s generalizing value count with
  | nil => exact suffix_refl _
  | cons c s ih =>
    rw [readDigits]
    split
    · exact (ih _ _).trans (suffix_cons c s)
    · exact suffix_refl _

variable {s : List Char} {n : ℕ}

theorem suffix_of_readNumber {radix maxDigits bound : ℕ} {allow : Bool}
    (h : readNumber radix maxDigits bound allow s = some (n, rest)) : rest <:+ s := by
  have hs := readDigits_suffix radix 0 0 s
  unfold readNumber at h
  dsimp only at h
  split_ifs at h
  cases h
  exact hs

theorem readIpv4Addr_of_no_dot (h : '.' ∉ s) : readIpv4Addr s = none := by
  unfold readIpv4Addr readOctets
  split
  · next o rest hr =>
      have hs : rest <:+ s := suffix_of_readNumber hr
      have hd : readGivenChar '.' rest = none := by
        cases rest with
        | nil => rfl
        | cons c rest =>
          have hc : c ≠ '.' := fun hc => h (hs.mem (hc ▸ mem_cons_self))
          rw [readGivenChar, if_neg hc]
      simp [readOctets, readSeparator, hd]
  · rfl

theorem readIpv4Addr_colon (s : List Char) : readIpv4Addr (':' :: s) = none := rfl

def laterGroups (gs : List ℕ) : List Char := gs.flatMap fun g => ':' :: Nat.toDigits 16 g

theorem fmtSubslice_cons (g : ℕ) (gs : List ℕ) :
    fmtSubslice (g :: gs) = Nat.toDigits 16 g ++ laterGroups gs := by
  induction gs generalizing g with
  | nil => simp [fmtSubslice, laterGroups]
  | cons g' gs ih =>
    have hj : fmtSubslice (g :: g' :: gs) =
        Nat.toDigits 16 g ++ [':'] ++ fmtSubslice (g' :: gs) :=
      intercalate_cons_of_ne_nil (by simp)
    rw [hj, ih]
    simp [laterGroups]

variable {c : Char}

theorem notMem_toDigits (hc : toDigit 16 c = none) (n : ℕ) : c ∉ Nat.toDigits 16 n := by
  intro hm
  have hd := (readDigits_toDigits (by decide) (Nat.le_refl 16) n).1 c hm
  rw [hc] at hd
  cases hd

theorem notMem_laterGroups (hc : toDigit 16 c = none) (hco : c ≠ ':') (gs : List ℕ) :
    c ∉ laterGroups gs := by
  simp [laterGroups, hco, notMem_toDigits hc]

theorem notMem_fmtSubslice (hc : toDigit 16 c = none) (hco : c ≠ ':') (gs : List ℕ) :
    c ∉ fmtSubslice gs := by
  cases gs with
  | nil => simp [fmtSubslice]
  | cons g gs =>
    rw [fmtSubslice_cons, mem_append, not_or]
    exact ⟨notMem_toDigits hc g, notMem_laterGroups hc hco gs⟩

def EndsGroup (rest : List Char) : Prop := ∀ c ∈ rest.head?, toDigit 16 c = none

theorem endsGroup_colon (s : List Char) : EndsGroup (':' :: s) := by
  intro c hc
  cases hc
  decide

theorem endsGroup_laterGroups (gs : List ℕ) (h : EndsGroup rest) :
    EndsGroup (laterGroups gs ++ rest) := by
  cases gs with
  | nil => exact h
  | cons g gs => exact endsGroup_colon _

variable {i : ℕ} {gs : List ℕ}

theorem readGroups_cons {g : ℕ} (hg : g < 65536) (hs : ∀ {α : Type} (inner : Parser α),
      readSeparator ':' i inner s = inner (Nat.toDigits 16 g ++ (laterGroups gs ++ rest)))
    (hd : '.' ∉ rest) (hr : EndsGroup rest)
    (hre : readGroups (i + 1) n (laterGroups gs ++ rest) = (gs, false, rest)) :
    readGroups i (n + 1) s = (g :: gs, false, rest) := by
  have hv4 : readIpv4Addr (Nat.toDigits 16 g ++ (laterGroups gs ++ rest)) = none := by
    refine readIpv4Addr_of_no_dot ?_
    rw [mem_append, mem_append, not_or, not_or]
    exact ⟨notMem_toDigits (by decide) g, notMem_laterGroups (by decide) (by decide) gs, hd⟩
  rw [readGroups, hs, hs, hv4, readNumber_group hg (endsGroup_laterGroups gs hr)]
  simp [hre]

theorem readGroups_nil (i n : ℕ) : readGroups i n [] = ([], false, []) := by
  cases n with
  | zero => rfl
  | succ n =>
    unfold readGroups
    by_cases hi : i = 0 <;> simp [readSeparator, readGivenChar, readIpv4Addr, readOctets,
      readNumber, readDigits]

theorem readGroups_colons (i n : ℕ) (s : List Char) :
    readGroups i n (':' :: ':' :: s) = ([], false, ':' :: ':' :: s) := by
  have hn : ∀ s, readNumber 16 4 65536 true (':' :: s) = none := fun _ => rfl
  cases n with
  | zero => rfl
  | succ n =>
    unfold readGroups
    by_cases hi : i = 0 <;> simp [readSeparator, readGivenChar, readIpv4Addr_colon, hn]

theorem readGroups_later (hgs : ∀ g ∈ gs, g < 65536) (hn : gs.length ≤ n) (hd : '.' ∉ rest)
    (hr : EndsGroup rest) (hs : ∀ i n, readGroups i n rest = ([], false, rest)) :
    readGroups (i + 1) n (laterGroups gs ++ rest) = (gs, false, rest) := by
  induction gs generalizing i n with
  | nil => exact hs _ _
  | cons g gs ih =>
    obtain ⟨hg, hgs⟩ := List.forall_mem_cons.1 hgs
    cases n with
    | zero => cases hn
    | succ n =>
      exact readGroups_cons hg
        (fun inner => by simp [laterGroups, readSeparator, readGivenChar]) hd hr
        (ih hgs (Nat.le_of_succ_le_succ hn))

theorem readGroups_fmtSubslice (hgs : ∀ g ∈ gs, g < 65536) (hn : gs.length ≤ n) (hd : '.' ∉ rest)
    (hr : EndsGroup rest) (hs : ∀ i n, readGroups i n rest = ([], false, rest)) :
    readGroups 0 n (fmtSubslice gs ++ rest) = (gs, false, rest) := by
  cases gs with
  | nil => exact hs _ _
  | cons g gs =>
    obtain ⟨hg, hgs⟩ := List.forall_mem_cons.1 hgs
    cases n with
    | zero => cases hn
    | succ n =>
      exact readGroups_cons hg (fun inner => by simp [fmtSubslice_cons, readSeparator]) hd hr
        (readGroups_later hgs (Nat.le_of_succ_le_succ hn) hd hr hs)

structure Span.Zeros (groups : List ℕ) (span : Span) : Prop where
  le : span.start + span.len ≤ groups.length
  zero : ∀ j, span.start ≤ j → j < span.start + span.len → groups[j]? = some 0

variable {groups : List ℕ}

theorem Span.Zeros.split {span : Span} (h : span.Zeros groups) :
    groups.take span.start ++ List.replicate span.len 0 ++
      groups.drop (span.start + span.len) = groups := by
  have hz : (groups.drop span.start).take span.len = List.replicate span.len 0 := by
    refine ext_getElem? fun j => ?_
    rw [getElem?_take, getElem?_drop, getElem?_replicate]
    split_ifs with hj
    · exact h.zero _ (by omega) (by omega)
    · rfl
  rw [← hz, append_assoc, ← drop_drop, take_append_drop, take_append_drop]

def Span.grow (current : Span) (i : ℕ) : Span :=
  ⟨if current.len = 0 then i else current.start, current.len + 1⟩

def Span.EndsAt (groups : List ℕ) (i : ℕ) (current : Span) : Prop :=
  current.len = 0 ∨ current.Zeros groups ∧ current.start + current.len = i

theorem Span.EndsAt.grow {current : Span} (h : current.EndsAt groups i)
    (hge : groups[i]? = some 0) :
    (current.grow i).Zeros groups ∧ (current.grow i).start + (current.grow i).len = i + 1 := by
  have hi : i < groups.length := (List.getElem?_eq_some_iff.1 hge).1
  by_cases he : current.len = 0
  · have hg : current.grow i = ⟨i, 1⟩ := by simp [Span.grow, he]
    rw [hg]
    refine ⟨⟨hi, fun j hle hlt => ?_⟩, rfl⟩
    obtain rfl : i = j := Nat.le_antisymm hle (Nat.le_of_lt_succ hlt)
    exact hge
  · obtain ⟨hz, rfl⟩ := h.resolve_left he
    have hg : current.grow (current.start + current.len) =
        ⟨current.start, current.len + 1⟩ := by simp [Span.grow]
    rw [hg]
    refine ⟨⟨hi, fun j hle hlt => ?_⟩, rfl⟩
    rcases Nat.lt_succ_iff_lt_or_eq.1 hlt with hj | rfl
    · exact hz.zero j hle hj
    · exact hge

/-- **The scan finds a run of zero groups.** -/
theorem zeros_longestZeros {rest : List ℕ} {longest current : Span} (hr : groups.drop i = rest)
    (hl : longest.Zeros groups) (hc : current.EndsAt groups i) :
    (longestZeros longest current i rest).Zeros groups := by
  induction rest generalizing longest current i with
  | nil => exact hl
  | cons g rest ih =>
    have hn : groups.drop (i + 1) = rest := by
      rw [← drop_drop, hr]
      rfl
    have hge : groups[i]? = some g := by
      rw [← Nat.add_zero i, ← getElem?_drop, hr]
      rfl
    cases g with
    | succ g => exact ih hn hl (.inl rfl)
    | zero =>
      have hg := hc.grow hge
      show (longestZeros (if longest.len < (current.grow i).len then current.grow i
        else longest) (current.grow i) (i + 1) rest).Zeros groups
      refine ih hn ?_ (.inr hg)
      split_ifs
      · exact hg.1
      · exact hl

variable (a : BitVec 128) {front back : List ℕ}

theorem segment_lt (i : ℕ) : segment a i < 65536 := Nat.mod_lt _ (by decide)

theorem forall_segments_lt : ∀ g ∈ segments a, g < 65536 := by
  intro g hg
  obtain ⟨i, -, rfl⟩ := List.mem_map.1 hg
  exact segment_lt a i

theorem length_segments : (segments a).length = 8 := by simp [segments]

theorem ofSegments_segments : ofSegments (segments a) = a := by
  apply BitVec.eq_of_toNat_eq
  simp only [ofSegments, segments, segment, List.range, List.range.loop, List.map, List.foldl,
    BitVec.toNat_ofNat, Nat.shiftRight_eq_div_pow]
  omega

theorem readIpv6Addr_groups (hgs : ∀ g ∈ gs, g < 65536) (hl : gs.length = 8) :
    readIpv6Addr (fmtSubslice gs) = some (ofSegments gs, []) := by
  have hr := readGroups_fmtSubslice hgs (Nat.le_of_eq hl) not_mem_nil nofun
    readGroups_nil
  rw [append_nil] at hr
  unfold readIpv6Addr
  rw [hr]
  exact if_pos hl

theorem readIpv6Addr_of_colons {v4 : Bool} {t : List Char}
    (hf : readGroups 0 8 s = (front, false, ':' :: ':' :: t)) (hl : front.length ≠ 8)
    (hb : readGroups 0 (8 - (front.length + 1)) t = (back, v4, rest)) : readIpv6Addr s =
      some (ofSegments (front ++ List.replicate (8 - front.length - back.length) 0 ++ back),
        rest) := by
  unfold readIpv6Addr
  rw [hf]
  dsimp only
  rw [if_neg hl, if_neg Bool.false_ne_true]
  simp only [hb]

theorem readIpv6Addr_zeros (hf : ∀ g ∈ front, g < 65536)
    (hb : ∀ g ∈ back, g < 65536) (hl : front.length + back.length < 8) :
    readIpv6Addr (fmtSubslice front ++ "::".toList ++ fmtSubslice back) =
      some (ofSegments (front ++ List.replicate (8 - front.length - back.length) 0 ++ back),
        []) := by
  have hd : '.' ∉ ':' :: ':' :: fmtSubslice back := by
    simp [notMem_fmtSubslice (show toDigit 16 '.' = none by decide)]
  have hr : readGroups 0 8 (fmtSubslice front ++ "::".toList ++ fmtSubslice back) =
      (front, false, ':' :: ':' :: fmtSubslice back) := by
    rw [append_assoc]
    exact readGroups_fmtSubslice hf (by omega) hd (endsGroup_colon _)
      fun i n => readGroups_colons i n _
  have hre : readGroups 0 (8 - (front.length + 1)) (fmtSubslice back) =
      (back, false, []) := by
    have hrea := readGroups_fmtSubslice hb (n := 8 - (front.length + 1)) (by omega)
      not_mem_nil nofun readGroups_nil
    rwa [append_nil] at hrea
  exact readIpv6Addr_of_colons hr (by omega) hre

theorem readIpv6Addr_mapped (b : BitVec 32) : readIpv6Addr ("::ffff:".toList ++ ipv4Text b) =
      some (ofSegments [0, 0, 0, 0, 0, 0xffff, b.toNat / 65536, b.toNat % 65536], []) := by
  have hn : readNumber 16 4 65536 true ("ffff:".toList ++ ipv4Text b) =
      some (0xffff, ':' :: ipv4Text b) := rfl
  have hno : readIpv4Addr ("ffff:".toList ++ ipv4Text b) = none := rfl
  have hd : readGroups 1 6 (':' :: ipv4Text b) =
      ([b.toNat / 65536, b.toNat % 65536], true, []) := by
    rw [readGroups]
    simp [readSeparator, readGivenChar, readIpv4Addr_text]
  have hb : readGroups 0 7 ("ffff:".toList ++ ipv4Text b) =
      ([0xffff, b.toNat / 65536, b.toNat % 65536], true, []) := by
    rw [readGroups, readSeparator, readSeparator, hno, hn]
    simp [hd]
  exact readIpv6Addr_of_colons (readGroups_colons 0 8 _) (by decide) hb

/-- **An IPv6 address is read back from its text.** -/
theorem readIpv6Addr_text : readIpv6Addr (ipv6Text a) = some (a, []) := by
  unfold ipv6Text
  split_ifs with hm
  · rw [readIpv6Addr_mapped]
    refine congrArg (fun x => some (x, [])) (BitVec.eq_of_toNat_eq ?_)
    simp only [ofSegments, List.foldl, BitVec.toNat_ofNat]
    omega
  · dsimp only
    have hz : (longestZeros ⟨0, 0⟩ ⟨0, 0⟩ 0 (segments a)).Zeros (segments a) :=
      zeros_longestZeros rfl ⟨Nat.zero_le _, nofun⟩ (.inl rfl)
    generalize longestZeros ⟨0, 0⟩ ⟨0, 0⟩ 0 (segments a) = zeros at hz
    have hle := hz.le
    have hs := hz.split
    rw [length_segments] at hle
    split_ifs with hl
    · have hgr := forall_segments_lt a
      have hf : ((segments a).take zeros.start).length = zeros.start := by
        rw [length_take, length_segments]
        omega
      have hb : ((segments a).drop (zeros.start + zeros.len)).length =
          8 - (zeros.start + zeros.len) := by
        rw [length_drop, length_segments]
      rw [readIpv6Addr_zeros (fun g hg => hgr g (mem_of_mem_take hg))
        (fun g hg => hgr g (mem_of_mem_drop hg)) (by omega), hf, hb]
      have hc : 8 - zeros.start - (8 - (zeros.start + zeros.len)) = zeros.len := by omega
      rw [hc, hs, ofSegments_segments]
    · rw [readIpv6Addr_groups (forall_segments_lt a) (length_segments a), ofSegments_segments]

theorem notMem_ipv4Text (hc : c.isDigit = false) (hdo : c ≠ '.') (a : BitVec 32) :
    c ∉ ipv4Text a := by
  have ha : ∀ x ∈ ipv4Text a, x ≠ c := by
    refine (Lib.forall_mem_intercalate (p := fun x => x ≠ c) (Ne.symm hdo) _).2 ?_
    intro digits hdi x hx hxc
    obtain ⟨i, -, rfl⟩ := List.mem_map.1 hdi
    have hd := Nat.isDigit_of_mem_toDigits (by decide) (by decide) hx
    rw [hxc, hc] at hd
    cases hd
  exact fun hm => ha c hm rfl

theorem colon_mem_ipv6Text : ':' ∈ ipv6Text a := by
  have hg : ':' ∈ fmtSubslice (segments a) := by
    have hs : segments a = segment a 0 :: segment a 1 ::
        ((List.range 6).map fun i => segment a (i + 2)) := rfl
    rw [hs, fmtSubslice_cons]
    simp [laterGroups]
  unfold ipv6Text
  dsimp only
  split_ifs
  · simp
  · simp
  · exact hg

theorem slash_notMem_ipv6Text : '/' ∉ ipv6Text a := by
  have hg := notMem_fmtSubslice (show toDigit 16 '/' = none by decide) (by decide)
  have hd := notMem_ipv4Text (show '/'.isDigit = false by decide) (by decide)
  unfold ipv6Text
  dsimp only
  split_ifs
  · simp [hd]
  · simp [hg]
  · exact hg _

theorem readIpv4Addr_ipv6Text : readIpv4Addr (ipv6Text a) = none := by
  have hg := notMem_fmtSubslice (show toDigit 16 '.' = none by decide) (by decide)
  unfold ipv6Text
  dsimp only
  split_ifs
  · exact readIpv4Addr_colon _
  · exact readIpv4Addr_of_no_dot (by simp [hg])
  · exact readIpv4Addr_of_no_dot (hg _)

variable (addr : IpAddr)

/-- **An address is read back from its text.** -/
theorem IpAddr.ofText_toText : ofText addr.toText = some addr := by
  cases addr with
  | v4 a => exact ofText_toText_v4 a
  | v6 a =>
    rw [ofText, toText, String.toList_ofList, readIpv4Addr_ipv6Text, readIpv6Addr_text]

theorem slash_notMem_toText : '/' ∉ addr.toText.toList := by
  cases addr with
  | v4 a =>
    rw [IpAddr.toText, String.toList_ofList]
    exact notMem_ipv4Text (by decide) (by decide) a
  | v6 a =>
    rw [IpAddr.toText, String.toList_ofList]
    exact slash_notMem_ipv6Text a

theorem splitOn_prefixText {suffix : String} {len : List Char}
    (hs : suffix.toList = '/' :: len) (hle : '/' ∉ len) :
    (addr.toText ++ suffix).toList.splitOn '/' = [addr.toText.toList, len] := by
  have hj : (addr.toText ++ suffix).toList = ['/'].intercalate [addr.toText.toList, len] := by
    simp [hs]
  rw [hj]
  refine splitOn_intercalate _ (fun l hl => ?_) (cons_ne_nil _ _)
  rcases List.mem_pair.1 hl with rfl | rfl
  · exact slash_notMem_toText addr
  · exact hle

def Cidr.host (addr : IpAddr) : Cidr :=
  ⟨addr, match addr with | .v4 _ => 32 | .v6 _ => 128⟩

theorem Cidr.contains_host (x : IpAddr) : (host addr).contains x ↔ x = addr := by
  cases addr with
  | v4 a =>
    cases x with
    | v4 b => simp [host, contains, BitVec.toNat_inj]
    | v6 b => simp [host, contains]
  | v6 a =>
    cases x with
    | v4 b => simp [host, contains]
    | v6 b => simp [host, contains, BitVec.toNat_inj]

theorem Cidr.ofText_host_v4 (a : BitVec 32) :
    ofText (IpAddr.toText (.v4 a) ++ "/32") = some (host (.v4 a)) := by
  have hs : "/32".toList = ['/', '3', '2'] := rfl
  rw [ofText, splitOn_prefixText (.v4 a) hs (by decide)]
  dsimp only
  rw [String.ofList_toList, IpAddr.ofText_toText]
  rfl

theorem Cidr.ofText_host_v6 : ofText (IpAddr.toText (.v6 a) ++ "/128") = some (host (.v6 a)) := by
  have hs : "/128".toList = ['/', '1', '2', '8'] := rfl
  rw [ofText, splitOn_prefixText (.v6 a) hs (by decide)]
  dsimp only
  rw [String.ofList_toList, IpAddr.ofText_toText]
  rfl

end BalanSir.Net
