/-
# The filter of the forwarder

`classify_domain` and `DnsFilterSets`: an allowlist and a blocklist of domains.
-/

import BalanSir.Dns.Wire
import BalanSir.Lib.Split

namespace BalanSir.Dns

open Lib List

inductive DomainDecision where
  | pass
  | block
  deriving DecidableEq

def classifyLabels (block allow : List Text) : List Text → DomainDecision
  | [] => .pass
  | label :: labels =>
    let candidate := ['.'].intercalate (label :: labels)
    if allow.contains candidate then .pass
    else if block.contains candidate then .block
    else classifyLabels block allow labels

def classifyDomain (domain : Text) (block allow : List Text) : DomainDecision :=
  classifyLabels block allow ((toAsciiLowercase (trimEndMatches '.' domain)).splitOn '.')

structure DnsFilterSets where
  block : List Text
  allow : List Text
  deriving DecidableEq

def normalEntry (entry : Text) : Text := toAsciiLowercase (trimEndMatches '.' entry)

def DnsFilterSets.ofLists (blocklist allowlist : List Text) : DnsFilterSets where
  block := (blocklist.map normalEntry).filter (· ≠ [])
  allow := (allowlist.map normalEntry).filter (· ≠ [])

def DnsFilterSets.decision (filter : DnsFilterSets) (query : List UInt8) : DomainDecision :=
  ((queryName query).map fun domain => classifyDomain domain filter.block filter.allow).getD .pass

variable {block allow labels : List Text}

theorem classifyLabels_eq_block : classifyLabels block allow labels = .block ↔
      ∃ b, b <:+ labels ∧ b ≠ [] ∧ ['.'].intercalate b ∈ block ∧
        ∀ a, a <:+ labels → b.length ≤ a.length → ['.'].intercalate a ∉ allow := by
  induction labels with
  | nil =>
    constructor
    · rintro ⟨⟩
    · rintro ⟨b, hb, hne, -⟩
      exact absurd (List.suffix_nil.1 hb) hne
  | cons label labels ih =>
    rw [classifyLabels]
    simp only [contains_iff_mem]
    split_ifs with hal hbl
    · constructor
      · rintro ⟨⟩
      · rintro ⟨b, hb, -, -, hall⟩
        exact absurd hal (hall _ (suffix_refl _) hb.length_le)
    · refine iff_of_true rfl ⟨_, suffix_refl _, cons_ne_nil _ _, hbl, ?_⟩
      intro a ha hl
      rw [ha.eq_of_length (Nat.le_antisymm ha.length_le hl)]
      exact hal
    · rw [ih]
      constructor
      · rintro ⟨b, hb, hne, hm, hall⟩
        refine ⟨b, hb.trans (suffix_cons _ _), hne, hm, fun a ha hl => ?_⟩
        rcases List.suffix_cons_iff.1 ha with rfl | ha
        · exact hal
        · exact hall a ha hl
      · rintro ⟨b, hb, hne, hm, hall⟩
        rcases List.suffix_cons_iff.1 hb with rfl | hb
        · exact absurd hm hbl
        · exact ⟨b, hb, hne, hm, fun a ha => hall a (ha.trans (suffix_cons _ _))⟩

def lowerByte (b : UInt8) : UInt8 := if 65 ≤ b ∧ b ≤ 90 then b + 32 else b

def hostByte (b : UInt8) : Bool := hostChar (asciiChar b)

def DnsQuery.name (q : DnsQuery) : List (List UInt8) := q.labels.map (·.map lowerByte)

def DnsQuery.parts (q : DnsQuery) : List (List UInt8) := q.name.flatMap (·.splitOn 46)

def domainLabels (entry : Text) : List (List UInt8) := ((normalEntry entry).splitOn '.').map encode

def LiesUnder (name : List (List UInt8)) (entry : Text) : Prop :=
  normalEntry entry ≠ [] ∧ domainLabels entry <:+ name
  deriving Decidable

def DnsQuery.HostBytes (q : DnsQuery) : Prop :=
  ∀ label ∈ q.labels, ∀ b ∈ label, hostByte b = true
  deriving Decidable

/-- The name is a host name under a blocked domain longer than every allowed one. -/
structure Decided (q : DnsQuery) (blocklist allowlist : List Text) : Prop where
  host : q.HostBytes
  parts : [] ∉ q.parts
  block : ∃ b ∈ blocklist, LiesUnder q.parts b ∧ ∀ a ∈ allowlist, LiesUnder q.parts a →
    (domainLabels a).length < (domainLabels b).length

variable {b : UInt8}

theorem asciiLower_asciiChar (hb : b < 0x80) : asciiLower (asciiChar b) = asciiChar (lowerByte b) :=
  forall_byte (p := fun b => b < 0x80 → asciiLower (asciiChar b) = asciiChar (lowerByte b))
    (by decide +kernel) b hb

theorem lowerByte_lt (hb : b < 0x80) : lowerByte b < 0x80 :=
  forall_byte (p := fun b => b < 0x80 → lowerByte b < 0x80) (by decide +kernel) b hb

theorem lowerByte_eq_dot (b : UInt8) : lowerByte b = 46 ↔ b = 46 :=
  forall_byte (p := fun b => lowerByte b = 46 ↔ b = 46) (by decide +kernel) b

theorem eq_dot_of_asciiChar (hb : b < 0x80) : asciiChar b = asciiChar 46 → b = 46 :=
  forall_byte (p := fun b => b < 0x80 → asciiChar b = asciiChar 46 → b = 46)
    (by decide +kernel) b hb

theorem toNat_le_of_le {c d : Char} (h : c ≤ d) : c.toNat ≤ d.toNat := UInt32.le_iff_toNat_le.1 h

theorem not_notAscii_of_hostChar {c : Char} (h : hostChar c) : ¬NotAscii c := by
  rintro (hz | hl)
  · rw [← Char.ofNat_toNat c, hz] at h
    exact absurd h (by decide)
  · simp only [hostChar, isAsciiAlphanumeric, Bool.or_eq_true, Bool.and_eq_true, decide_eq_true_eq,
      beq_iff_eq] at h
    have hle : c ≤ '9' ∨ c ≤ 'z' ∨ c ≤ 'Z' ∨ c = '-' ∨ c = '.' := by tauto
    rcases hle with hc | hc | hc | rfl | rfl
    · exact absurd (hl.trans (toNat_le_of_le hc)) (by decide)
    · exact absurd (hl.trans (toNat_le_of_le hc)) (by decide)
    · exact absurd (hl.trans (toNat_le_of_le hc)) (by decide)
    · exact absurd hl (by decide)
    · exact absurd hl (by decide)

theorem hostChar_asciiLower (c : Char) : hostChar (asciiLower c) = hostChar c := by
  by_cases hc : 'A' ≤ c ∧ c ≤ 'Z'
  · have hu : ∀ n : Fin 91, hostChar (asciiLower (Char.ofNat n)) = hostChar (Char.ofNat n) := by
      decide
    have hlt := Nat.lt_succ_of_le (toNat_le_of_le hc.2)
    have hn := hu ⟨c.toNat, hlt⟩
    rwa [Char.ofNat_toNat] at hn
  · rw [asciiLower, if_neg hc]

theorem forall_hostChar_lower (text : Text) :
    (∀ c ∈ toAsciiLowercase text, hostChar c) ↔ ∀ c ∈ text, hostChar c := by
  rw [toAsciiLowercase, forall_mem_map]
  exact forall₂_congr fun c _ => by rw [hostChar_asciiLower]

theorem forall_hostChar_trim (text : Text) :
    (∀ c ∈ trimEndMatches '.' text, hostChar c) ↔ ∀ c ∈ text, hostChar c := by
  have hd : ∀ c ∈ text.rtakeWhile (· = '.'), hostChar c := by
    intro c hc
    have hdo := mem_rtakeWhile_imp hc
    rw [of_decide_eq_true hdo]
    decide
  have ha : trimEndMatches '.' text ++ text.rtakeWhile (· = '.') = text :=
    rdropWhile_append_rtakeWhile
  rw [← List.forall_mem_append.trans (and_iff_left hd), ha]

theorem lt_of_hostByte (h : hostByte b) : b < 0x80 := by
  by_contra hb
  have hle : 128 ≤ b.toNat := by
    exact Nat.le_of_not_lt hb
  exact not_notAscii_of_hostChar h (notAscii_ofNat hle)

theorem DnsQuery.forall_hostChar_text (q : DnsQuery) :
    (∀ c ∈ q.text, hostChar c) ↔ q.HostBytes := by
  rw [text, forall_mem_intercalate (by decide), forall_mem_map]
  refine forall₂_congr fun label _ => ?_
  rw [forall_decodeLossy_iff fun c => not_notAscii_of_hostChar]
  exact forall₂_congr fun b _ => and_iff_right_of_imp lt_of_hostByte

section Host

variable {q : DnsQuery} (h : q.HostBytes)

include h

theorem DnsQuery.name_lt : ∀ label ∈ q.name, ∀ b ∈ label, b < 0x80 := by
  rw [name, forall_mem_map]
  intro label hl
  rw [forall_mem_map]
  exact fun b hb => lowerByte_lt (lt_of_hostByte (h label hl b hb))

theorem DnsQuery.lower_text :
    toAsciiLowercase q.text = (([46] : List UInt8).intercalate q.name).map asciiChar := by
  have hl : ∀ label ∈ q.labels,
      toAsciiLowercase (decodeLossy label) = (label.map lowerByte).map asciiChar := by
    intro label hl
    have hlt : ∀ b ∈ label, b < 0x80 := fun b hb => lt_of_hostByte (h label hl b hb)
    rw [decodeLossy_ascii hlt, toAsciiLowercase, map_map, map_map]
    exact map_congr_left fun b hb => asciiLower_asciiChar (hlt b hb)
  rw [text, toAsciiLowercase, map_intercalate, map_intercalate, name, map_map, map_map]
  exact congrArg _ (map_congr_left hl)

theorem DnsQuery.splitOn_lower_text (hne : q.labels ≠ []) :
    (toAsciiLowercase q.text).splitOn '.' = q.parts.map (·.map asciiChar) := by
  have hby : ∀ b ∈ ([46] : List UInt8).intercalate q.name, b < 0x80 :=
    (forall_mem_intercalate (by decide) q.name).2 (q.name_lt h)
  have hd : '.' = asciiChar 46 := by decide
  have hn : q.name ≠ [] := mt List.map_eq_nil_iff.1 hne
  rw [q.lower_text h, hd, splitOn_map fun b hb => eq_dot_of_asciiChar (hby b hb),
    splitOn_intercalate_eq_flatMap hn, parts]

theorem DnsQuery.parts_lt : ∀ part ∈ q.parts, ∀ b ∈ part, b < 0x80 := by
  intro part hp b hb
  obtain ⟨label, hl, hm⟩ := List.mem_flatMap.1 hp
  exact q.name_lt h label hl b (mem_of_mem_splitOn hm hb)

end Host

theorem eq_map_asciiChar {text : Text} {label : List UInt8} (he : encode text = label)
    (hlt : ∀ b ∈ label, b < 0x80) : text = label.map asciiChar := by
  apply encode_injective
  rw [encode_ascii hlt, he]

theorem domainLabels_suffix_iff {parts : List (List UInt8)}
    (hlt : ∀ part ∈ parts, ∀ b ∈ part, b < 0x80) (entry : Text) : domainLabels entry <:+ parts ↔
      (normalEntry entry).splitOn '.' <:+ parts.map (·.map asciiChar) := by
  constructor
  · intro hs
    have hm := hs.map (·.map asciiChar)
    have heq : (domainLabels entry).map (·.map asciiChar) = (normalEntry entry).splitOn '.' := by
      rw [domainLabels, map_map]
      refine (map_congr_left fun text ht => ?_).trans (map_id _)
      exact (eq_map_asciiChar rfl (hlt _ (hs.subset (mem_map_of_mem ht)))).symm
    rwa [heq] at hm
  · intro hs
    have hm := hs.map encode
    have heq : (parts.map (·.map asciiChar)).map encode = parts := by
      rw [map_map]
      exact (map_congr_left fun part hp => encode_ascii (hlt part hp)).trans (map_id _)
    rwa [heq] at hm

theorem classifyLabels_iff (hd : ∀ label ∈ labels, '.' ∉ label) :
    classifyLabels block allow labels = .block ↔
      ∃ b ∈ block, b.splitOn '.' <:+ labels ∧
        ∀ a ∈ allow, a.splitOn '.' <:+ labels →
          (a.splitOn '.').length < (b.splitOn '.').length := by
  have hs : ∀ part, part <:+ labels → part ≠ [] →
      (['.'].intercalate part).splitOn '.' = part :=
    fun part hp hne => splitOn_intercalate '.' (fun l hl => hd l (hp.subset hl)) hne
  rw [classifyLabels_eq_block]
  constructor
  · rintro ⟨part, hpa, hne, hm, hal⟩
    have hsa := hs part hpa hne
    refine ⟨_, hm, by rwa [hsa], fun a ha hu => ?_⟩
    rw [hsa]
    by_contra hle
    refine hal _ hu (not_lt.1 hle) ?_
    rwa [intercalate_splitOn]
  · rintro ⟨b, hb, hpa, hal⟩
    refine ⟨_, hpa, splitOn_ne_nil _ _, ?_, fun part hp hle hm => ?_⟩
    · rwa [intercalate_splitOn]
    · have hne : part ≠ [] := by
        rintro rfl
        exact splitOn_ne_nil _ _ (List.length_eq_zero_iff.1 (Nat.le_zero.1 hle))
      have hlt := hal _ hm
      rw [hs part hp hne] at hlt
      exact absurd (hlt hp) (not_lt.2 hle)

variable {blocklist allowlist : List Text}

/-- **What the sets of the lists decide about labels.** -/
theorem classifyLabels_ofLists {labels : List Text} (hd : ∀ label ∈ labels, '.' ∉ label) :
    classifyLabels (DnsFilterSets.ofLists blocklist allowlist).block
        (DnsFilterSets.ofLists blocklist allowlist).allow labels = .block ↔
      ∃ b ∈ blocklist, (normalEntry b ≠ [] ∧ (normalEntry b).splitOn '.' <:+ labels) ∧
        ∀ a ∈ allowlist, (normalEntry a ≠ [] ∧ (normalEntry a).splitOn '.' <:+ labels) →
          ((normalEntry a).splitOn '.').length < ((normalEntry b).splitOn '.').length := by
  rw [classifyLabels_iff hd]
  simp [DnsFilterSets.ofLists, and_assoc]

def IsWithin (domain entry : Text) : Prop := domain = entry ∨ '.' :: entry <:+ domain
  deriving Decidable

variable (domain : Text)

def BlockDecides (block allow : List Text) : Prop :=
  ∃ b ∈ block, IsWithin domain b ∧
    ∀ a ∈ allow, IsWithin domain a → (a.splitOn '.').length < (b.splitOn '.').length

theorem classifyDomain_eq_pass (block allow : List Text) :
    classifyDomain domain block allow = .pass ↔ ¬BlockDecides (normalEntry domain) block allow := by
  have hb : classifyDomain domain block allow = .block ↔
      BlockDecides (normalEntry domain) block allow := by
    rw [classifyDomain, classifyLabels_iff fun _ => notMem_of_mem_splitOn]
    simp only [splitOn_suffix_iff]
    rfl
  rw [← hb]
  cases classifyDomain domain block allow <;> decide

/-- **When the allowlist has precedence.** A domain is passed exactly if it is within an allowed
entry or no blocked one, unless all the allowed entries are shorter than a blocked one. -/
theorem classifyDomain_pass_iff (block allow : List Text) :
    (classifyDomain domain block allow = .pass ↔
      (∃ a ∈ allow, IsWithin (normalEntry domain) a) ∨
        ¬∃ b ∈ block, IsWithin (normalEntry domain) b) ↔
    ¬((∃ a ∈ allow, IsWithin (normalEntry domain) a) ∧
      BlockDecides (normalEntry domain) block allow) := by
  rw [classifyDomain_eq_pass]
  constructor
  · rintro h ⟨ha, hd⟩
    exact h.2 (.inl ha) hd
  · intro h
    constructor
    · intro hd
      by_contra hn
      rw [not_or, not_not] at hn
      obtain ⟨hna, b, hb, hw⟩ := hn
      exact hd ⟨b, hb, hw, fun a ha ha' => absurd ⟨a, ha, ha'⟩ hna⟩
    · rintro (ha | hnb) hd
      · exact h ⟨ha, hd⟩
      · obtain ⟨b, hb, hw, -⟩ := hd
        exact hnb ⟨b, hb, hw⟩

/-- A blocked host of an allowed domain. -/
theorem blocked_below_allowed :
    classifyDomain "ads.example.com".toList ["ads.example.com".toList] ["example.com".toList] =
      .block ∧ IsWithin "ads.example.com".toList "example.com".toList := by decide

theorem normalizeDomain_eq_some {name domain : Text} :
    normalizeDomain name = some domain ↔ domain = toAsciiLowercase (trimEndMatches '.' name) ∧
      domain ≠ [] ∧ byteLen domain ≤ maxNameLen ∧ (∀ c ∈ domain, hostChar c) ∧
        [] ∉ domain.splitOn '.' := by
  unfold normalizeDomain
  dsimp only
  generalize toAsciiLowercase (trimEndMatches '.' name) = s
  have ha : s.all hostChar = true ↔ ∀ c ∈ s, hostChar c := all_eq_true
  have han : (s.splitOn '.').any (· = []) = true ↔ [] ∈ s.splitOn '.' := by simp
  split_ifs with hl hho hp
  · refine ⟨nofun, ?_⟩
    rintro ⟨rfl, hne, hle, -⟩
    exact absurd hl (not_or.2 ⟨hne, not_lt.2 hle⟩)
  · refine ⟨nofun, ?_⟩
    rintro ⟨rfl, -, -, -, hno⟩
    exact absurd (han.1 hp) hno
  · rw [not_or, not_lt] at hl
    constructor
    · rintro ⟨⟩
      exact ⟨rfl, hl.1, hl.2, ha.1 hho, fun hm => hp (han.2 hm)⟩
    · rintro ⟨rfl, -⟩
      rfl
  · refine ⟨nofun, ?_⟩
    rintro ⟨rfl, -, -, hh, -⟩
    exact absurd (ha.2 hh) hho

theorem trimEndMatches_eq_self {text : Text} (h : [] ∉ text.splitOn '.') :
    trimEndMatches '.' text = text := by
  refine List.rdropWhile_eq_self_iff.2 fun hne hl => h ?_
  have hd := of_decide_eq_true hl
  have heq : text = text.dropLast ++ '.' :: [] := by
    rw [← hd, dropLast_append_getLast hne]
  rw [heq, splitOn_append_cons_self]
  exact mem_append_right _ mem_cons_self

theorem toAsciiLowercase_idem (text : Text) :
    toAsciiLowercase (toAsciiLowercase text) = toAsciiLowercase text := by
  rw [toAsciiLowercase, toAsciiLowercase, map_map]
  exact map_congr_left fun c _ => asciiLower_idem c

section Decision

variable {q : DnsQuery}

theorem length_intercalate_le {labels : List (List UInt8)} :
    (([46] : List UInt8).intercalate (labels.map (·.map lowerByte))).length ≤
      (wire labels).length := by
  induction labels with
  | nil => exact Nat.le_refl 0
  | cons label labels ih =>
    have hw := length_wire_cons label labels
    by_cases hn : labels = []
    · subst hn
      rw [map_cons, map_nil, intercalate_singleton, length_map]
      omega
    · rw [map_cons, intercalate_cons_of_ne_nil (mt List.map_eq_nil_iff.1 hn), length_append,
        length_append, length_map, length_singleton]
      omega

variable {entry : Text}

theorem DnsQuery.exists_last_part (h : q.HostBytes) (hu : LiesUnder q.name entry) :
    ∃ front part, q.parts = front ++ [part] ∧ part ≠ [] := by
  obtain ⟨-, front, hf⟩ := hu
  obtain ⟨texts, text, ht⟩ :=
    (eq_nil_or_concat' ((normalEntry entry).splitOn '.')).resolve_left
      (splitOn_ne_nil _ _)
  have hn : q.name = front ++ texts.map encode ++ [encode text] := by
    rw [← hf, domainLabels, ht, map_append, append_assoc]
    rfl
  have hm : encode text ∈ q.name := by
    rw [hn]
    exact mem_append_right _ mem_cons_self
  -- a label of a domain has no dot in it
  have hdo : (46 : UInt8) ∉ encode text := by
    intro hd
    have hte := eq_map_asciiChar rfl (q.name_lt h _ hm)
    have hin : text ∈ (normalEntry entry).splitOn '.' := by
      rw [ht]
      exact mem_append_right _ mem_cons_self
    refine notMem_of_mem_splitOn hin ?_
    rw [hte]
    exact mem_map_of_mem hd
  refine ⟨(front ++ texts.map encode).flatMap (·.splitOn 46), encode text, ?_, ?_⟩
  · rw [parts, hn, flatMap_append, flatMap_singleton, splitOn_eq_singleton hdo]
  · obtain ⟨label, hl, heq⟩ := List.mem_map.1 hm
    rw [← heq]
    intro hni
    have hle := (q.label_length label hl).1
    rw [List.map_eq_nil_iff.1 hni] at hle
    exact absurd hle (by decide)

theorem DnsQuery.labels_ne_nil (hu : LiesUnder q.name entry) : q.labels ≠ [] := by
  intro hn
  have hs := hu.2
  rw [name, hn, map_nil, suffix_nil, domainLabels, map_eq_nil_iff] at hs
  exact splitOn_ne_nil _ _ hs

theorem DnsQuery.trim_text (h : q.HostBytes) (hu : LiesUnder q.name entry) :
    trimEndMatches '.' q.text = q.text := by
  refine List.rdropWhile_eq_self_iff.2 fun hne hla => ?_
  have hd := of_decide_eq_true hla
  have hl : toAsciiLowercase q.text = toAsciiLowercase q.text.dropLast ++ '.' :: [] := by
    conv_lhs => rw [← dropLast_append_getLast hne, hd]
    rw [toAsciiLowercase, map_append]
    rfl
  obtain ⟨front, part, hp, hpa⟩ := q.exists_last_part h hu
  have hs := q.splitOn_lower_text h (q.labels_ne_nil hu)
  rw [hl, splitOn_append_cons_self, splitOn_nil, hp, map_append] at hs
  have hn := (append_inj' hs rfl).2
  rw [map_singleton, singleton_inj] at hn
  exact hpa (List.map_eq_nil_iff.1 hn.symm)

/-- **Which names under a domain are seen,** and as what. -/
theorem DnsQuery.normalizeDomain_text (hu : LiesUnder q.name entry) {domain : Text} :
    normalizeDomain q.text = some domain ↔ domain = toAsciiLowercase q.text ∧
      q.HostBytes ∧ [] ∉ q.parts := by
  have hp : q.HostBytes → ([] ∉ (toAsciiLowercase q.text).splitOn '.' ↔ [] ∉ q.parts) := by
    intro h
    rw [q.splitOn_lower_text h (q.labels_ne_nil hu), mem_map]
    refine not_congr ⟨?_, fun hm => ⟨[], hm, rfl⟩⟩
    rintro ⟨part, hm, hni⟩
    rwa [List.map_eq_nil_iff.1 hni] at hm
  rw [normalizeDomain_eq_some]
  constructor
  · rintro ⟨rfl, -, -, hh, hs⟩
    rw [forall_hostChar_lower, forall_hostChar_trim, q.forall_hostChar_text] at hh
    rw [q.trim_text hh hu] at hs ⊢
    exact ⟨rfl, hh, (hp hh).1 hs⟩
  · rintro ⟨rfl, hh, hs⟩
    have hb : ∀ b ∈ ([46] : List UInt8).intercalate q.name, b < 0x80 :=
      (forall_mem_intercalate (by decide) q.name).2 (q.name_lt hh)
    rw [q.trim_text hh hu, forall_hostChar_lower, q.forall_hostChar_text, hp hh]
    refine ⟨rfl, fun hni => ?_, ?_, hh, hs⟩
    · have he := (hp hh).2 hs
      rw [hni] at he
      exact he mem_cons_self
    · have hl : (([46] : List UInt8).intercalate q.name).length ≤ (wire q.labels).length :=
        length_intercalate_le
      have hn := q.name_length
      rw [q.lower_text hh, byteLen_ascii hb]
      omega

theorem DnsQuery.classify_lower_text (hne : q.labels ≠ []) (h : q.HostBytes) (hp : [] ∉ q.parts)
    (blocklist allowlist : List Text) :
    classifyDomain (toAsciiLowercase q.text) (DnsFilterSets.ofLists blocklist allowlist).block
        (DnsFilterSets.ofLists blocklist allowlist).allow = .block ↔
      ∃ b ∈ blocklist, LiesUnder q.parts b ∧ ∀ a ∈ allowlist, LiesUnder q.parts a →
        (domainLabels a).length < (domainLabels b).length := by
  have hs := q.splitOn_lower_text h hne
  have hno : [] ∉ (toAsciiLowercase q.text).splitOn '.' := by
    rw [hs, mem_map]
    rintro ⟨part, hm, hn⟩
    rw [List.map_eq_nil_iff.1 hn] at hm
    exact hp hm
  have hd : ∀ label ∈ q.parts.map (·.map asciiChar), '.' ∉ label := by
    rw [← hs]
    exact fun label => notMem_of_mem_splitOn
  have hu : ∀ entry, (normalEntry entry ≠ [] ∧
      (normalEntry entry).splitOn '.' <:+ q.parts.map (·.map asciiChar)) ↔
        LiesUnder q.parts entry :=
    fun entry => and_congr_right fun _ => (domainLabels_suffix_iff (q.parts_lt h) entry).symm
  have hl : ∀ entry, ((normalEntry entry).splitOn '.').length = (domainLabels entry).length :=
    fun entry => (length_map _).symm
  rw [classifyDomain, trimEndMatches_eq_self hno, toAsciiLowercase_idem, hs,
    classifyLabels_ofLists hd]
  simp only [hu, hl]

/-- **Which queries under a domain are blocked:** those that are decided against. -/
theorem decision_bytes_iff (hu : LiesUnder q.name entry) :
    (DnsFilterSets.ofLists blocklist allowlist).decision q.bytes = .block ↔
      Decided q blocklist allowlist := by
  have hc := q.classify_lower_text (q.labels_ne_nil hu)
  unfold DnsFilterSets.decision
  rw [q.queryName_bytes]
  constructor
  · intro hb
    cases hn : normalizeDomain q.text with
    | none =>
      rw [hn] at hb
      cases hb
    | some domain =>
      obtain ⟨rfl, hh, hp⟩ := (q.normalizeDomain_text hu).1 hn
      rw [hn, Option.map_some, Option.getD_some, hc hh hp blocklist allowlist] at hb
      exact ⟨hh, hp, hb⟩
  · rintro ⟨hh, hp, hb⟩
    rw [(q.normalizeDomain_text hu).2 ⟨rfl, hh, hp⟩, Option.map_some, Option.getD_some,
      hc hh hp blocklist allowlist]
    exact hb

theorem decided_of_noDot (h : q.HostBytes) (hd : ∀ label ∈ q.labels, 46 ∉ label)
    (hbl : ∃ entry ∈ blocklist, LiesUnder q.name entry)
    (hal : ∀ entry ∈ allowlist, ¬LiesUnder q.name entry) : Decided q blocklist allowlist := by
  have hn : ∀ label ∈ q.name, label.splitOn 46 = [label] := by
    rw [DnsQuery.name, forall_mem_map]
    intro label hl
    refine splitOn_eq_singleton fun hm => ?_
    obtain ⟨b, hb, heq⟩ := List.mem_map.1 hm
    rw [(lowerByte_eq_dot b).1 heq] at hb
    exact hd label hl hb
  have hp : q.parts = q.name := by
    rw [DnsQuery.parts, flatMap_congr hn, flatMap_singleton']
  constructor
  · exact h
  · rw [hp, DnsQuery.name, mem_map]
    rintro ⟨label, hl, hni⟩
    have hle := (q.label_length label hl).1
    rw [List.map_eq_nil_iff.1 hni] at hle
    exact absurd hle (by decide)
  · rw [hp]
    obtain ⟨b, hb, hu⟩ := hbl
    exact ⟨b, hb, hu, fun a ha hua => absurd hua (hal a ha)⟩

end Decision

end BalanSir.Dns
