/-
# What the rendered arguments match

What `nft` matches when it is given the words of `rule_args`.
-/

import BalanSir.Executor.Packet

namespace BalanSir.Executor

open Net (IpAddr)
open NftRuleSpec (renderField addrMatcher quoted render)

def decimal (text : String) : ℕ := Nat.ofDigitChars 10 text.toList 0

def protoNumber (text : String) : ℕ :=
  match text with
  | "tcp" => 6
  | "udp" => 17
  | number => decimal number

def isIpv6 : IpAddr → Bool
  | .v4 _ => false
  | .v6 _ => true

def nameMatcher? (w₁ w₂ : String) : Option (Packet → Bool) :=
  match w₁ with
  | "iifname" => some fun p => w₂ == NftRuleSpec.quoted p.iifname
  | "oifname" => some fun p => p.oifname.any fun o => w₂ == NftRuleSpec.quoted o
  | _ => none

def fieldMatcher? (w₁ w₂ w₃ : String) : Option (Packet → Bool) :=
  match w₁, w₂ with
  | "meta", "l4proto" => some fun p => p.l4proto.toNat == protoNumber w₃
  | "ip", "saddr" => some fun p => !isIpv6 p.src && cidrHits w₃ p.src
  | "ip6", "saddr" => some fun p => isIpv6 p.src && cidrHits w₃ p.src
  | "ip", "daddr" => some fun p => !isIpv6 p.dst && cidrHits w₃ p.dst
  | "ip6", "daddr" => some fun p => isIpv6 p.dst && cidrHits w₃ p.dst
  | "th", "sport" => some fun p => p.sport.any (·.toNat == decimal w₃)
  | "th", "dport" => some fun p => p.dport.any (·.toNat == decimal w₃)
  | "ct", "state" => some fun p => ctHits w₃ p.ctState
  | _, _ => none

def argsHit (p : Packet) : List String → Bool
  | w₁ :: w₂ :: w₃ :: rest =>
    match fieldMatcher? w₁ w₂ w₃ with
    | some hit => hit p && argsHit p rest
    | none =>
      match nameMatcher? w₁ w₂ with
      | some hit => hit p && argsHit p (w₃ :: rest)
      | none => true
  | [w₁, w₂] =>
    match nameMatcher? w₁ w₂ with
    | some hit => hit p
    | none => true
  | _ => true

variable {p : Packet} {w₁ w₂ w₃ : String} {hit : Packet → Bool} {rest : List String}
  {cidr : String} {keyword : String}

theorem argsHit_field (h : fieldMatcher? w₁ w₂ w₃ = some hit) :
    argsHit p (w₁ :: w₂ :: w₃ :: rest) = (hit p && argsHit p rest) := by
  rw [argsHit, h]

theorem argsHit_name (hf : ∀ w₃, fieldMatcher? w₁ w₂ w₃ = none)
    (h : nameMatcher? w₁ w₂ = some hit) :
    argsHit p (w₁ :: w₂ :: rest) = (hit p && argsHit p rest) := by
  cases rest with
  | nil => simp [argsHit, h]
  | cons w₃ rest => rw [argsHit, hf, h]

theorem argsHit_statement (hf : ∀ w₂ w₃, fieldMatcher? w₁ w₂ w₃ = none)
    (hn : ∀ w₂, nameMatcher? w₁ w₂ = none) : argsHit p (w₁ :: rest) := by
  match rest with
  | [] => rfl
  | [w₂] => simp [argsHit, hn]
  | w₂ :: w₃ :: rest => rw [argsHit, hf, hn]

theorem argsHit_renderField {α : Type} {field : Option α} {args : α → List String} {hits : α → Bool}
    (h : ∀ a ∈ field, ∀ rest, argsHit p (args a ++ rest) = (hits a && argsHit p rest)) :
    argsHit p (renderField field args ++ rest) =
      (fieldHits field hits && argsHit p rest) := by
  cases field with
  | none => rfl
  | some a => exact h a rfl rest

theorem decimal_toString (port : UInt16) : decimal (toString port) = port.toNat := by
  have ht : (toString port).toList = Nat.toDigits 10 port.toNat := by
    show (toString port.toNat).toList = _
    simp [Nat.toList_repr]
  rw [decimal, ht, Nat.ofDigitChars_ten_toDigits]

def matcherWords : List String := ["meta", "ip", "ip6", "th", "ct", "iifname", "oifname"]

theorem argsHit_of_notMem (h : w₁ ∉ matcherWords) : argsHit p (w₁ :: rest) := by
  refine argsHit_statement (fun w₂ w₃ => ?_) fun w₂ => ?_
  · unfold fieldMatcher?
    split
    all_goals first | rfl | exact absurd (by decide) h
  · unfold nameMatcher?
    split
    all_goals first | rfl | exact absurd (by decide) h

theorem toText_notMem_matcherWords (verdict : NftVerdict) : verdict.toText ∉ matcherWords := by
  have hw : ∀ w ∈ matcherWords, w.toList.head? ≠ some 'q' ∧ w.toList.head? ≠ some 'd' := by
    decide
  cases verdict with
  | accept => decide
  | drop => decide
  | reject => decide
  | masquerade => decide
  | queue num => exact fun hm => (hw _ hm).1 (by simp [NftVerdict.toText])
  | dnat addr port => exact fun hm => (hw _ hm).2 (by simp [NftVerdict.toText])

def FamilyText (cidr : String) : Prop :=
  ∀ addr, cidrHits cidr addr = true → (':' ∈ cidr.toList ↔ isIpv6 addr = true)

theorem FamilyText.ipv6 (h : FamilyText cidr) (hc : ':' ∈ cidr.toList)
    (addr : IpAddr) : (isIpv6 addr && cidrHits cidr addr) = cidrHits cidr addr := by
  cases hci : cidrHits cidr addr with
  | false => exact Bool.and_false _
  | true => rw [(h addr hci).1 hc, Bool.and_self]

theorem FamilyText.ipv4 (h : FamilyText cidr) (hc : ':' ∉ cidr.toList)
    (addr : IpAddr) : (!isIpv6 addr && cidrHits cidr addr) = cidrHits cidr addr := by
  cases hci : cidrHits cidr addr with
  | false => exact Bool.and_false _
  | true => rw [Bool.eq_false_iff.2 (mt (h addr hci).2 hc), Bool.not_false, Bool.and_self]

theorem argsHit_addr (addr : Packet → IpAddr) (hi4 : ∀ cidr, fieldMatcher? "ip" keyword cidr =
      some fun p => !isIpv6 (addr p) && cidrHits cidr (addr p))
    (hi6 : ∀ cidr, fieldMatcher? "ip6" keyword cidr =
      some fun p => isIpv6 (addr p) && cidrHits cidr (addr p))
    {cidr : String} (h : FamilyText cidr) : argsHit p (addrMatcher keyword cidr ++ rest) =
      (cidrHits cidr (addr p) && argsHit p rest) := by
  unfold addrMatcher
  split_ifs with hc
  · rw [← h.ipv6 hc]
    exact argsHit_field (hi6 cidr)
  · rw [← h.ipv4 hc]
    exact argsHit_field (hi4 cidr)

theorem quoted_beq (a b : String) : (quoted a == quoted b) = (a == b) := by
  have hq : quoted a = quoted b ↔ a = b := by
    simp [quoted]
  rw [Bool.eq_iff_iff, beq_iff_eq, beq_iff_eq, hq]

theorem argsHit_proto (proto : NftProto) : argsHit p (["meta", "l4proto", proto.toText] ++ rest) =
    ((proto.number == p.l4proto) && argsHit p rest) := by
  have hf : fieldMatcher? "meta" "l4proto" proto.toText =
      some fun p => p.l4proto.toNat == protoNumber proto.toText := rfl
  have hn : protoNumber proto.toText = proto.number.toNat := by cases proto <;> rfl
  have hb : (p.l4proto.toNat == proto.number.toNat) = (proto.number == p.l4proto) := by
    rw [Bool.eq_iff_iff, beq_iff_eq, beq_iff_eq, UInt8.toNat_inj, eq_comm]
  rw [← hb, ← hn]
  exact argsHit_field hf

theorem any_port (port : Option UInt16) (x : UInt16) :
    port.any (·.toNat == decimal (toString x)) = (port == some x) := by
  rw [decimal_toString]
  cases port with
  | none => rfl
  | some y =>
    rw [Option.any_some, Bool.eq_iff_iff, beq_iff_eq, beq_iff_eq, UInt16.toNat_inj,
      Option.some.injEq]

theorem argsHit_port (port : Packet → Option UInt16) (hf : ∀ text, fieldMatcher? "th" keyword text =
      some fun p => (port p).any (·.toNat == decimal text)) (x : UInt16) :
    argsHit p (["th", keyword, toString x] ++ rest) = ((port p == some x) && argsHit p rest) := by
  rw [← any_port]
  exact argsHit_field (hf (toString x))

theorem argsHit_iifname (name : String) : argsHit p (["iifname", quoted name] ++ rest) =
      ((name == p.iifname) && argsHit p rest) := by
  have hn : nameMatcher? "iifname" (quoted name) =
      some fun p => quoted name == quoted p.iifname := rfl
  rw [← quoted_beq]
  exact argsHit_name (fun _ => rfl) hn

theorem argsHit_oifname (name : String) : argsHit p (["oifname", quoted name] ++ rest) =
      ((p.oifname == some name) && argsHit p rest) := by
  have hn : nameMatcher? "oifname" (quoted name) =
      some fun p => p.oifname.any fun o => quoted name == quoted o := rfl
  have ha : p.oifname.any (fun o => quoted name == quoted o) =
      (p.oifname == some name) := by
    cases p.oifname with
    | none => rfl
    | some o =>
      rw [Option.any_some, quoted_beq, Bool.eq_iff_iff, beq_iff_eq, beq_iff_eq,
        Option.some.injEq, eq_comm]
  rw [← ha]
  exact argsHit_name (fun _ => rfl) hn

theorem argsHit_ct (states : String) : argsHit p (["ct", "state", states] ++ rest) =
    (ctHits states p.ctState && argsHit p rest) := by
  have hf : fieldMatcher? "ct" "state" states = some fun p => ctHits states p.ctState := rfl
  exact argsHit_field hf

theorem argsHit_mark (mark : Option UInt32) (h : argsHit p rest) :
    argsHit p (renderField mark (fun m => ["meta", "mark", "set", toString m]) ++
      rest) := by
  cases mark with
  | none => exact h
  | some m => rfl

/-- **The words of a rule say what the rule does.** -/
theorem argsHit_render {spec : NftRuleSpec} (hs : ∀ cidr ∈ spec.srcCidr, FamilyText cidr)
    (hd : ∀ cidr ∈ spec.dstCidr, FamilyText cidr) : argsHit p spec.render = spec.hits p := by
  unfold render
  simp only [List.append_assoc]
  rw [argsHit_renderField fun proto _ rest => argsHit_proto proto,
    argsHit_renderField fun cidr hc rest =>
      argsHit_addr Packet.src (fun _ => rfl) (fun _ => rfl) (hs cidr hc),
    argsHit_renderField fun cidr hc rest =>
      argsHit_addr Packet.dst (fun _ => rfl) (fun _ => rfl) (hd cidr hc),
    argsHit_renderField fun name _ rest => argsHit_iifname name,
    argsHit_renderField fun name _ rest => argsHit_oifname name,
    argsHit_renderField fun x _ rest => argsHit_port Packet.sport (fun _ => rfl) x,
    argsHit_renderField fun x _ rest => argsHit_port Packet.dport (fun _ => rfl) x,
    argsHit_renderField fun states _ rest => argsHit_ct states, argsHit_mark, Bool.and_true]
  · simp only [NftRuleSpec.hits, Bool.and_assoc]
  · split
    · exact argsHit_of_notMem (by decide)
    · exact argsHit_of_notMem (toText_notMem_matcherWords _)

end BalanSir.Executor
