/-
# Targets of a set

`GeositeCategory::matches`, and the hosts that a set or a profile is for.
-/

import BalanSir.B4.Strategies
import BalanSir.Lib.Split
import BalanSir.Lib.Table

namespace BalanSir.B4

open Lib

structure GeositeCategory where
  exact : List Text
  suffixes : List Text
  keywords : List Text
deriving DecidableEq

def GeositeCategory.matches (category : GeositeCategory) (host : Text) : Bool :=
  let h := toAsciiLowercase (trimEndMatches '.' host)
  category.exact.contains h ||
    (category.suffixes.any fun s => h = s || endsWith h ('.' :: s)) ||
    category.keywords.any (contains h)

structure GeositeStore where
  categories : Table Text GeositeCategory

def GeositeStore.get (store : GeositeStore) (name : Text) : Option GeositeCategory :=
  store.categories.lookup name

def B4Set.hasGeosite (set : B4Set) : Bool := !set.targets.geositeCategories.isEmpty

def setMatchesHost (store : GeositeStore) (set : B4Set) (host : Text) : Bool :=
  if set.enabled = false then false
  else
    let h := toAsciiLowercase (trimEndMatches '.' host)
    if set.targets.sniDomains.any (underDomain h) then true
    else if set.hasGeosite then
      set.targets.geositeCategories.any fun cat =>
        match store.get cat with
        | some c => c.matches h
        | none => false
    else false

theorem enabled_of_setMatchesHost {store : GeositeStore} {set : B4Set} {host : Text}
    (h : setMatchesHost store set host) : set.enabled := by
  unfold setMatchesHost at h
  split_ifs at h with ho
  all_goals simpa using ho

def labels (name : Text) : List Text := (trimEndMatches '.' name).splitOn '.'

def Covers (domain host : Text) : Prop :=
  (labels domain).map toAsciiLowercase <:+ (labels host).map toAsciiLowercase
  deriving Decidable

def CoveredBy (domains : List Text) (host : Text) : Prop := ∃ d ∈ domains, Covers d host

instance (domains : List Text) (host : Text) : Decidable (CoveredBy domains host) :=
  List.decidableBEx _ _

theorem eq_dot_of_asciiLower {c : Char} (h : asciiLower c = asciiLower '.') : c = '.' := by
  have hd : asciiLower '.' = '.' := by decide
  rw [asciiLower] at h
  split_ifs at h with hu
  · -- a letter is lowered to a letter
    have hl : ∀ n < 26, Char.ofNat (n + 97) ≠ '.' := by decide
    have hc : 65 ≤ c.toNat ∧ c.toNat ≤ 90 := hu
    have hne := hl (c.toNat - 65) (by omega)
    rw [show c.toNat - 65 + 97 = c.toNat + 32 by omega] at hne
    exact absurd h hne
  · exact h

theorem splitOn_toAsciiLowercase (name : Text) :
    (toAsciiLowercase (trimEndMatches '.' name)).splitOn '.' = (labels name).map toAsciiLowercase :=
  splitOn_map (f := asciiLower) (a := '.') fun _ _ => eq_dot_of_asciiLower

theorem underDomain_iff (host domain : Text) :
    underDomain (toAsciiLowercase (trimEndMatches '.' host)) domain ↔
      Covers domain host := by
  rw [Covers, ← splitOn_toAsciiLowercase, ← splitOn_toAsciiLowercase, splitOn_suffix_iff,
    underDomain, endsWith, Bool.or_eq_true, decide_eq_true_eq, List.isSuffixOf_iff_suffix]

theorem any_underDomain_iff (host : Text) (domains : List Text) :
    domains.any (underDomain (toAsciiLowercase (trimEndMatches '.' host))) ↔
      CoveredBy domains host := by
  simp only [List.any_eq_true, underDomain_iff, CoveredBy]

theorem specific_iff (profile : Profile) (host : Text) :
    (!profile.domains.isEmpty && profile.matchesHost host) ↔
      CoveredBy profile.domains host := by
  have hm : profile.matchesHost host = true ↔ CoveredBy profile.domains host :=
    any_underDomain_iff host profile.domains
  rw [Bool.and_eq_true, hm, and_iff_right_iff_imp]
  rintro ⟨d, hd, -⟩
  rw [Bool.not_eq_true', List.isEmpty_eq_false_iff]
  exact List.ne_nil_of_mem hd

/-- **A host is matched label by label.** Profiles and enabled sets without categories match the
hosts under their domains; the profile for a host is the first with such a domain, else the first
without domains. -/
theorem matches_host_iff (store : GeositeStore) (host : Text) (domains : List Text) :
    (∀ profile : Profile, profile.domains = domains →
      (profile.matchesHost host = true ↔ CoveredBy domains host)) ∧
    (∀ set : B4Set, set.enabled = true → set.targets.sniDomains = domains →
      set.targets.geositeCategories = [] →
        (setMatchesHost store set host = true ↔ CoveredBy domains host)) ∧
    ∀ config : EngineConfig, config.profileFor host =
      (config.profiles.find? fun p => CoveredBy p.domains host).or
        (config.profiles.find? fun p => p.domains = []) := by
  refine ⟨?_, ?_, ?_⟩
  · rintro profile rfl
    exact any_underDomain_iff host profile.domains
  · rintro set he rfl hc
    have hg : set.hasGeosite = false := by
      rw [B4Set.hasGeosite, hc]
      rfl
    rw [← any_underDomain_iff, setMatchesHost, he, hg]
    simp
  · intro config
    have hs : (fun p : Profile => !p.domains.isEmpty && p.matchesHost host) =
        fun p => decide (CoveredBy p.domains host) := by
      funext p
      rw [Bool.eq_iff_iff, specific_iff, decide_eq_true_eq]
    have hem : (fun p : Profile => p.domains.isEmpty) = fun p => decide (p.domains = []) := by
      funext p
      rw [Bool.eq_iff_iff, List.isEmpty_iff, decide_eq_true_eq]
    rw [EngineConfig.profileFor, hs, hem]

def videoSet : B4Set where
  name := "video".toList
  tcp := ⟨0, false⟩
  udp := ⟨"", ""⟩
  fragmentation := ⟨"", false, false⟩
  faking := ⟨false, "", 0⟩
  targets := ⟨["youtube.com".toList], []⟩
  enabled := true

/-- It is for the hosts below the domain, not for those whose name only ends like it. -/
theorem matches_host_video :
    setMatchesHost ⟨∅⟩ videoSet "www.YouTube.com.".toList = true ∧
      setMatchesHost ⟨∅⟩ videoSet "notyoutube.com".toList = false := by
  have hi := fun host : Text =>
    (matches_host_iff ⟨∅⟩ host ["youtube.com".toList]).2.1 videoSet rfl rfl rfl
  constructor
  · exact (hi _).2 (by decide +kernel)
  · exact Bool.eq_false_iff.2 (mt (hi _).1 (by decide +kernel))

end BalanSir.B4
