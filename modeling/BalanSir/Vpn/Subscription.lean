/-
# What a subscription gives

`import_subscription` as a whole.
-/

import BalanSir.Vpn.Importer

namespace BalanSir.Vpn

open Lib List

variable {source : Text} {sourceTsMs : ℤ} {p : VpnProfile}

def Counts (line : Text) : Prop := ¬(trim line = [] ∨ startsWith (trim line) ['#'])
  deriving Decidable

def ImportResult.total (result : ImportResult) : ℕ :=
  result.profiles.length + result.rejected.length + result.duplicatesSkipped

theorem total_importLine (state : List Text × ImportResult) (line : Text) :
    (importLine source sourceTsMs state line).2.total =
      state.2.total + if Counts line then 1 else 0 := by
  unfold importLine
  by_cases hb : trim line = [] ∨ startsWith (trim line) ['#']
  · have hn : ¬Counts line := fun hc => hc hb
    rw [if_neg hn]
    dsimp only
    rw [if_pos hb]
    rfl
  · have hc : Counts line := hb
    rw [if_pos hc]
    dsimp only
    rw [if_neg hb]
    cases parseLine (trim line) source sourceTsMs with
    | error reason =>
      simp only [ImportResult.total, length_append, length_singleton]
      omega
    | ok profile =>
      dsimp only
      split_ifs
      · simp only [ImportResult.total]
        omega
      · simp only [ImportResult.total, length_append, length_singleton]
        omega

theorem total_foldl_importLine (body : List Text) (state : List Text × ImportResult) :
    (body.foldl (importLine source sourceTsMs) state).2.total =
      state.2.total + (body.filter fun line => Counts line).length := by
  induction body generalizing state with
  | nil => rfl
  | cons line body ih =>
    rw [foldl_cons, ih, total_importLine, filter_cons]
    by_cases hc : Counts line
    · simp only [hc, if_true, decide_true, length_cons]
      omega
    · simp [hc]

theorem total_importLines (body : List Text) :
    (importLines source sourceTsMs body).total = (body.filter fun line => Counts line).length := by
  have hf : (body.foldl (importLine source sourceTsMs) ([], {})).2.total =
      0 + (body.filter fun line => Counts line).length := total_foldl_importLine body ([], {})
  rw [Nat.zero_add] at hf
  rw [← hf]
  simp only [ImportResult.total, importLines, length_insertionSort]

theorem parseLine_trim (line : Text) :
    parseLine (trim line) source sourceTsMs = parseLine line source sourceTsMs := by
  unfold parseLine
  rw [trim_trim]

theorem parsed_eq_some_iff {line : Text} :
    parsed source sourceTsMs line = some p ↔ parseLine line source sourceTsMs = .ok p := by
  unfold parsed
  dsimp only
  rw [parseLine_trim]
  split_ifs with hb
  · have he : parseLine line source sourceTsMs = .error "empty or comment".toList := by
      unfold parseLine
      rw [if_pos hb]
      rfl
    simp [he]
  · cases parseLine line source sourceTsMs with
    | error reason => simp [Except.toOption]
    | ok q => simp [Except.toOption]

theorem first_of_mem_importLines {body : List Text}
    (h : p ∈ (importLines source sourceTsMs body).profiles) :
    ∃ before line after, body = before ++ line :: after ∧
      parseLine line source sourceTsMs = .ok p ∧
      ∀ line' ∈ before, ∀ q, parseLine line' source sourceTsMs = .ok q →
        q.profileId ≠ p.profileId := by
  rw [importLines_profiles, mem_sortedFirsts, mem_firsts, find?_eq_some_iff_append] at h
  obtain ⟨-, earlier, later, hp, hne⟩ := h
  obtain ⟨before, rest, rfl, he, hr⟩ := List.filterMap_eq_append_iff.1 hp
  obtain ⟨skipped, line, after, rfl, hs, hl, -⟩ := List.filterMap_eq_cons_iff.1 hr
  refine ⟨before ++ skipped, line, after, by simp, parsed_eq_some_iff.1 hl, ?_⟩
  intro line' hl' q hq
  rw [← parsed_eq_some_iff] at hq
  rcases List.mem_append.1 hl' with hb | hsk
  · have hm : q ∈ earlier := he ▸ List.mem_filterMap.2 ⟨line', hb, hq⟩
    simpa using hne q hm
  · rw [hs line' hsk] at hq
    cases hq

theorem importLines_append_self (body : List Text) :
    (importLines source sourceTsMs (body ++ body)).profiles =
      (importLines source sourceTsMs body).profiles := by
  rw [importLines_profiles, importLines_profiles, filterMap_append, sortedFirsts_append_eq_left]
  exact fun p hp => ⟨p, hp, rfl⟩

theorem profiles_newline_self (body : Text) :
    (importSubscription source sourceTsMs (body ++ '\n' :: body)).profiles =
      (importSubscription source sourceTsMs body).profiles := by
  have hs : (lines (body ++ ['\n'])).filterMap (parsed source sourceTsMs) =
      (lines body).filterMap (parsed source sourceTsMs) := by
    rw [filterMap_parsed_eq, trim_lines_newline, ← filterMap_parsed_eq]
  rw [importSubscription, lines_append_newline, importLines_profiles, filterMap_append, hs,
    ← filterMap_append, ← importLines_profiles, importLines_append_self]
  rfl

theorem profiles_self_of_newline {body : Text} (h : body = [] ∨ body.getLast? = some '\n') :
    (importSubscription source sourceTsMs (body ++ body)).profiles =
      (importSubscription source sourceTsMs body).profiles := by
  rcases h with rfl | h
  · rfl
  · obtain ⟨init, rfl⟩ := List.getLast?_eq_some_iff.1 h
    have hl : lines (init ++ ['\n'] ++ (init ++ ['\n'])) =
        lines (init ++ ['\n']) ++ lines (init ++ ['\n']) := by
      rw [append_assoc, singleton_append, lines_append_newline]
    rw [importSubscription, hl, importLines_append_self]
    rfl

/-- **What a subscription gives:** every line that counts is a profile, a rejection or a duplicate,
the ids go up, and each profile is the parse of the first line with its id. -/
theorem importSubscription_spec (source : Text) (sourceTsMs : ℤ) (body : Text) :
    let result := importSubscription source sourceTsMs body
    result.profiles.length + result.rejected.length + result.duplicatesSkipped =
      ((lines body).filter fun line => Counts line).length ∧
    (result.profiles.Pairwise fun p q => p.profileId < q.profileId) ∧
    (∀ p ∈ result.profiles, ∃ before line after, lines body = before ++ line :: after ∧
      parseLine line source sourceTsMs = .ok p ∧
      ∀ line' ∈ before, ∀ q, parseLine line' source sourceTsMs = .ok q →
        q.profileId ≠ p.profileId) ∧
    (importSubscription source sourceTsMs (body ++ '\n' :: body)).profiles = result.profiles ∧
    (body = [] ∨ body.getLast? = some '\n' →
      (importSubscription source sourceTsMs (body ++ body)).profiles = result.profiles) := by
  refine ⟨total_importLines _, ?_, fun p hp => first_of_mem_importLines hp,
    profiles_newline_self body, profiles_self_of_newline⟩
  rw [importSubscription, importLines_profiles]
  exact pairwise_sortedFirsts _

def oneLine : Text := "vless://12345678@a:1".toList

theorem importSubscription_spec_oneLine :
    (importSubscription [] 0 (oneLine ++ '\n' :: oneLine)).profiles =
        (importSubscription [] 0 oneLine).profiles ∧
      (importSubscription [] 0 (oneLine ++ ['\n'] ++ (oneLine ++ ['\n']))).profiles =
        (importSubscription [] 0 (oneLine ++ ['\n'])).profiles :=
  ⟨(importSubscription_spec [] 0 oneLine).2.2.2.1,
    (importSubscription_spec [] 0 (oneLine ++ ['\n'])).2.2.2.2 (.inr (by decide))⟩

/-- With that line twice and no line feed between them, nothing is imported. -/
theorem oneLine_twice : (importSubscription [] 0 oneLine).profiles.length = 1 ∧
      (importSubscription [] 0 (oneLine ++ oneLine)).profiles = [] := by
  decide +kernel

end BalanSir.Vpn
