/-
# Refreshing the pool

`VpnManager::refresh`, and the removal of a manual profile.
-/

import BalanSir.Lib.Prog
import BalanSir.Vpn.Importer

namespace BalanSir.Vpn

open Lib

section Pool

variable {τ : Type}

/-- `PooledProfile`: a profile and what is kept about its health. -/
structure PooledProfile (τ : Type) where
  profile : VpnProfile
  tracking : τ
  deriving DecidableEq

structure VpnPool (τ : Type) where
  profiles : List (PooledProfile τ) := []
  active : Option Text := none
  lastRotationMs : ℤ := 0
  lastRotationReason : Option Text := none
  deriving DecidableEq

def VpnPool.atomicReplace (pool : VpnPool τ) (fresh : τ) (profiles : List VpnProfile) :
    Except Text (ℕ × VpnPool τ) :=
  if profiles = [] then .error "refusing to replace pool with an empty set".toList
  else
    let pooled := profiles.map fun p => { profile := p, tracking := fresh : PooledProfile τ }
    .ok (pooled.length, { pool with
      profiles := pooled
      active := pool.active.filter fun active => pooled.any (·.profile.profileId == active) })

end Pool

structure VpnToml where
  sourceUrl : Option Text
  localSource : Option Text

/-- The manual profiles, the size and the text of a file, and what `curl` returns. -/
structure Sources where
  manual : Text
  stat : Text → Except Text ℕ
  readToString : Text → Except Text Text
  reqwestLite : Text → Except Text Text

def Sources.fetchSubscription (env : Sources) (url : Text) : Except Text Text :=
  if !startsWith url "https://".toList && !startsWith url "http://".toList then
    .error ("subscription URL must be http(s): ".toList ++ url)
  else env.reqwestLite url

def Sources.readLocal (env : Sources) (local? : Text) : Except Text Text := do
  let trimmed := trim local?
  if startsWith trimmed ['/'] || startsWith trimmed "./".toList ||
      startsWith trimmed "../".toList then
    let len ← (env.stat trimmed).mapError fun e => "stat local source ".toList ++ trimmed ++
      ": ".toList ++ e
    if len > 1024 * 1024 then
      throw ("local source ".toList ++ trimmed ++ " is ".toList ++ Nat.toDigits 10 len ++
        " bytes (max 1 MiB)".toList)
    (env.readToString trimmed).mapError fun e => "read local source ".toList ++ trimmed ++
      ": ".toList ++ e
  else return local?

def refreshBody (env : Sources) (config : VpnToml) : Except Text (Text × Text) := do
  let body : Text := if env.manual = [] then [] else env.manual ++ ['\n']
  let (body, label) ← match config.localSource with
    | some text => do
      let body ← env.readLocal text
      pure (body, "local".toList)
    | none => pure (body, [])
  match config.sourceUrl with
  | some url =>
    if body = [] then do
      let body ← env.fetchSubscription url
      return (body, url)
    else return (body, label)
  | none => return (body, label)

/-- `VpnManager`, as far as a refresh changes it. -/
structure VpnManager (τ : Type) where
  pool : VpnPool τ
  lastError : Option Text := none
  lastRefreshReason : Option Text := none
  /-- The `VpnPoolUpdated` events sent, with the number of profiles and the source. -/
  events : List (ℕ × Text) := []

def refresh {τ : Type} (env : Sources) (config : VpnToml) (fresh : τ) (nowMs : ℤ) :
    Prog (VpnManager τ) Text ℕ := do
  match refreshBody env config with
  | .error e => throw e
  | .ok (body, sourceLabel) =>
    let result := importSubscription sourceLabel nowMs body
    if result.profiles = [] then
      throw ("no valid profiles in source (".toList ++
        Nat.toDigits 10 result.rejected.length ++ " rejected)".toList)
    match (← get).pool.atomicReplace fresh result.profiles with
    | .error e => throw e
    | .ok (n, pool) =>
      modify fun m => { m with
        pool := pool
        lastError := none
        lastRefreshReason := some ("refreshed ".toList ++ Nat.toDigits 10 n ++
          " profiles from ".toList ++ sourceLabel ++ " (".toList ++
          Nat.toDigits 10 result.rejected.length ++ " rejected, ".toList ++
          Nat.toDigits 10 result.duplicatesSkipped ++ " dupes)".toList)
        events := m.events ++ [(n, sourceLabel)] }
      return n

variable {τ : Type} {env : Sources} {config : VpnToml} {fresh : τ} {nowMs : ℤ}
  {n : ℕ} {id existing : Text}

def VpnManager.profiles (m : VpnManager τ) : List VpnProfile := m.pool.profiles.map (·.profile)

def Sources.withoutManual (env : Sources) : Sources := { env with manual := [] }

theorem atomicReplace_of_ne (fresh : τ) {profiles : List VpnProfile} (h : profiles ≠ [])
    (pool : VpnPool τ) : ∃ pool', pool.atomicReplace fresh profiles = .ok (profiles.length, pool') ∧
      pool'.profiles.map (·.profile) = profiles := by
  unfold VpnPool.atomicReplace
  rw [if_neg h]
  simp [Function.comp_def]

theorem profiles_of_refresh {m m' : VpnManager τ}
    (h : refresh env config fresh nowMs m = (.ok n, m')) :
    ∃ body label, refreshBody env config = .ok (body, label) ∧
      m'.profiles = (importSubscription label nowMs body).profiles ∧ m'.profiles ≠ [] := by
  unfold refresh at h
  cases hb : refreshBody env config with
  | error e =>
    rw [hb] at h
    exact absurd (congrArg Prod.fst h) nofun
  | ok r =>
    obtain ⟨body, label⟩ := r
    rw [hb] at h
    refine ⟨body, label, rfl, ?_⟩
    by_cases hp : (importSubscription label nowMs body).profiles = []
    · simp only [if_pos hp] at h
      exact absurd (congrArg Prod.fst h) nofun
    · simp only [if_neg hp] at h
      obtain ⟨pool', hpo, hpr⟩ := atomicReplace_of_ne fresh hp m.pool
      have hg : (get : Prog (VpnManager τ) Text (VpnManager τ)) m = (.ok m, m) := rfl
      simp only [prog_bind, hg, hpo] at h
      have hm : pool' = m'.pool := congrArg (fun r => r.2.pool) h
      rw [VpnManager.profiles, ← hm, hpr]
      exact ⟨rfl, hp⟩

theorem refreshBody_of_local (h : env.manual = [] ∨ config.localSource.isSome) :
    refreshBody env config = refreshBody env.withoutManual config := by
  unfold refreshBody
  cases hl : config.localSource with
  | some text => rfl
  | none =>
    have hm : env.manual = [] := by simpa [hl] using h
    rw [if_pos hm]
    rfl

theorem refreshBody_of_manual (hm : env.manual ≠ []) (hl : config.localSource = none) :
    refreshBody env config = .ok (env.manual ++ ['\n'], []) := by
  have hne : env.manual ++ ['\n'] ≠ [] := by simp
  unfold refreshBody
  rw [hl, if_neg hm]
  cases config.sourceUrl with
  | none => rfl
  | some url =>
    show (if env.manual ++ ['\n'] = [] then _ else _) = _
    rw [if_neg hne]
    rfl

theorem refreshBody_withoutManual_of_none (hl : config.localSource = none)
    (hu : config.sourceUrl = none) : refreshBody env.withoutManual config = .ok ([], []) := by
  unfold refreshBody
  rw [hl, hu]
  rfl

variable (label : Text)

def imported (nowMs : ℤ) (body : List Text) : List VpnProfile :=
  (importLines label nowMs body).profiles

def LosesNothing (env : Sources) (config : VpnToml) (nowMs : ℤ) (source label : Text) : Prop :=
  env.manual = [] ∨
    match config.localSource, config.sourceUrl with
    | none, none => True
    | some _, _ => ∀ p ∈ imported label nowMs (lines env.manual),
        p ∈ imported label nowMs (lines source)
    | none, some _ => ∀ p ∈ imported [] nowMs (lines source),
        ∃ q ∈ imported [] nowMs (lines env.manual), q.profileId = p.profileId

@[simp] theorem imported_nil : imported label nowMs [] = [] := rfl

theorem imported_append_eq_right (a b : List Text) :
    imported label nowMs (a ++ b) = imported label nowMs b ↔
      ∀ p ∈ imported label nowMs a, p ∈ imported label nowMs b := by
  simp only [imported, importLines_profiles, List.filterMap_append]
  exact sortedFirsts_append_eq_right

theorem imported_append_eq_left (a b : List Text) :
    imported label nowMs (a ++ b) = imported label nowMs a ↔
      ∀ p ∈ imported label nowMs b, ∃ q ∈ imported label nowMs a, q.profileId = p.profileId := by
  simp only [imported, importLines_profiles, List.filterMap_append]
  exact sortedFirsts_append_eq_left

theorem exists_imported_iff {label : Text} {a b : List Text} (hne : imported label nowMs a ≠ []) :
    (∃ l, imported label nowMs a = imported l nowMs b) ↔
      imported label nowMs b = imported label nowMs a := by
  constructor
  · rintro ⟨l, hl⟩
    obtain ⟨p, hp⟩ := List.exists_mem_of_ne_nil _ hne
    have hla := source_of_mem_importLines hp
    have hl' : p.source = l := source_of_mem_importLines (hl ▸ hp)
    rw [hla] at hl'
    rw [hl, hl']
  · exact fun h => ⟨label, h.symm⟩

/-- **What a refresh leaves in the pool:** the manual profiles and those of the source exactly when
it loses nothing. -/
theorem refresh_profiles_iff {m m' : VpnManager τ} {source label : Text}
    (hsource : refreshBody env.withoutManual config = .ok (source, label))
    (h : refresh env config fresh nowMs m = (.ok n, m')) :
    (∃ l, m'.profiles = imported l nowMs (lines env.manual ++ lines source)) ↔
      LosesNothing env config nowMs source label := by
  obtain ⟨body, l, hb, hp, hne⟩ := profiles_of_refresh h
  rw [hp] at hne ⊢
  unfold LosesNothing
  by_cases hl : env.manual = [] ∨ config.localSource.isSome
  · -- the body is that of the source
    rw [refreshBody_of_local hl, hsource, Except.ok.injEq, Prod.mk.injEq] at hb
    obtain ⟨rfl, rfl⟩ := hb
    show (∃ l, imported label nowMs (lines source) = _) ↔ _
    rw [exists_imported_iff hne, imported_append_eq_right]
    by_cases hm : env.manual = []
    · refine iff_of_true ?_ (.inl hm)
      simp [hm]
    · obtain ⟨text, ht⟩ := Option.isSome_iff_exists.1 (hl.resolve_left hm)
      simp [hm, ht]
  · -- the body is that of the manual profiles
    rw [not_or, Option.not_isSome_iff_eq_none] at hl
    obtain ⟨hm, hl⟩ := hl
    rw [refreshBody_of_manual hm hl, Except.ok.injEq, Prod.mk.injEq] at hb
    obtain ⟨rfl, rfl⟩ := hb
    have hn : (importSubscription [] nowMs (env.manual ++ ['\n'])).profiles =
        imported [] nowMs (lines env.manual) := importLines_newline env.manual
    rw [hn] at hne ⊢
    rw [exists_imported_iff hne, imported_append_eq_left]
    cases hu : config.sourceUrl with
    | some url => simp [hm, hl]
    | none =>
      rw [refreshBody_withoutManual_of_none hl hu, Except.ok.injEq, Prod.mk.injEq] at hsource
      obtain ⟨rfl, rfl⟩ := hsource
      simp [hl]

def oneManual : Sources where
  manual := "vless://12345678@a:1".toList
  stat _ := .error "No such file or directory (os error 2)".toList
  readToString _ := .error "No such file or directory (os error 2)".toList
  reqwestLite _ := .error "subscription fetch failed".toList

def inlineOther : VpnToml where
  sourceUrl := none
  localSource := some "vless://12345678@b:1".toList

def inlineBoth : VpnToml where
  sourceUrl := none
  localSource := some "vless://12345678@a:1\nvless://12345678@b:1".toList

theorem refresh_eq {m : VpnManager τ} (h : (refresh env config fresh nowMs m).1 = .ok n) :
    refresh env config fresh nowMs m = (.ok n, (refresh env config fresh nowMs m).2) :=
  Prod.ext h rfl

/-- A local source that repeats the manual profile: the refresh loses nothing. -/
theorem refresh_inlineBoth : ∃ l, (refresh oneManual inlineBoth () 0 { pool := {} }).2.profiles =
      imported l 0 (lines oneManual.manual ++
        lines "vless://12345678@a:1\nvless://12345678@b:1".toList) := by
  have hs : refreshBody oneManual.withoutManual inlineBoth =
      .ok ("vless://12345678@a:1\nvless://12345678@b:1".toList, "local".toList) := by
    decide +kernel
  have hok : (refresh oneManual inlineBoth () 0 { pool := {} }).1 = .ok 2 := by decide +kernel
  have ha : ∀ p ∈ imported "local".toList 0 (lines oneManual.manual),
      p ∈ imported "local".toList 0
        (lines "vless://12345678@a:1\nvless://12345678@b:1".toList) := by
    decide +kernel
  exact (refresh_profiles_iff hs (refresh_eq hok)).2 (.inr ha)

/-- A local source replaces the manual profile. -/
theorem refresh_loses_manual :
    ¬∀ (env : Sources) (config : VpnToml) (nowMs : ℤ) (m m' : VpnManager Unit) (n : ℕ)
      (source label : Text), refreshBody env.withoutManual config = .ok (source, label) →
      refresh env config () nowMs m = (.ok n, m') →
      ∃ l, m'.profiles = imported l nowMs (lines env.manual ++ lines source) := by
  intro h
  have hs : refreshBody oneManual.withoutManual inlineOther =
      .ok ("vless://12345678@b:1".toList, "local".toList) := by
    decide +kernel
  have hok : (refresh oneManual inlineOther () 0 { pool := {} }).1 = .ok 1 := by decide +kernel
  have hp : (refresh oneManual inlineOther () 0 { pool := {} }).2.profiles =
      imported "local".toList 0 (lines "vless://12345678@b:1".toList) := by decide +kernel
  have hl := h _ _ _ _ _ _ _ _ hs (refresh_eq hok)
  rw [hp, exists_imported_iff (by decide +kernel)] at hl
  exact absurd hl (by decide +kernel)

end BalanSir.Vpn
