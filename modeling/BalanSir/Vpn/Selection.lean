/-
# A selection cycle

`VpnManager::selection_cycle`: pin, rotation, selection, and the consumer.
-/

import BalanSir.Vpn.Pool

namespace BalanSir.Vpn

open Lib

/-- `VpnManagerHandle`, as far as a selection cycle reads it. -/
structure VpnManagerHandle where
  manualRotationRequested : Bool := false
  pin : Option Text := none
  deriving DecidableEq

/-- The handle and the pool, the profile handed over, and the event. -/
structure CycleResult where
  handle : VpnManagerHandle
  pool : Pool
  applied : Option VpnProfile
  event : Option (Text × Text)

variable (config : PoolConfig) (nowMs : ℤ)

def manualRotation (pool : Pool) : Pool :=
  match pool.active with
  | none => pool
  | some cur =>
    match (pool.profiles.map (·.profile.profileId)).find? (· ≠ cur) with
    | none => pool
    | some next => (forceRotateTo nowMs next "manual rotation".toList pool).2

def pinAlive (pool : Pool) (pinned : Text) : Bool :=
  match ((profile? pool pinned).map (·.tracking.state)).getD .failed with
  | .failed | .cooldown => false
  | _ => true

def applyPin (pin : Option Text) (pool : Pool) : Bool × Pool :=
  match pin with
  | none => (false, pool)
  | some pinned =>
    let alive := pinAlive pool pinned
    if alive ∧ pool.active ≠ some pinned then
      (alive, (forceRotateTo nowMs pinned "operator pin".toList pool).2)
    else (alive, pool)

def rotateAndSelect (handle : VpnManagerHandle) (pool : Pool) : Pool :=
  let pool := if handle.manualRotationRequested then manualRotation nowMs pool else pool
  let (pinApplied, pool) := applyPin nowMs handle.pin pool
  let pool := if pinApplied then pool else (maybePlannedRotate config nowMs pool).2
  if pinApplied then pool else (selectFor config nowMs pool).2

def selectionCycle (handle : VpnManagerHandle) (pool : Pool) : CycleResult :=
  let after := rotateAndSelect config nowMs handle pool
  { handle := { handle with manualRotationRequested := false }
    pool := after
    applied := (after.active.bind (profile? after)).map (·.profile)
    event :=
      if after.active ≠ pool.active then
        after.active.map fun id => (id, after.lastRotationReason.getD "pool selection".toList)
      else none }

def Pool.ids (pool : Pool) : List Text := pool.profiles.map (·.profile.profileId)

/-- A pool as the manager has it: the importer skips a profile whose id it has seen. -/
structure PoolState where
  pool : Pool
  distinct : pool.ids.Nodup

variable {config nowMs}

theorem ids_eq_view (pool : Pool) : pool.ids = pool.view.map (·.profile.profileId) := by
  rw [Pool.view, List.map_map]
  rfl

theorem view_manualRotation (pool : Pool) : Pool.view (manualRotation nowMs pool) = pool.view := by
  unfold manualRotation
  split
  · rfl
  · split
    · rfl
    · exact view_forceRotateTo _ _ _

variable {pool : Pool}

theorem pinAlive_congr {pool' : Pool} (h : pool.view = pool'.view) (pinned : Text) :
    pinAlive pool pinned = pinAlive pool' pinned := by
  have hv : ∀ pool : Pool, (profile? pool pinned).map (·.tracking.state) =
      (lookup (·.profile.profileId) pinned pool.view).map (·.tracking.state) := by
    intro pool
    rw [profile?, lookup, lookup, Pool.view, List.find?_map, Option.map_map]
    rfl
  rw [pinAlive, pinAlive, hv, hv, h]

def LivePin (handle : VpnManagerHandle) (pool : Pool) : Prop :=
  ∃ pinned, handle.pin = some pinned ∧ pinAlive pool pinned = true

variable (config nowMs) {handle : VpnManagerHandle}

/-- **Without a live pin the cycle ends with a selection.** -/
theorem rotateAndSelect_eq (h : ¬LivePin handle pool) : ∃ pool', pool'.view = pool.view ∧
      rotateAndSelect config nowMs handle pool = (selectFor config nowMs pool').2 := by
  obtain ⟨pool₁, hpo₁⟩ : ∃ pool₁, pool₁ =
      if handle.manualRotationRequested then manualRotation nowMs pool else pool := ⟨_, rfl⟩
  have hv : pool₁.view = pool.view := by
    rw [hpo₁]
    split_ifs
    · exact view_manualRotation pool
    · rfl
  have hpi : applyPin nowMs handle.pin pool₁ = (false, pool₁) := by
    unfold applyPin
    cases hp : handle.pin with
    | none => rfl
    | some pinned =>
      have hd : pinAlive pool₁ pinned = false := by
        rw [pinAlive_congr hv, Bool.eq_false_iff]
        exact fun ha => h ⟨pinned, hp, ha⟩
      simp [hd]
  refine ⟨(maybePlannedRotate config nowMs pool₁).2, ?_, ?_⟩
  · rw [view_maybePlannedRotate, hv]
  · unfold rotateAndSelect
    simp [← hpo₁, hpi]

theorem active_rotateAndSelect (h : ¬LivePin handle pool) :
    (rotateAndSelect config nowMs handle pool).active =
      (ranked config nowMs pool).head?.map (·.id) := by
  obtain ⟨pool', hv, heq⟩ := rotateAndSelect_eq config nowMs h
  rw [heq, active_selectFor, ranked_congr hv]

theorem view_rotateAndSelect (h : ¬LivePin handle pool) :
    Pool.view (rotateAndSelect config nowMs handle pool) = pool.view := by
  obtain ⟨pool', hv, heq⟩ := rotateAndSelect_eq config nowMs h
  rw [heq, view_selectFor, hv]

theorem profile?_of_mem {pool' : Pool} (hd : pool.ids.Nodup) (hv : pool'.view = pool.view)
    {p : PooledProfile Tracking} (hp : p ∈ pool.profiles) :
    (profile? pool' p.profile.profileId).map (·.profile) = some p.profile := by
  have hm : p.view ∈ pool'.view := hv ▸ List.mem_map_of_mem hp
  obtain ⟨p', hp', hp'view⟩ := List.mem_map.1 hm
  have hpr : p'.profile = p.profile := congrArg (·.profile) hp'view
  have hd' : pool'.ids.Nodup := by rwa [ids_eq_view, hv, ← ids_eq_view]
  obtain ⟨q, hq⟩ : ∃ q, profile? pool' p.profile.profileId = some q :=
    Option.isSome_iff_exists.1 (List.find?_isSome.2 ⟨p', hp', by simp [hpr]⟩)
  have hqi : q.profile.profileId = p'.profile.profileId := by
    rw [hpr]
    simpa using List.find?_some hq
  have heq : q = p' := List.inj_on_of_nodup_map hd' (List.mem_of_find?_eq_some hq) hp' hqi
  rw [hq, heq, Option.map_some, hpr]

/-- **The consumer gets a profile exactly when there is one to get:** one whose weight is not zero.
-/
theorem applied_selectionCycle (handle : VpnManagerHandle) (s : PoolState)
    (hpin : ¬LivePin handle s.pool) :
    ((selectionCycle config nowMs handle s.pool).applied = none ↔
      ∀ p ∈ s.pool.profiles, weight config nowMs p = 0) ∧
    ∀ profile, (selectionCycle config nowMs handle s.pool).applied = some profile →
      ∃ p ∈ s.pool.profiles, p.profile = profile ∧ weight config nowMs p ≠ 0 := by
  have hac := active_rotateAndSelect config nowMs hpin
  have hv := view_rotateAndSelect config nowMs hpin
  show (Option.map _ (Option.bind _ _) = none ↔ _) ∧
    ∀ profile, Option.map _ (Option.bind _ _) = _ → _
  rw [hac, ← head?_ranked_eq_none]
  cases hb : (ranked config nowMs s.pool).head? with
  | none =>
    constructor
    · exact ⟨fun _ => rfl, fun _ => rfl⟩
    · intro profile h
      cases h
  | some best =>
    obtain ⟨⟨p, hp, hc⟩, -⟩ := head?_ranked hb
    obtain ⟨hw, hid, -⟩ := candidate?_eq_some hc
    have ha := profile?_of_mem s.distinct hv hp
    rw [Option.map_some, Option.bind_some, hid, ha]
    constructor
    · exact iff_of_false (Option.some_ne_none _) (Option.some_ne_none _)
    · rintro profile ⟨⟩
      exact ⟨p, hp, rfl, hw⟩

def twoFresh : PoolState where
  pool :=
    { profiles := ["a", "b"].map fun id =>
        { profile :=
            { profileId := id.toList, protocol := .vless, server := id.toList, port := 443,
              transport := .tcp, security := .none, sni := none, realityPbk := none,
              realitySid := none, flow := none, uuid := "11111111".toList, fingerprint := none,
              pinnedPeerCertSha256 := none, label := id.toList, source := [], sourceTsMs := 0 }
          tracking := {} }
      active := some ['a'] }
  distinct := by decide +kernel

theorem applied_selectionCycle_twoFresh :
    (selectionCycle {} 0 {} twoFresh.pool).applied ≠ none := by
  have hw : ¬∀ p ∈ twoFresh.pool.profiles, weight {} 0 p = 0 := by decide +kernel
  have hp : ¬LivePin {} twoFresh.pool := fun ⟨_, h, _⟩ => nomatch h
  exact mt (applied_selectionCycle {} 0 {} twoFresh hp).1.1 hw

def Outranks (q p : PooledProfile Tracking) : Prop :=
  (score config nowMs p).lt (score config nowMs q) = true ∨
    score config nowMs q = score config nowMs p ∧ q.profile.profileId < p.profile.profileId
  deriving Decidable

variable {config nowMs}

theorem rank_lt_rank {p q : PooledProfile Tracking} {cp cq : Candidate}
    (hp : candidate? config nowMs p = some cp) (hq : candidate? config nowMs q = some cq) :
    cq.rank < cp.rank ↔ Outranks config nowMs q p := by
  obtain ⟨-, hpi, hps⟩ := candidate?_eq_some hp
  obtain ⟨-, hqi, hqs⟩ := candidate?_eq_some hq
  have hpn : score config nowMs p ≠ .nan := score_ne_nan p
  have hqn : score config nowMs q ≠ .nan := score_ne_nan q
  obtain ⟨v, hv⟩ := Option.ne_none_iff_exists'.1 (mt F64.value?_eq_none.1 hpn)
  obtain ⟨w, hw⟩ := Option.ne_none_iff_exists'.1 (mt F64.value?_eq_none.1 hqn)
  have heq : score config nowMs q = score config nowMs p ↔ w = v := by
    rw [← F64.value?_inj hqn, hv, hw, Option.some.injEq]
  rw [Candidate.rank, Candidate.rank, Prod.Lex.toLex_lt_toLex, hps, hqs, hv, hw, hpi, hqi,
    Outranks, heq, F64.lt, F64.partialCmp_of_value hv hw]
  simp [compare_lt_iff_lt]

theorem head?_ranked_ne_iff {cur : Text} :
    (∃ best, (ranked config nowMs pool).head? = some best ∧ best.id ≠ cur) ↔
      ∃ q ∈ pool.profiles, q.profile.profileId ≠ cur ∧ weight config nowMs q ≠ 0 ∧
        ∀ p ∈ pool.profiles, p.profile.profileId = cur → weight config nowMs p ≠ 0 →
          Outranks config nowMs q p := by
  have hs : ∀ p, weight config nowMs p ≠ 0 → ∃ c, candidate? config nowMs p = some c :=
    fun p hw => Option.ne_none_iff_exists'.1 (mt candidate?_eq_none.1 hw)
  constructor
  · rintro ⟨best, hh, hne⟩
    obtain ⟨⟨q, hq, hcq⟩, hb⟩ := head?_ranked hh
    obtain ⟨hwq, hid, -⟩ := candidate?_eq_some hcq
    refine ⟨q, hq, hid ▸ hne, hwq, fun p hp hpi hwp => ?_⟩
    obtain ⟨cp, hcp⟩ := hs p hwp
    have hi : cp.id = cur := (candidate?_eq_some hcp).2.1.trans hpi
    refine (rank_lt_rank hcp hcq).1 (lt_of_le_of_ne (hb p hp cp hcp) fun heq => hne ?_)
    -- one place in the ranking is one id
    rw [← hi]
    exact congrArg (fun r => (ofLex r).2) heq
  · rintro ⟨q, hq, hqi, hwq, ho⟩
    obtain ⟨cq, hcq⟩ := hs q hwq
    cases hh : (ranked config nowMs pool).head? with
    | none => exact absurd (head?_ranked_eq_none.1 hh q hq) hwq
    | some best =>
      refine ⟨best, rfl, fun hid => ?_⟩
      obtain ⟨⟨p, hp, hcp⟩, hb⟩ := head?_ranked hh
      obtain ⟨hwp, hi, -⟩ := candidate?_eq_some hcp
      have hlt := (rank_lt_rank hcp hcq).2 (ho p hp (hi.symm.trans hid) hwp)
      exact absurd hlt (hb q hq cq hcq).not_gt

/-- **A manual rotation takes effect exactly when the ranking agrees:** when an eligible profile
outranks the active id. -/
theorem rotated_selectionCycle_iff {pool : Pool} {cur : Text} (hcur : pool.active = some cur) :
    (∃ next, (selectionCycle config nowMs ⟨true, none⟩ pool).pool.active = some next ∧
        some next ≠ pool.active) ↔
      ∃ q ∈ pool.profiles, q.profile.profileId ≠ cur ∧ weight config nowMs q ≠ 0 ∧
        ∀ p ∈ pool.profiles, p.profile.profileId = cur → weight config nowMs p ≠ 0 →
          Outranks config nowMs q p := by
  have hp : ¬LivePin ⟨true, none⟩ pool := fun ⟨_, h, _⟩ => nomatch h
  have ha : (selectionCycle config nowMs ⟨true, none⟩ pool).pool.active =
      (ranked config nowMs pool).head?.map (·.id) := active_rotateAndSelect config nowMs hp
  rw [ha, ← head?_ranked_ne_iff, hcur]
  simp

theorem rotated_selectionCycle_twoFresh :
    ∃ next, (selectionCycle {} 0 ⟨true, none⟩
      { twoFresh.pool with active := some ['b'] }).pool.active = some next ∧
      some next ≠ some ['b'] :=
  (rotated_selectionCycle_iff rfl).2 (by decide +kernel)

/-- The rotation goes to `b`, the selection back to `a` of the same score and a smaller id. -/
theorem manual_rotation_twoFresh :
    twoFresh.pool.active = some ['a'] ∧
      (∃ p ∈ twoFresh.pool.profiles, p.profile.profileId ≠ ['a'] ∧ weight {} 0 p ≠ 0) ∧
      (selectionCycle {} 0 ⟨true, none⟩ twoFresh.pool).pool.active = some ['a'] := by
  decide +kernel

end BalanSir.Vpn
