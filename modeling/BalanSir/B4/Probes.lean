/-
# The probes of discovery

What a `discover` call probes and selects, by the record before it, and what that means along a run
of calls: for the answers, for the times between probes, and for the sets in the engine.
-/

import BalanSir.B4.Discovery

namespace BalanSir.B4

open List

open Lib (Table Text F64 run Along results)

inductive DiscoveryCall where
  | observeBlocked (domain : Text)
  | discover (domain : Text) (now : ℤ) (quality : F64)

namespace B4Discovery

variable {ρ : Type}

def call : DiscoveryCall → B4Discovery ρ → B4Discovery ρ
  | .observeBlocked domain, d => d.observeBlocked domain
  | .discover domain now quality, d => (d.discover domain now quality).2

def stateOf (d : B4Discovery ρ) (domain : Text) : DomainDiscoveryState :=
  (d.store.lookup domain).getD (.new domain (d.candidateSets.map (·.name)))

theorem activeFor_eq (d : B4Discovery ρ) (domain : Text) :
    d.activeFor domain = (d.stateOf domain).active := by
  unfold activeFor stateOf
  cases d.store.lookup domain with
  | none => rfl
  | some state => rfl

def searches (d : B4Discovery ρ) (domain : Text) (now : ℤ) : Bool :=
  !(d.stateOf domain).fresh d.config.ttlMs now &&
    (d.stateOf domain).candidates.countP (fun c => c.status = .measured) <
      d.config.maxCandidatesPerDomain

def probed (d : B4Discovery ρ) (domain : Text) (now : ℤ) : Option ℕ :=
  if d.searches domain now && d.activeTrials < d.config.maxConcurrentTrials then
    (d.stateOf domain).nextCandidate d.config.ttlMs now
  else none

def stuck (d : B4Discovery ρ) (domain : Text) (now : ℤ) : Bool :=
  d.searches domain now && (d.stateOf domain).nextCandidate d.config.ttlMs now = none

/-- What `observe_blocked` changes is not what a trial reads. -/
theorem observeBlocked_eq (d : B4Discovery ρ) (domain : Text) :
    ∃ observedBlocked lastEvent, d.observeBlocked domain = { d with
      store := d.store.insert domain
        { d.stateOf domain with observedBlocked, lastEvent } } := by
  unfold observeBlocked
  dsimp only
  split_ifs
  · exact ⟨_, _, rfl⟩
  · exact ⟨_, _, rfl⟩

theorem stateOf_insert {d : B4Discovery ρ} {domain : Text} {state : DomainDiscoveryState}
    (other : Text) :
    ({ d with store := d.store.insert domain state } : B4Discovery ρ).stateOf other =
      if other = domain then state else d.stateOf other := by
  unfold stateOf
  split_ifs with h
  · rw [h, AList.lookup_insert]
    rfl
  · rw [AList.lookup_insert_ne h]

theorem exists_tracked (d : B4Discovery ρ) (domain : Text) :
    ∃ store, (if (d.store.lookup domain).isSome then d else d.observeBlocked domain) =
        { d with store } ∧ store.lookup domain = some (d.stateOf domain) ∧
      ∀ other, ({ d with store } : B4Discovery ρ).stateOf other = d.stateOf other := by
  cases h : d.store.lookup domain with
  | some state => exact ⟨d.store, rfl, by rw [stateOf, h]; rfl, fun _ => rfl⟩
  | none =>
    have hs : d.stateOf domain = .new domain (d.candidateSets.map (·.name)) := by
      rw [stateOf, h]
      rfl
    have ho : d.observeBlocked domain =
        { d with store := d.store.insert domain (d.stateOf domain) } := by
      rw [hs]
      unfold observeBlocked
      rw [h]
      rfl
    refine ⟨d.store.insert domain (d.stateOf domain), ho, AList.lookup_insert _,
      fun other => ?_⟩
    rw [stateOf_insert]
    split_ifs with he
    · rw [he]
    · rfl

theorem discover_eq (d : B4Discovery ρ) (domain : Text) (now : ℤ) (quality : F64) :
    ∃ store, (∀ other, ({ d with store } : B4Discovery ρ).stateOf other = d.stateOf other) ∧
      d.discover domain now quality =
        match d.probed domain now with
        | some index =>
          let (selected, state) := (d.stateOf domain).trial d.config index now quality
          (selected, { d with store := store.insert domain state })
        | none =>
          (if d.stuck domain now then none else (d.stateOf domain).active, { d with store }) := by
  obtain ⟨store, htr, hl, hs⟩ := exists_tracked d domain
  refine ⟨store, hs, ?_⟩
  unfold discover probed stuck searches
  rw [htr]
  dsimp only
  rw [hl]
  dsimp only
  by_cases hf : (d.stateOf domain).fresh d.config.ttlMs now
  · simp [hf]
  by_cases hc : d.config.maxCandidatesPerDomain ≤
      (d.stateOf domain).candidates.countP fun c => c.status = .measured
  · simp [not_lt.2 hc]
  cases hn : (d.stateOf domain).nextCandidate d.config.ttlMs now with
  | none => simp [hf, hc]
  | some index =>
    by_cases ht : d.config.maxConcurrentTrials ≤ d.activeTrials
    · simp [not_lt.2 ht]
    · simp [hf, hc, not_le.1 hc, not_le.1 ht]

variable {d : B4Discovery ρ} {domain : Text} {now : ℤ}

theorem discover_of_none (h : d.probed domain now = none) (quality : F64) :
    (d.discover domain now quality).1 =
        (if d.stuck domain now then none else (d.stateOf domain).active) ∧
      ∀ other, (d.discover domain now quality).2.stateOf other = d.stateOf other := by
  obtain ⟨store, hs, heq⟩ := d.discover_eq domain now quality
  rw [heq, h]
  exact ⟨rfl, hs⟩

theorem discover_of_some {index : ℕ} (h : d.probed domain now = some index) (quality : F64) :
    (d.discover domain now quality).1 = ((d.stateOf domain).trial d.config index now quality).1 ∧
      ∀ other, (d.discover domain now quality).2.stateOf other =
        if other = domain then ((d.stateOf domain).trial d.config index now quality).2
        else d.stateOf other := by
  obtain ⟨store, hs, heq⟩ := d.discover_eq domain now quality
  rw [heq, h]
  refine ⟨rfl, fun other => ?_⟩
  rw [← hs other]
  exact stateOf_insert (d := { d with store }) other

end B4Discovery

namespace DomainDiscoveryState

def TriedWell (candidates : List CandidateState) (name : Text) : Prop :=
  ∃ (i : ℕ) (c : CandidateState), candidates[i]? = some c ∧ c.name = name ∧ c.status = .measured ∧
    c.quality.lt (F64.ofRat (1 / 2)) = false

def Proven (state : DomainDiscoveryState) : Prop :=
  ∀ name, state.active = some name → TriedWell state.candidates name

variable {state : DomainDiscoveryState} {c : CandidateState} {index : ℕ} (config : DiscoveryConfig)
  (now : ℤ) (quality : F64)

theorem candidates_trial (hc : state.candidates[index]? = some c) :
    ∃ reason, (state.trial config index now quality).2.candidates =
      state.candidates.set index ⟨c.name, .measured, quality, reason, config.trialEnd now⟩ := by
  have hlt := (List.getElem?_eq_some_iff.1 hc).1
  unfold trial measure
  dsimp only
  split_ifs
  · refine ⟨some "connectivity probe failed".toList, ?_⟩
    simp [modify_eq_set_getElem?, hc, getElem?_set_self hlt]
  · refine ⟨c.rejectedReason, ?_⟩
    simp [modify_eq_set_getElem?, hc]
  · refine ⟨c.rejectedReason, ?_⟩
    simp [modify_eq_set_getElem?, hc]

theorem trial_fst : (state.trial config index now quality).1 =
    (state.trial config index now quality).2.active := by
  unfold trial
  dsimp only
  split_ifs <;> rfl

theorem triedWell_set {candidates : List CandidateState} {c : CandidateState} (c' : CandidateState)
    (hno : (candidates.map (·.name)).Nodup) (hc : candidates[index]? = some c)
    (hn : c'.name = c.name) (hst : c'.status = .measured) (name : Text) :
    TriedWell (candidates.set index c') name ↔
      if name = c.name then c'.quality.lt (F64.ofRat (1 / 2)) = false
      else TriedWell candidates name := by
  have hlt := (List.getElem?_eq_some_iff.1 hc).1
  have hs : (candidates.set index c')[index]? = some c' := getElem?_set_self hlt
  have ho : ∀ i, i ≠ index → (candidates.set index c')[i]? = candidates[i]? :=
    fun i hi => getElem?_set_ne (Ne.symm hi)
  split_ifs with hsa
  · subst hsa
    refine ⟨?_, fun hq => ⟨index, c', hs, hn, hst, hq⟩⟩
    rintro ⟨i, found, hf, hfn, -, hq⟩
    by_cases hi : i = index
    · rw [hi, hs] at hf
      cases hf
      exact hq
    · rw [ho i hi] at hf
      refine absurd ?_ hi
      refine (getElem?_inj (by simpa using (List.getElem?_eq_some_iff.1 hf).1) hno).1 ?_
      rw [getElem?_map, getElem?_map, hf, hc, Option.map_some, Option.map_some, hfn]
  · constructor
    · rintro ⟨i, found, hf, hfn, hr⟩
      have hi : i ≠ index := by
        rintro rfl
        rw [hs] at hf
        cases hf
        exact hsa (hfn.symm.trans hn)
      exact ⟨i, found, (ho i hi).symm.trans hf, hfn, hr⟩
    · rintro ⟨i, found, hf, hfn, hr⟩
      have hi : i ≠ index := by
        rintro rfl
        rw [hc] at hf
        cases hf
        exact hsa hfn.symm
      exact ⟨i, found, (ho i hi).trans hf, hfn, hr⟩

/-- The probe works, and well enough to replace what is selected. -/
def Wins (state : DomainDiscoveryState) (config : DiscoveryConfig) (index : ℕ) (now : ℤ)
    (quality : F64) : Prop :=
  quality.lt (F64.ofRat (1 / 2)) = false ∧
    (state.measure config index now quality).shouldSelect config.betterThresholdPct quality = true

theorem active_trial_of_wins (hc : state.candidates[index]? = some c)
    (h : state.Wins config index now quality) :
    (state.trial config index now quality).2.active = some c.name := by
  unfold trial
  rw [if_neg (by rw [h.1]; exact Bool.false_ne_true), if_pos h.2, hc]
  rfl

theorem active_trial_of_not_wins (h : ¬state.Wins config index now quality) :
    (state.trial config index now quality).2.active = state.active := by
  unfold trial
  dsimp only
  split_ifs with hq hs
  · rfl
  · exact absurd ⟨eq_false_of_ne_true hq, hs⟩ h
  · rfl

theorem active_trial (hc : state.candidates[index]? = some c) :
    (state.trial config index now quality).2.active = state.active ∨
      quality.lt (F64.ofRat (1 / 2)) = false ∧
        (state.trial config index now quality).2.active = some c.name := by
  by_cases h : state.Wins config index now quality
  · exact .inr ⟨h.1, active_trial_of_wins config now quality hc h⟩
  · exact .inl (active_trial_of_not_wins config now quality h)

theorem proven_trial (hno : (state.candidates.map (·.name)).Nodup)
    (hc : state.candidates[index]? = some c) (hp : state.Proven) :
    (state.trial config index now quality).2.Proven ↔
      ¬(quality.lt (F64.ofRat (1 / 2)) ∧ state.active = some c.name) := by
  obtain ⟨reason, hca⟩ := candidates_trial config now quality hc
  have ha := active_trial config now quality hc
  unfold Proven at hp ⊢
  rw [hca]
  simp only [triedWell_set ⟨c.name, .measured, quality, reason, _⟩ hno hc rfl rfl]
  constructor
  · rintro h ⟨hr, hso⟩
    rcases ha with hac | ⟨hg, -⟩
    · have := h c.name (hac.trans hso)
      rw [if_pos rfl] at this
      exact absurd hr (by rw [this]; exact Bool.false_ne_true)
    · exact absurd hr (by rw [hg]; exact Bool.false_ne_true)
  · intro h name hn
    split_ifs with hs
    · subst hs
      rcases ha with hac | ⟨hg, -⟩
      · exact Bool.eq_false_iff.2 fun hr => h ⟨hr, hac ▸ hn⟩
      · exact hg
    · rcases ha with hac | ⟨-, hac⟩
      · exact hp name (hac ▸ hn)
      · exact absurd (Option.some.inj (hac ▸ hn)).symm hs

end DomainDiscoveryState

namespace B4Discovery

variable {ρ : Type} {d : B4Discovery ρ} {domain : Text} {now : ℤ}

theorem lt_of_probed {index : ℕ} (h : d.probed domain now = some index) :
    ∃ c, (d.stateOf domain).candidates[index]? = some c ∧ (c.status = .untried ∨
      c.status = .measured ∧ d.config.ttlMs < saturatingSub now c.trialEndsMs) := by
  unfold probed at h
  split_ifs at h
  rcases Option.or_eq_some_iff.1 h with h | ⟨-, h⟩
  · obtain ⟨hlt, hp, -⟩ := List.findIdx?_eq_some_iff_getElem.1 h
    exact ⟨_, getElem?_eq_getElem hlt, .inl (of_decide_eq_true hp)⟩
  · obtain ⟨hlt, hp, -⟩ := List.findIdx?_eq_some_iff_getElem.1 h
    rw [Bool.and_eq_true, decide_eq_true_eq, decide_eq_true_eq] at hp
    exact ⟨_, getElem?_eq_getElem hlt, .inr hp⟩

def Fixed (d : B4Discovery ρ) : Prop :=
  ∀ domain, (d.stateOf domain).candidates.map (·.name) =
    ["mss".toList, "pastseq".toList, "combo".toList, "combo+quic".toList]

theorem names_nodup :
    ["mss".toList, "pastseq".toList, "combo".toList, "combo+quic".toList].Nodup := by decide

theorem stateOf_observeBlocked (d : B4Discovery ρ) (domain other : Text) :
    ((d.observeBlocked domain).stateOf other).active = (d.stateOf other).active ∧
      ((d.observeBlocked domain).stateOf other).candidates = (d.stateOf other).candidates := by
  obtain ⟨_, _, ho⟩ := d.observeBlocked_eq domain
  rw [ho, stateOf_insert]
  split_ifs with h
  · rw [h]
    exact ⟨rfl, rfl⟩
  · exact ⟨rfl, rfl⟩

variable {op : DiscoveryCall}

/-- **What a call does to the record of a domain:** a probe is a trial of a candidate, and any
other call leaves the selection and the candidates. -/
theorem stateOf_call (d : B4Discovery ρ) (op : DiscoveryCall) (domain : Text) :
    (∃ now quality index c, op = .discover domain now quality ∧
        d.probed domain now = some index ∧ (d.stateOf domain).candidates[index]? = some c ∧
        (d.call op).stateOf domain = ((d.stateOf domain).trial d.config index now quality).2) ∨
      ((d.call op).stateOf domain).active = (d.stateOf domain).active ∧
        ((d.call op).stateOf domain).candidates = (d.stateOf domain).candidates := by
  cases op with
  | observeBlocked other => exact .inr (d.stateOf_observeBlocked other domain)
  | discover other now quality =>
    rw [call]
    cases hp : d.probed other now with
    | none =>
      rw [(discover_of_none hp quality).2]
      exact .inr ⟨rfl, rfl⟩
    | some index =>
      rw [(discover_of_some hp quality).2]
      split_ifs with he
      · subst he
        obtain ⟨c, hc, -⟩ := lt_of_probed hp
        exact .inl ⟨now, quality, index, c, rfl, hp, hc, rfl⟩
      · exact .inr ⟨rfl, rfl⟩

theorem Fixed.call (h : d.Fixed) : (d.call op).Fixed := by
  intro domain
  rw [← h domain]
  rcases d.stateOf_call op domain with ⟨now, quality, index, c, -, -, hc, hs⟩ | ⟨-, hs⟩
  · obtain ⟨reason, hca⟩ := DomainDiscoveryState.candidates_trial d.config now quality hc
    obtain ⟨hlt, hg⟩ := List.getElem?_eq_some_iff.1 hc
    have hn : c.name = ((d.stateOf domain).candidates.map (·.name)).get ⟨index, by simpa⟩ := by
      simp [hg]
    rw [hs, hca, map_set]
    rw [hn]
    exact set_getElem_self _
  · rw [hs]

def Consistent : DiscoveryCall → B4Discovery ρ → Prop
  | .observeBlocked _, _ => True
  | .discover domain now quality, d =>
    (d.discover domain now quality).1 = (d.discover domain now quality).2.activeFor domain ∧
      ((d.discover domain now quality).2.stateOf domain).Proven

def Settled : DiscoveryCall → B4Discovery ρ → Prop
  | .observeBlocked _, _ => True
  | .discover domain now quality, d =>
    ¬(d.stuck domain now = true ∧ d.activeFor domain ≠ none) ∧
      ∀ index c, d.probed domain now = some index →
        (d.stateOf domain).candidates[index]? = some c →
        ¬(quality.lt (F64.ofRat (1 / 2)) = true ∧ d.activeFor domain = some c.name)

theorem consistent_iff_settled (hf : d.Fixed) (hpr : ∀ domain, (d.stateOf domain).Proven) :
    Consistent op d ↔ Settled op d := by
  cases op with
  | observeBlocked domain => exact Iff.rfl
  | discover domain now quality =>
    unfold Consistent Settled
    simp only [activeFor_eq]
    cases hp : d.probed domain now with
    | none =>
      obtain ⟨hr, hst⟩ := discover_of_none hp quality
      rw [hr, hst, and_iff_left (hpr domain), and_iff_left (by rintro _ _ ⟨⟩)]
      split_ifs with hs
      · exact ⟨fun he h => h.2 he.symm, fun h => (not_not.1 fun hne => h ⟨hs, hne⟩).symm⟩
      · exact iff_of_true rfl fun h => hs h.1
    | some index =>
      obtain ⟨hr, hst⟩ := discover_of_some hp quality
      obtain ⟨c, hc, -⟩ := lt_of_probed hp
      have hn : ((d.stateOf domain).candidates.map (·.name)).Nodup := by
        rw [hf domain]
        exact names_nodup
      have hs : ¬(d.stuck domain now = true ∧ (d.stateOf domain).active ≠ none) := by
        rintro ⟨h, -⟩
        rw [stuck, Bool.and_eq_true, decide_eq_true_eq] at h
        unfold probed at hp
        split_ifs at hp
        rw [h.2] at hp
        cases hp
      rw [hr, hst, if_pos rfl, DomainDiscoveryState.trial_fst, and_iff_right rfl, and_iff_right hs,
        DomainDiscoveryState.proven_trial d.config now quality hn hc (hpr domain)]
      constructor
      · rintro h _ _ ⟨⟩ hc'
        rw [hc] at hc'
        cases hc'
        exact h
      · exact fun h => h index c rfl hc

theorem proven_call (h : ∀ domain, (d.stateOf domain).Proven) (hc : Consistent op d)
    (domain : Text) : ((d.call op).stateOf domain).Proven := by
  rcases d.stateOf_call op domain with ⟨now, quality, index, c, rfl, -⟩ | ⟨ha, hs⟩
  · exact hc.2
  · unfold DomainDiscoveryState.Proven
    rw [ha, hs]
    exact h domain

/-- **When discovery answers for its selection.** Every `discover` returns what is active, not
rejected when last probed, exactly when no call finds nothing to try while a candidate is active,
and none rejects the active one. -/
theorem consistent_iff [Inhabited ρ] (calls : List DiscoveryCall) :
    Along call Consistent calls (new : B4Discovery ρ) ↔
      Along call Settled calls (new : B4Discovery ρ) :=
  Lib.along_congr (I := fun d : B4Discovery ρ => d.Fixed ∧ ∀ domain, (d.stateOf domain).Proven)
    (fun _ _ _ hd => consistent_iff_settled hd.1 hd.2)
    (fun _ _ _ hd hc => ⟨hd.1.call, proven_call hd.2 hc⟩) ⟨fun _ => rfl, fun _ => nofun⟩

/-- The next call finds nothing to try, and one after it rejects the selection, which stays. -/
theorem rejected_stays_active : let later : DiscoveryCall := .discover "a".toList 86400000 0
    let d : B4Discovery Unit := run call [.discover "a".toList 0 1, later, later, later] new
    let d' := (d.discover "a".toList 86445001 0).2
    (d.discover "a".toList 86400000 0).1 = none ∧ d.activeFor "a".toList = some "mss".toList ∧
      d'.activeFor "a".toList = some "mss".toList ∧
      (d'.stateOf "a".toList).candidates.head?.map (·.quality) = some 0 := by decide +kernel

structure Probe where
  domain : Text
  candidate : ℕ
  time : ℤ
  deriving DecidableEq

def probe : DiscoveryCall → B4Discovery ρ → Option Probe
  | .observeBlocked _, _ => none
  | .discover domain now _, d => (d.probed domain now).map fun i => ⟨domain, i, now⟩

def probes : List DiscoveryCall → B4Discovery ρ → List Probe := results call probe

def InTime : DiscoveryCall → Prop
  | .observeBlocked _ => True
  | .discover _ now _ => -9223372036854775808 ≤ now ∧ now + 45000 ≤ 9223372036854775807

theorem trialEnd_default {now : ℤ} (h : -9223372036854775808 ≤ now)
    (h' : now + 45000 ≤ 9223372036854775807) :
    DiscoveryConfig.default.trialEnd now = now + 45000 := by
  have hw :
      wrapI64 (wrapI64 DiscoveryConfig.default.trialWindowSecs.toNat * 1000) = 45000 := by
    decide
  rw [DiscoveryConfig.trialEnd, hw]
  exact Int.bmod_eq_of_le (by omega) (by omega)

theorem ttlMs_default : DiscoveryConfig.default.ttlMs = 86400000 := by decide

def Tried (domain : Text) (candidate : ℕ) (ends : ℤ) (d : B4Discovery ρ) : Prop :=
  d.config = .default ∧ ∃ c, (d.stateOf domain).candidates[candidate]? = some c ∧
    c.status = .measured ∧ ends ≤ c.trialEndsMs

variable {candidate : ℕ} {ends : ℤ}

theorem Tried.lt_of_probed (h : Tried domain candidate ends d)
    (hp : d.probed domain now = some candidate) : ends + 86400000 < now := by
  obtain ⟨hco, c, hc, hs, he⟩ := h
  obtain ⟨c', hc', hca⟩ := B4Discovery.lt_of_probed hp
  rw [hc] at hc'
  cases hc'
  rcases hca with hu | ⟨-, hl⟩
  · rw [hs] at hu
    cases hu
  · rw [hco, ttlMs_default, saturatingSub] at hl
    omega

theorem config_call (op : DiscoveryCall) (d : B4Discovery ρ) : (d.call op).config = d.config := by
  cases op with
  | observeBlocked domain => rfl
  | discover domain now quality =>
    obtain ⟨store, hs⟩ := d.discover_store domain now quality
    rw [call, hs]

theorem tried_of_probed (hco : d.config = .default) (quality : F64)
    (hp : d.probed domain now = some candidate) (ht : InTime (.discover domain now quality)) :
    Tried domain candidate (now + 45000) (d.call (.discover domain now quality)) := by
  obtain ⟨c, hc, -⟩ := B4Discovery.lt_of_probed hp
  obtain ⟨reason, hca⟩ := DomainDiscoveryState.candidates_trial d.config now quality hc
  refine ⟨(config_call _ d).trans hco, ?_⟩
  rw [call, (discover_of_some hp quality).2, if_pos rfl, hca]
  refine ⟨_, getElem?_set_self (List.getElem?_eq_some_iff.1 hc).1, rfl, ?_⟩
  rw [hco, trialEnd_default ht.1 ht.2]

theorem Tried.call (h : Tried domain candidate ends d) (op : DiscoveryCall)
    (ht : InTime op) : Tried domain candidate ends (d.call op) := by
  obtain ⟨hco, c, hc, hm, hen⟩ := id h
  rcases d.stateOf_call op domain with ⟨now, quality, index, c', rfl, hp, hc', hs⟩ | ⟨-, hs⟩
  · by_cases hi : index = candidate
    · subst hi
      have hl := h.lt_of_probed hp
      obtain ⟨hco', c', hc', hm', hen'⟩ := tried_of_probed hco quality hp ht
      exact ⟨hco', c', hc', hm', by omega⟩
    · obtain ⟨reason, hca⟩ := DomainDiscoveryState.candidates_trial d.config now quality hc'
      refine ⟨(config_call _ d).trans hco, c, ?_, hm, hen⟩
      rw [hs, hca, getElem?_set_ne hi, hc]
  · exact ⟨(config_call _ d).trans hco, c, by rw [hs, hc], hm, hen⟩

variable {ops : List DiscoveryCall}

theorem Tried.later (h : Tried domain candidate ends d) (ht : ∀ op ∈ ops, InTime op) :
    ∀ p ∈ probes ops d, p.domain = domain →
      p.candidate = candidate → ends + 86400000 < p.time := by
  refine Lib.forall_results
    (fun op hop d hd => hd.call op (ht op hop)) (fun op _ d hd p hp => ?_) h
  cases op with
  | observeBlocked other => cases hp
  | discover other now quality =>
    obtain ⟨index, hpr, rfl⟩ := Option.map_eq_some_iff.1 hp
    rintro rfl rfl
    exact hd.lt_of_probed hpr

theorem pairwise_probes (hc : d.config = .default) (ht : ∀ op ∈ ops, InTime op) :
    (probes ops d).Pairwise fun p p' => p.domain = p'.domain → p.candidate = p'.candidate →
      p.time + (86400000 + 45000) < p'.time := by
  induction ops generalizing d with
  | nil => exact List.Pairwise.nil
  | cons op ops ih =>
    rw [forall_mem_cons] at ht
    have ih := ih ((config_call op d).trans hc) ht.2
    rw [probes, results]
    cases hp : probe op d with
    | none => exact ih
    | some p =>
      refine List.Pairwise.cons (fun p' hp' hd hca => ?_) ih
      cases op with
      | observeBlocked other => cases hp
      | discover other now quality =>
        obtain ⟨index, hpr, rfl⟩ := Option.map_eq_some_iff.1 hp
        have hl := (tried_of_probed hc quality hpr ht.1).later ht.2 p' hp'
          hd.symm hca.symm
        dsimp only
        omega

theorem candidate_lt (hf : d.Fixed) : ∀ p ∈ probes ops d, p.candidate < 4 := by
  refine Lib.forall_results (fun op _ d hd => hd.call) (fun op _ d hd p hp => ?_) hf
  cases op with
  | observeBlocked other => cases hp
  | discover other now quality =>
    obtain ⟨index, hpr, rfl⟩ := Option.map_eq_some_iff.1 hp
    obtain ⟨c, hc, -⟩ := B4Discovery.lt_of_probed hpr
    have hl := congrArg List.length (hd other)
    rw [length_map] at hl
    exact (List.getElem?_eq_some_iff.1 hc).1.trans_eq hl

/-- **The probes are spread out.** Two probes of a candidate are more than the time a strategy is
fresh for and the trial window apart, and within the former a domain has at most one probe per
candidate, while the end of a trial is an `i64`. -/
theorem probes_apart [Inhabited ρ] (calls : List DiscoveryCall) (ht : ∀ op ∈ calls, InTime op) :
    (probes calls (new : B4Discovery ρ)).Pairwise (fun p p' => p.domain = p'.domain →
      p.candidate = p'.candidate → p.time + (86400000 + 45000) < p'.time) ∧
    ∀ domain start, ((probes calls (new : B4Discovery ρ)).filter fun p =>
        p.domain = domain ∧ start ≤ p.time ∧ p.time ≤ start + 86400000).length ≤
      (buildCandidateSets : List (StrategySet ρ)).length := by
  have ha : (probes calls (new : B4Discovery ρ)).Pairwise _ := pairwise_probes rfl ht
  refine ⟨ha, fun domain start => ?_⟩
  have hn : (((probes calls (new : B4Discovery ρ)).filter fun p =>
      p.domain = domain ∧ start ≤ p.time ∧ p.time ≤ start + 86400000).map (·.candidate)).Nodup := by
    rw [List.Nodup, pairwise_map]
    refine (ha.filter _).imp_of_mem fun hp hp' hs hsa => ?_
    have hin := of_decide_eq_true (List.mem_filter.1 hp).2
    have hin' := of_decide_eq_true (List.mem_filter.1 hp').2
    have := hs (hin.1.trans hin'.1.symm) hsa
    omega
  have hsu : ((probes calls (new : B4Discovery ρ)).filter fun p =>
      p.domain = domain ∧ start ≤ p.time ∧ p.time ≤ start + 86400000).map (·.candidate) ⊆
        List.range 4 := by
    intro k hk
    obtain ⟨p, hp, rfl⟩ := List.mem_map.1 hk
    exact List.mem_range.2 (candidate_lt (fun _ => rfl) p (List.mem_filter.1 hp).1)
  have hle := (subperm_of_subset hn hsu).length_le
  rwa [length_map] at hle

/-- After four probes that fail, the first candidate is probed again when its trial has lapsed. -/
theorem probes_apart_again :
    let calls := List.replicate 4 (.discover "a".toList 0 0) ++ [.discover "a".toList 86445001 0]
    (probes calls (new : B4Discovery Unit)).map (fun p => (p.candidate, p.time)) =
        [(0, 0), (1, 0), (2, 0), (3, 0), (0, 86445001)] ∧
      (probes calls (new : B4Discovery Unit)).Pairwise (fun p p' => p.domain = p'.domain →
        p.candidate = p'.candidate → p.time + (86400000 + 45000) < p'.time) :=
  ⟨by decide +kernel, (probes_apart _ (by simp [InTime])).1⟩

/-- At the end of time the end of a trial overflows, and the candidate is probed again at once. -/
theorem probes_together : let last : DiscoveryCall := .discover "a".toList 9223372036854775807 0
    (probes [last, last, last, last, last] (new : B4Discovery Unit)).map (·.candidate) =
      [0, 1, 2, 3, 0] := by decide +kernel

/-- How a set can be the selected one for some domain after the call. -/
inductive Keeps (d : B4Discovery ρ) (call : Blocked) (name : Text) : Prop where
  | elsewhere {other : Text} (hne : other ≠ call.domain) (hsel : d.activeFor other = some name)
  /-- No probe replaces the selection. -/
  | stays (hsel : d.activeFor call.domain = some name)
      (hno : ∀ index, d.probed call.domain call.now = some index →
        ¬(d.stateOf call.domain).Wins d.config index call.now call.quality)
  /-- It is the next in turn, and wins. -/
  | chosen {index : ℕ} (hnext : d.probed call.domain call.now = some index)
      (hwin : (d.stateOf call.domain).Wins d.config index call.now call.quality)
      (hname : ((d.stateOf call.domain).candidates[index]?).map (·.name) = some name)

/-- **One call:** the candidate that wins its probe is selected for the domain, and otherwise no
selection changes. -/
theorem step_cases (d : B4Discovery ρ) (call : Blocked) :
    (∃ index c, d.probed call.domain call.now = some index ∧
        (d.stateOf call.domain).Wins d.config index call.now call.quality ∧
        (d.stateOf call.domain).candidates[index]? = some c ∧
        ∀ other, (d.step call).activeFor other =
          if other = call.domain then some c.name else d.activeFor other) ∨
      (∀ index, d.probed call.domain call.now = some index →
          ¬(d.stateOf call.domain).Wins d.config index call.now call.quality) ∧
        ∀ other, (d.step call).activeFor other = d.activeFor other := by
  obtain ⟨observedBlocked, lastEvent, ho⟩ := d.observeBlocked_eq call.domain
  have hs : ∀ other, ((d.observeBlocked call.domain).stateOf other).active = d.activeFor other :=
    fun other => ((d.stateOf_observeBlocked call.domain other).1).trans (d.activeFor_eq other).symm
  have hst : (d.observeBlocked call.domain).stateOf call.domain =
      { d.stateOf call.domain with observedBlocked, lastEvent } := by
    rw [ho, stateOf_insert, if_pos rfl]
  have hp : (d.observeBlocked call.domain).probed call.domain call.now =
      d.probed call.domain call.now := by
    unfold probed searches
    rw [hst]
    rfl
  have ha : ∀ other, (d.step call).activeFor other = _ := fun other => activeFor_eq _ other
  simp only [ha]
  unfold step blocked
  cases hn : d.probed call.domain call.now with
  | none =>
    refine .inr ⟨nofun, fun other => ?_⟩
    rw [(discover_of_none (hp.trans hn) _).2, hs]
  | some index =>
    obtain ⟨c, hc, -⟩ := lt_of_probed hn
    simp only [(discover_of_some (hp.trans hn) _).2, hst]
    by_cases hw : (d.stateOf call.domain).Wins d.config index call.now call.quality
    · refine .inl ⟨index, c, rfl, hw, hc, fun other => ?_⟩
      split_ifs
      · exact DomainDiscoveryState.active_trial_of_wins (c := c) _ _ _ hc hw
      · exact hs other
    · refine .inr ⟨fun _ he => Option.some.inj he ▸ hw, fun other => ?_⟩
      split_ifs with he
      · rw [he, activeFor_eq]
        exact DomainDiscoveryState.active_trial_of_not_wins _ _ _ hw
      · exact hs other

theorem exists_activeFor_step {call : Blocked} {name : Text} :
    (∃ other, (d.step call).activeFor other = some name) ↔ d.Keeps call name := by
  rcases d.step_cases call with ⟨index, c, hn, hw, hc, ha⟩ | ⟨hno, ha⟩ <;> simp only [ha]
  · constructor
    · rintro ⟨other, hd⟩
      split_ifs at hd with he
      · exact .chosen hn hw (by rw [hc, Option.map_some, hd])
      · exact .elsewhere he hd
    · rintro (⟨hne, hs⟩ | ⟨-, hno⟩ | ⟨hn', -, hna⟩)
      · exact ⟨_, by rw [if_neg hne, hs]⟩
      · exact absurd hw (hno index hn)
      · cases hn.symm.trans hn'
        rw [hc] at hna
        exact ⟨call.domain, by rw [if_pos rfl]; exact hna⟩
  · constructor
    · rintro ⟨other, hd⟩
      by_cases he : other = call.domain
      · exact .stays (he ▸ hd) hno
      · exact .elsewhere he hd
    · rintro (⟨-, hs⟩ | ⟨hs, -⟩ | ⟨hn, hw, -⟩)
      · exact ⟨_, hs⟩
      · exact ⟨_, hs⟩
      · exact absurd hw (hno _ hn)

end B4Discovery

variable {ρ : Type}

/-- Every enabled set of the configuration is in the engine. -/
def KeepsConfigured (config : B4Config ρ) (m : DiscoveryManager ρ) : Prop :=
  ∀ s ∈ config.allSets, s.enabled = true → ∃ sets, m.engine = some sets ∧ s ∈ sets

/-- **The engine's list after a call** holds what discovery then has selected, and nothing else. -/
theorem keepsConfigured_concat [Inhabited ρ] (config : B4Config ρ) (calls : List Blocked)
    (call : Blocked) :
    KeepsConfigured config ((DpiManager.new config).onAllBlocked (calls ++ [call])) ↔
      ∀ s ∈ config.allSets, s.enabled = true → s ∈ buildCandidateSets ∧
        (B4Discovery.after calls : B4Discovery ρ).Keeps call s.name := by
  have he : ((DpiManager.new config).onAllBlocked (calls ++ [call])).engine =
      some ((B4Discovery.after calls).step call).merged := by
    rw [DiscoveryManager.onAllBlocked_eq rfl, if_neg (by simp), Lib.run_append]
    rfl
  have hc : ((B4Discovery.after calls : B4Discovery ρ).step call).candidateSets =
      buildCandidateSets := (B4Discovery.candidateSets_blocked ..).trans
      (B4Discovery.candidateSets_after calls)
  simp only [KeepsConfigured, he, Option.some.injEq, exists_eq_left', B4Discovery.mem_merged, hc,
    B4Discovery.exists_activeFor_step]

/-- **When discovery keeps the operator's sets.** Along a run every enabled configured set is in the
engine exactly when at each call every one is a candidate and stays or becomes selected; and so
along every run only when none is enabled. -/
theorem configured_kept_iff [Inhabited ρ] (config : B4Config ρ) : (∀ calls : List Blocked,
      (∀ done rest, calls = done ++ rest →
        KeepsConfigured config ((DpiManager.new config).onAllBlocked done)) ↔
      Lib.Along B4Discovery.step (fun call (d : B4Discovery ρ) =>
        ∀ s ∈ config.allSets, s.enabled = true →
          s ∈ buildCandidateSets ∧ d.Keeps call s.name) calls .new) ∧ ((∀ calls : List Blocked,
        KeepsConfigured config ((DpiManager.new config).onAllBlocked calls)) ↔
      ∀ s ∈ config.allSets, s.enabled = false) := by
  have hn : KeepsConfigured config ((DpiManager.new config).onAllBlocked []) :=
    fun s hs _ => ⟨config.allSets, rfl, hs⟩
  refine ⟨fun calls => ?_, fun h s hs => ?_, fun h calls s hs he => ?_⟩
  · rw [Lib.along_iff_split]
    constructor
    · rintro h done call rest rfl
      exact (keepsConfigured_concat config done call).1 (h _ rest (by simp))
    · rintro h done rest rfl
      rcases List.eq_nil_or_concat done with rfl | ⟨done, call, rfl⟩
      · exact hn
      · rw [List.concat_eq_append]
        exact (keepsConfigured_concat config done call).2 (h done call rest (by simp))
  · -- a probe that fails leaves the list empty
    by_contra he
    obtain ⟨-, hk⟩ := (keepsConfigured_concat config [] ⟨[], 0, 0⟩).1 (h [⟨[], 0, 0⟩]) s hs
      (eq_true_of_ne_false he)
    rcases hk with ⟨-, hsel⟩ | ⟨hsel, -⟩ | ⟨-, hwin, -⟩
    · cases hsel
    · cases hsel
    · exact absurd hwin.1 (by decide +kernel)
  · rw [h s hs] at he
    cases he

def youtubeSet : StrategySet Unit :=
  { (comboUdpSet : StrategySet Unit) with
    engine :=
      { (comboUdpSet : StrategySet Unit).engine with
        name := "youtube".toList
        targets := ⟨[], ["youtube".toList]⟩ } }

/-- One blocked domain, for which the first candidate works, and the operator's set is gone. -/
theorem first_call_drops_configured : let config : B4Config Unit := ⟨[youtubeSet], []⟩
    let call : Blocked := ⟨"example.com".toList, 1000, 1⟩
    youtubeSet ∈ config.allSets ∧ youtubeSet.enabled = true ∧
      ¬∃ sets, ((DpiManager.new config).onAllBlocked [call]).engine = some sets ∧
        youtubeSet ∈ sets := by
  intro config call
  have he : ((DpiManager.new config).onAllBlocked [call]).engine = some [mssSet] := by
    decide +kernel
  refine ⟨by decide, rfl, fun ⟨sets, hs, hm⟩ => ?_⟩
  have heq : [mssSet] = sets := Option.some.inj (he.symm.trans hs)
  rw [← heq] at hm
  exact absurd hm (by decide)

end BalanSir.B4
