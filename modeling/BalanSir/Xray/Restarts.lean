/-
# Bounded restarts

`L2Recovery` observation by observation: grace, backoff and window.
-/

import BalanSir.Lib.Clock
import BalanSir.Xray.Health

namespace BalanSir.Xray

open Lib List Option
open Vpn (asI64)

inductive L2Op where
  | onStart (nowMs : ℤ)
  | onRestart (nowMs : ℤ)
  | observe (status : HealthStatus) (nowMs : ℤ)
  deriving DecidableEq

namespace L2Op

def time : L2Op → ℤ
  | .onStart nowMs | .onRestart nowMs | .observe _ nowMs => nowMs

def step (op : L2Op) (l2 : L2Recovery) : L2Recovery :=
  match op with
  | .onStart nowMs => l2.onStart nowMs
  | .onRestart nowMs => l2.onRestart nowMs
  | .observe status nowMs => (l2.observe status nowMs).2

def IsStart : L2Op → Prop
  | .onStart _ => True
  | .onRestart _ | .observe .. => False

def Starts : L2Op → Prop
  | .onStart _ | .onRestart _ => True
  | .observe .. => False

def Renews : L2Op → Prop
  | .onStart _ => True
  | .onRestart _ => False
  | .observe status _ => status = .healthy

instance : DecidablePred IsStart
  | .onStart _ => isTrue trivial
  | .onRestart _ | .observe .. => isFalse id

instance : DecidablePred Renews
  | .onStart _ => isTrue trivial
  | .onRestart _ => isFalse id
  | .observe status _ => inferInstanceAs (Decidable (status = .healthy))

def action? (op : L2Op) (l2 : L2Recovery) : Option L2Action :=
  match op with
  | .onStart _ | .onRestart _ => none
  | .observe status nowMs => some (l2.observe status nowMs).1

end L2Op

def l2After (cfg : L2RecoveryConfig) (ops : List L2Op) : L2Recovery :=
  run L2Op.step ops { cfg := cfg }

namespace L2Recovery

variable (l2 : L2Recovery) (status : HealthStatus) (nowMs : ℤ)

def Past : Prop :=
  asI64 l2.cfg.graceMs ≤ max (saturatingSub nowMs l2.startedMs) 0 ∧
    asI64 l2.cfg.backoffMs ≤ max (saturatingSub nowMs l2.lastRestartMs) 0
  deriving Decidable

def Elapsed : Prop := asI64 l2.cfg.windowMs ≤ saturatingSub nowMs l2.windowStartMs
  deriving Decidable

def rolled : L2Recovery :=
  if l2.Elapsed nowMs then { l2 with windowStartMs := nowMs, restartsInWindow := 0 } else l2

/-- What a bad observation behind the backoff leads to. -/
def Escalates (r : L2Action × L2Recovery) : Prop :=
  ∃ badCount, (l2.cfg.maxRestarts ≤ (l2.rolled nowMs).restartsInWindow ∧
      r = (.exhaust, { l2.rolled nowMs with badCount := badCount, exhausted := true })) ∨
    ((l2.rolled nowMs).restartsInWindow < l2.cfg.maxRestarts ∧
      r = (.restart,
        { l2.rolled nowMs with
          badCount := badCount
          restartsInWindow := (l2.rolled nowMs).restartsInWindow + 1
          lastRestartMs := nowMs }))

theorem bad_cases : (∃ badCount, l2.bad nowMs = (.grace, { l2 with badCount := badCount })) ∨
      asI64 l2.cfg.backoffMs ≤ max (saturatingSub nowMs l2.lastRestartMs) 0 ∧
        l2.Escalates nowMs (l2.bad nowMs) := by
  unfold bad Escalates
  dsimp only
  split_ifs with hb he hm hm
  · exact .inl ⟨_, rfl⟩
  · rw [rolled, if_pos (show l2.Elapsed nowMs from he)]
    exact .inr ⟨not_lt.1 hb, _, .inl ⟨hm, rfl⟩⟩
  · rw [rolled, if_pos (show l2.Elapsed nowMs from he)]
    exact .inr ⟨not_lt.1 hb, _, .inr ⟨not_le.1 hm, rfl⟩⟩
  · rw [rolled, if_neg (show ¬l2.Elapsed nowMs from he)]
    exact .inr ⟨not_lt.1 hb, _, .inl ⟨hm, rfl⟩⟩
  · rw [rolled, if_neg (show ¬l2.Elapsed nowMs from he)]
    exact .inr ⟨not_lt.1 hb, _, .inr ⟨not_le.1 hm, rfl⟩⟩

/-- **All that an observation can do.** -/
theorem observe_cases : (l2.exhausted ∧ l2.observe status nowMs = (.exhaust, l2)) ∨
    l2.exhausted = false ∧ ((status = .healthy ∧ l2.observe status nowMs =
        (.none, { l2 with badCount := 0, restartsInWindow := 0, windowStartMs := 0 })) ∨
      status ≠ .healthy ∧
        ((∃ badCount, l2.observe status nowMs = (.grace, { l2 with badCount := badCount })) ∨
        l2.Past nowMs ∧ l2.Escalates nowMs (l2.observe status nowMs))) := by
  by_cases hex : l2.exhausted
  · exact .inl ⟨hex, if_pos hex⟩
  · refine .inr ⟨Bool.not_eq_true _ ▸ hex, ?_⟩
    by_cases hh : status = .healthy
    · subst hh
      exact .inl ⟨rfl, if_neg hex⟩
    · refine .inr ⟨hh, ?_⟩
      have ho : l2.observe status nowMs =
          if max (saturatingSub nowMs l2.startedMs) 0 < asI64 l2.cfg.graceMs then (.grace, l2)
          else l2.bad nowMs := by
        rw [observe, if_neg hex]
        cases status with
        | healthy => exact absurd rfl hh
        | degraded reason => rfl
        | unhealthy reason => rfl
        | unknown => rfl
      rw [ho]
      split_ifs with hg
      · exact .inl ⟨l2.badCount, rfl⟩
      · rcases l2.bad_cases nowMs with hba | ⟨hb, hba⟩
        · exact .inl hba
        · exact .inr ⟨⟨not_lt.1 hg, hb⟩, hba⟩

theorem rolled_fields : (l2.rolled nowMs).cfg = l2.cfg ∧
    (l2.rolled nowMs).startedMs = l2.startedMs ∧
    (l2.rolled nowMs).lastRestartMs = l2.lastRestartMs ∧
    (l2.rolled nowMs).exhausted = l2.exhausted := by
  unfold rolled
  split_ifs
  · exact ⟨rfl, rfl, rfl, rfl⟩
  · exact ⟨rfl, rfl, rfl, rfl⟩

theorem observe_fields :
    (l2.observe status nowMs).2.cfg = l2.cfg ∧
    (l2.observe status nowMs).2.startedMs = l2.startedMs ∧
    ((l2.observe status nowMs).2.lastRestartMs = l2.lastRestartMs ∨
      (l2.observe status nowMs).2.lastRestartMs = nowMs) ∧ ((l2.observe status nowMs).2.exhausted ↔
      (l2.observe status nowMs).1 = .exhaust) := by
  have hr := l2.rolled_fields nowMs
  rcases l2.observe_cases status nowMs with ⟨hex, h⟩ | ⟨hex, ⟨-, h⟩ | ⟨-, ⟨badCount, h⟩ |
    ⟨-, badCount, ⟨-, h⟩ | ⟨-, h⟩⟩⟩⟩
  · rw [h]
    exact ⟨rfl, rfl, .inl rfl, iff_of_true hex rfl⟩
  · rw [h]
    exact ⟨rfl, rfl, .inl rfl, by simp [hex]⟩
  · rw [h]
    exact ⟨rfl, rfl, .inl rfl, by simp [hex]⟩
  · rw [h]
    exact ⟨hr.1, hr.2.1, .inl hr.2.2.1, by simp⟩
  · rw [h]
    exact ⟨hr.1, hr.2.1, .inr rfl, by simp [hr.2.2.2, hex]⟩

end L2Recovery

theorem le_of_le_saturatingSub {n : ℕ} {a b : ℤ} (hn : n < 2 ^ 63)
    (h : asI64 n ≤ max (saturatingSub a b) 0) : n = 0 ∨ b + n ≤ a := by
  rw [Vpn.asI64_of_lt hn, saturatingSub, i64Min] at h
  omega

variable {cfg : L2RecoveryConfig} {ops : List L2Op}

theorem cfg_step (op : L2Op) (l2 : L2Recovery) : (op.step l2).cfg = l2.cfg := by
  cases op with
  | onStart nowMs => rfl
  | onRestart nowMs => rfl
  | observe status nowMs => exact (l2.observe_fields status nowMs).1

theorem cfg_l2After (cfg : L2RecoveryConfig) (ops : List L2Op) : (l2After cfg ops).cfg = cfg :=
  Lib.run_frame (fun op _ => cfg_step op) _

theorem l2After_append (cfg : L2RecoveryConfig) (ops later : List L2Op) :
    l2After cfg (ops ++ later) = run L2Op.step later (l2After cfg ops) := run_append ops later _

variable {op : L2Op} {before between : List L2Op} {l2 : L2Recovery}

theorem after_cons {I : L2Recovery → Prop}
    (h : I (op.step (l2After cfg before))) (hst : ∀ o ∈ between, ∀ l2, I l2 → I (o.step l2)) :
    I (l2After cfg (before ++ op :: between)) := by
  have hb : Along L2Op.step (fun o _ => o ∈ between) between (op.step (l2After cfg before)) :=
    along_iff_split.2 fun pre o post heq => by simp [heq]
  have hr := hb.invariant (fun o l2 hl ho => hst o ho l2 hl) h
  rw [l2After_append]
  exact hr

theorem time_le {o : L2Op}
    (hc : Clocked (fun op => some (L2Op.time op)) (before ++ op :: between)) (ho : o ∈ between) :
    op.time ≤ o.time := by
  have hc' : Clocked (fun op => some (L2Op.time op)) ((before ++ [op]) ++ between) := by
    simpa using hc
  exact hc'.le (by simp) ho rfl rfl

theorem le_startedMs (cfg : L2RecoveryConfig) (hc : Clocked (fun op => some (L2Op.time op)) ops)
    (hop : op ∈ ops) (hs : op.Starts) : op.time ≤ (l2After cfg ops).startedMs := by
  obtain ⟨before, later, rfl⟩ := append_of_mem hop
  refine after_cons (I := fun l2 => op.time ≤ l2.startedMs) ?_ fun o ho l2 hle => ?_
  · cases op with
    | onStart nowMs => exact le_refl nowMs
    | onRestart nowMs => exact le_refl nowMs
    | observe status nowMs => exact hs.elim
  · have hf := time_le hc ho
    cases o with
    | onStart nowMs => exact hf
    | onRestart nowMs => exact hf
    | observe status nowMs =>
      show _ ≤ (l2.observe status nowMs).2.startedMs
      rw [(l2.observe_fields status nowMs).2.1]
      exact hle

theorem past_of_action
    (h : op.action? l2 = some .restart ∨ op.action? l2 = some .exhaust ∧ l2.exhausted = false) :
    l2.Past op.time := by
  cases op with
  | onStart nowMs => simp [L2Op.action?] at h
  | onRestart nowMs => simp [L2Op.action?] at h
  | observe status nowMs =>
    rcases l2.observe_cases status nowMs with ⟨hex, h'⟩ | ⟨hex, ⟨-, h'⟩ | ⟨-, ⟨badCount, h'⟩ |
      ⟨hp, -⟩⟩⟩
    · simp [L2Op.action?, h', hex] at h
    · simp [L2Op.action?, h'] at h
    · simp [L2Op.action?, h'] at h
    · exact hp

theorem le_lastRestartMs (hc : Clocked (fun op => some (L2Op.time op)) (before ++ op :: between))
    (ha : op.action? (l2After cfg before) = some .restart) (hs : ∀ o ∈ between, ¬o.IsStart) :
    op.time ≤ (l2After cfg (before ++ op :: between)).lastRestartMs := by
  refine after_cons (I := fun l2 => op.time ≤ l2.lastRestartMs) ?_ fun o ho l2 hle => ?_
  · cases op with
    | onStart nowMs => cases ha
    | onRestart nowMs => cases ha
    | observe status nowMs =>
      show nowMs ≤ ((l2After cfg before).observe status nowMs).2.lastRestartMs
      have ha' := Option.some.inj ha
      rcases (l2After cfg before).observe_cases status nowMs with ⟨-, h⟩ | ⟨-, ⟨-, h⟩ |
        ⟨-, ⟨badCount, h⟩ | ⟨-, badCount, ⟨-, h⟩ | ⟨-, h⟩⟩⟩⟩
      all_goals rw [h] at ha'
      all_goals cases ha'
      rw [h]
  · have hf := time_le hc ho
    cases o with
    | onStart nowMs => exact absurd trivial (hs _ ho)
    | onRestart nowMs => exact hf
    | observe status nowMs =>
      show _ ≤ (l2.observe status nowMs).2.lastRestartMs
      rcases (l2.observe_fields status nowMs).2.2.1 with heq | heq
      · rw [heq]
        exact hle
      · rw [heq]
        exact hf

theorem exhausted_of_action
    (ha : op.action? (l2After cfg before) = some .exhaust) (hs : ∀ o ∈ between, ¬o.IsStart) :
    (l2After cfg (before ++ op :: between)).exhausted := by
  refine after_cons (I := fun l2 => l2.exhausted = true) ?_ fun o ho l2 hex => ?_
  · cases op with
    | onStart nowMs => cases ha
    | onRestart nowMs => cases ha
    | observe status nowMs =>
      exact ((l2After cfg before).observe_fields status nowMs).2.2.2.2 (Option.some.inj ha)
  · cases o with
    | onStart nowMs => exact absurd trivial (hs _ ho)
    | onRestart nowMs => exact hex
    | observe status nowMs =>
      have hsa : l2.observe status nowMs = (.exhaust, l2) := if_pos hex
      show (l2.observe status nowMs).2.exhausted = true
      rw [hsa]
      exact hex

def ExhaustedSince (cfg : L2RecoveryConfig) (ops : List L2Op) : Prop :=
  ∃ before op between, ops = before ++ op :: between ∧
    op.action? (l2After cfg before) = some .exhaust ∧ ∀ o ∈ between, ¬o.IsStart

theorem ExhaustedSince.concat (h : ExhaustedSince cfg ops) (hop : ¬op.IsStart) :
    ExhaustedSince cfg (ops ++ [op]) := by
  obtain ⟨before, op', between, rfl, ha, hs⟩ := h
  refine ⟨before, op', between ++ [op], by simp, ha, fun o ho => ?_⟩
  rcases List.mem_append.1 ho with ho | ho
  · exact hs o ho
  · rw [List.mem_singleton.1 ho]
    exact hop

theorem exhaustedSince_of_exhausted (h : (l2After cfg ops).exhausted) : ExhaustedSince cfg ops := by
  induction ops using List.reverseRecOn with
  | nil => cases h
  | append_singleton ops op ih =>
    rw [l2After_append] at h
    cases op with
    | onStart nowMs => cases h
    | onRestart nowMs => exact (ih h).concat id
    | observe status nowMs =>
      by_cases hex : (l2After cfg ops).exhausted
      · exact (ih hex).concat id
      · have ha := ((l2After cfg ops).observe_fields status nowMs).2.2.2.1 h
        exact ⟨ops, _, [], rfl, congrArg some ha, fun o ho => by cases ho⟩

/-- **The timers of the bounded restarts.** No `Restart` and no first `Exhaust` in a grace window,
two `Restart` are `backoff_ms` apart, and after `Exhaust` all is `Exhaust` until `on_start`. -/
theorem l2_timers (cfg : L2RecoveryConfig) (hgrace : cfg.graceMs < 2 ^ 63)
    (hbackoff : cfg.backoffMs < 2 ^ 63) (ops : List L2Op)
    (hclock : Clocked (fun op => some (L2Op.time op)) ops) :
    (∀ (before : List L2Op) (op : L2Op) after, ops = before ++ op :: after →
      (op.action? (l2After cfg before) = some .restart ∨
        op.action? (l2After cfg before) = some .exhaust ∧ ¬ExhaustedSince cfg before) →
      ∀ start ∈ before, start.Starts → start.time + cfg.graceMs ≤ op.time) ∧
    (∀ (before : List L2Op) (op : L2Op) between (op' : L2Op) after,
      ops = before ++ op :: between ++ op' :: after →
      (∀ o ∈ between, ¬o.IsStart) → op.action? (l2After cfg before) = some .restart →
      op'.action? (l2After cfg (before ++ op :: between)) = some .restart →
      op.time + cfg.backoffMs ≤ op'.time) ∧
    ∀ (before : List L2Op) (op : L2Op) between (op' : L2Op) after action,
      ops = before ++ op :: between ++ op' :: after →
      (∀ o ∈ between, ¬o.IsStart) → op.action? (l2After cfg before) = some .exhaust →
      op'.action? (l2After cfg (before ++ op :: between)) = some action → action = .exhaust := by
  refine ⟨?_, ?_, ?_⟩
  · rintro before op after rfl ha start hs hst
    have hle : start.time ≤ op.time := hclock.le hs mem_cons_self rfl rfl
    have hsta := le_startedMs cfg hclock.left hs hst
    have hp : (l2After cfg before).Past op.time := by
      refine past_of_action (ha.imp_right fun h => ⟨h.1, ?_⟩)
      exact Bool.not_eq_true _ ▸ mt exhaustedSince_of_exhausted h.2
    have hgrace' := hp.1
    rw [cfg_l2After] at hgrace'
    rcases le_of_le_saturatingSub hgrace hgrace' with hz | hl
    · omega
    · omega
  · rintro before op between op' after rfl hs ha ha'
    have hle : op.time ≤ op'.time :=
      hclock.le (by simp) mem_cons_self rfl rfl
    have hla := le_lastRestartMs hclock.left ha hs
    have hbackoff' := (past_of_action (.inl ha')).2
    rw [cfg_l2After] at hbackoff'
    rcases le_of_le_saturatingSub hbackoff hbackoff' with hz | hl
    · omega
    · omega
  · rintro before op between op' after action rfl hs ha ha'
    have hex := exhausted_of_action ha hs
    cases op' with
    | onStart nowMs => cases ha'
    | onRestart nowMs => cases ha'
    | observe status nowMs =>
      have hsa : (l2After cfg (before ++ op :: between)).observe status nowMs =
          (.exhaust, l2After cfg (before ++ op :: between)) := if_pos hex
      rw [L2Op.action?, hsa] at ha'
      exact (Option.some.inj ha').symm

/-- A restart ten seconds after another one, of which the backoff is five. -/
theorem l2_timers_twoRestarts : (10000 : ℤ) + ({} : L2RecoveryConfig).backoffMs ≤ 20000 :=
  (l2_timers {} (by decide) (by decide)
    [.onStart 0, .observe .unknown 10000, .onRestart 10000, .observe .unknown 20000]
    (by decide)).2.1 [.onStart 0] (.observe .unknown 10000) [.onRestart 10000]
      (.observe .unknown 20000) [] rfl (by decide) (by decide) (by decide)

def L2Op.restart? (op : L2Op) (l2 : L2Recovery) : Option ℤ :=
  if op.action? l2 = some .restart then some op.time else none

def restartTimes (cfg : L2RecoveryConfig) (ops : List L2Op) : List ℤ :=
  results L2Op.step L2Op.restart? ops { cfg := cfg }

/-- No younger restart is forgotten when the window starts again. -/
def L2Op.Rolls (op : L2Op) (l2 : L2Recovery) : Prop :=
  match op with
  | .onStart _ | .onRestart _ => True
  | .observe status nowMs =>
    l2.exhausted = false ∧ status ≠ .healthy ∧ l2.Past nowMs ∧ l2.Elapsed nowMs →
      l2.restartsInWindow = 0 ∨ l2.lastRestartMs + l2.cfg.windowMs ≤ nowMs

instance (op : L2Op) (l2 : L2Recovery) : Decidable (op.Rolls l2) :=
  match op with
  | .onStart _ | .onRestart _ => isTrue trivial
  | .observe _ _ => inferInstanceAs (Decidable (_ → _))

theorem restartTimes_concat (cfg : L2RecoveryConfig) (ops : List L2Op) (op : L2Op) :
    restartTimes cfg (ops ++ [op]) =
      restartTimes cfg ops ++ (op.restart? (l2After cfg ops)).toList := by
  rw [restartTimes, results_append, results, results, append_nil]
  rfl

theorem time_of_restart? {t : ℤ} (h : op.restart? l2 = some t) : op.time = t := by
  unfold L2Op.restart? at h
  split_ifs at h
  exact Option.some.inj h

theorem exists_of_mem_restartTimes {t : ℤ} (h : t ∈ restartTimes cfg ops) :
    ∃ op ∈ ops, op.time = t := by
  obtain ⟨op, hop, l2, hr⟩ := mem_results h
  exact ⟨op, hop, time_of_restart? hr⟩

def Counted (cfg : L2RecoveryConfig) (ops : List L2Op) : Prop :=
  ∀ x u : ℤ, (∀ op ∈ ops, op.time ≤ u) → u < x + cfg.windowMs →
    (∀ op ∈ ops, op.Renews → op.time < x) →
    ((restartTimes cfg ops).filter (x ≤ ·)).length ≤ (l2After cfg ops).restartsInWindow ∧
      ∀ t ∈ restartTimes cfg ops, x ≤ t → t ≤ (l2After cfg ops).lastRestartMs

theorem restart?_observe {l2 l2' : L2Recovery} {status : HealthStatus} {nowMs : ℤ}
    {action : L2Action} (h : l2.observe status nowMs = (action, l2')) :
    (L2Op.observe status nowMs).restart? l2 = if action = .restart then some nowMs else none := by
  simp [L2Op.restart?, L2Op.action?, h, L2Op.time]

theorem length_le_rolled {x nowMs : ℤ} {times : List ℤ}
    (hc : (times.filter (x ≤ ·)).length ≤ l2.restartsInWindow)
    (hl : ∀ t ∈ times, x ≤ t → t ≤ l2.lastRestartMs) (hno : nowMs < x + l2.cfg.windowMs)
    (hr : l2.Elapsed nowMs →
      l2.restartsInWindow = 0 ∨ l2.lastRestartMs + l2.cfg.windowMs ≤ nowMs) :
    (times.filter (x ≤ ·)).length ≤ (l2.rolled nowMs).restartsInWindow := by
  unfold L2Recovery.rolled
  split_ifs with he
  · rcases hr he with hz | ho
    · rwa [hz] at hc
    · have hn : times.filter (x ≤ ·) = [] := by
        refine List.filter_eq_nil_iff.2 fun t ht hxt => ?_
        have hle := hl t ht (of_decide_eq_true hxt)
        have hx := of_decide_eq_true hxt
        omega
      simp [hn]
  · exact hc

theorem Counted.concat (h : Counted cfg ops) (hle : ∀ o ∈ ops, o.time ≤ op.time)
    (hrol : op.Rolls (l2After cfg ops)) : Counted cfg (ops ++ [op]) := by
  intro x u hu hw hren
  have hop : op.time ≤ u := hu op (by simp)
  obtain ⟨hc, hl⟩ := h x u (fun o ho => hu o (by simp [ho])) hw
    fun o ho => hren o (by simp [ho])
  have hti : ∀ t ∈ restartTimes cfg ops, t ≤ op.time := by
    intro t ht
    obtain ⟨o, ho, rfl⟩ := exists_of_mem_restartTimes ht
    exact hle o ho
  -- a call that renews the budget comes after all restarts, and is before `x`
  have hre : op.Renews → (restartTimes cfg ops).filter (x ≤ ·) = [] ∧
      ∀ t ∈ restartTimes cfg ops, ¬x ≤ t := by
    intro hrene
    have hlt := hren op (by simp) hrene
    have hn : ∀ t ∈ restartTimes cfg ops, ¬x ≤ t := fun t ht => by
      have hle := hti t ht
      omega
    exact ⟨List.filter_eq_nil_iff.2 fun t ht hxt => hn t ht (of_decide_eq_true hxt), hn⟩
  rw [restartTimes_concat, l2After_append]
  cases op with
  | onStart nowMs =>
    obtain ⟨hni, hn⟩ := hre trivial
    have hr : (L2Op.onStart nowMs).restart? (l2After cfg ops) = none := rfl
    rw [hr, toList_none, append_nil, hni]
    exact ⟨Nat.zero_le _, fun t ht hxt => absurd hxt (hn t ht)⟩
  | onRestart nowMs =>
    have hr : (L2Op.onRestart nowMs).restart? (l2After cfg ops) = none := rfl
    rw [hr, toList_none, append_nil]
    exact ⟨hc, fun t ht _ => hti t ht⟩
  | observe status nowMs =>
    have hru : run L2Op.step [.observe status nowMs] (l2After cfg ops) =
        ((l2After cfg ops).observe status nowMs).2 := rfl
    have hno : nowMs < x + (l2After cfg ops).cfg.windowMs := by
      rw [cfg_l2After]
      exact lt_of_le_of_lt hop hw
    rw [hru]
    rcases (l2After cfg ops).observe_cases status nowMs with ⟨-, heq⟩ | ⟨hex, ⟨hh, heq⟩ |
      ⟨hh, ⟨badCount, heq⟩ | ⟨hp, badCount, hca⟩⟩⟩
    · rw [restart?_observe heq, heq]
      simpa using ⟨hc, hl⟩
    · obtain ⟨hni, hn⟩ := hre hh
      rw [restart?_observe heq, if_neg (by decide), toList_none, append_nil, hni]
      exact ⟨Nat.zero_le _, fun t ht hxt => absurd hxt (hn t ht)⟩
    · rw [restart?_observe heq, heq]
      simpa using ⟨hc, hl⟩
    · have hro := length_le_rolled hc hl hno
        fun he => hrol ⟨hex, hh, hp, he⟩
      rcases hca with ⟨-, heq⟩ | ⟨-, heq⟩
      · rw [restart?_observe heq, heq, if_neg (by decide), toList_none, append_nil]
        refine ⟨hro, fun t ht hxt => ?_⟩
        rw [((l2After cfg ops).rolled_fields nowMs).2.2.1]
        exact hl t ht hxt
      · rw [restart?_observe heq, heq, filter_append]
        refine ⟨?_, fun t ht _ => ?_⟩
        · rw [length_append]
          exact Nat.add_le_add hro (length_filter_le _ _)
        · rcases List.mem_append.1 ht with ht | ht
          · exact hti t ht
          · rw [List.mem_singleton.1 ht]

theorem counted_run (hc : Clocked (fun op => some (L2Op.time op)) ops)
    (hr : Along L2Op.step L2Op.Rolls ops { cfg := cfg }) : Counted cfg ops := by
  induction ops using List.reverseRecOn with
  | nil => exact fun x u _ _ _ => ⟨Nat.zero_le _, fun t ht => by cases ht⟩
  | append_singleton ops op ih =>
    obtain ⟨hb, hop, -⟩ := along_append.1 hr
    exact (ih hc.left hb).concat
      (fun o ho => hc.le ho mem_cons_self rfl rfl) hop

theorem restartsInWindow_le (cfg : L2RecoveryConfig) (ops : List L2Op) :
    (l2After cfg ops).restartsInWindow ≤ cfg.maxRestarts := by
  induction ops using List.reverseRecOn with
  | nil => exact Nat.zero_le _
  | append_singleton ops op ih =>
    rw [l2After_append]
    cases op with
    | onStart nowMs => exact Nat.zero_le _
    | onRestart nowMs => exact ih
    | observe status nowMs =>
      show ((l2After cfg ops).observe status nowMs).2.restartsInWindow ≤ _
      have hc := cfg_l2After cfg ops
      have hr : ((l2After cfg ops).rolled nowMs).restartsInWindow ≤ cfg.maxRestarts := by
        unfold L2Recovery.rolled
        split_ifs
        · exact Nat.zero_le _
        · exact ih
      rcases (l2After cfg ops).observe_cases status nowMs with ⟨-, heq⟩ | ⟨-, ⟨-, heq⟩ |
        ⟨-, ⟨badCount, heq⟩ | ⟨-, badCount, ⟨-, heq⟩ | ⟨hlt, heq⟩⟩⟩⟩
      · rw [heq]
        exact ih
      · rw [heq]
        exact Nat.zero_le _
      · rw [heq]
        exact ih
      · rw [heq]
        exact hr
      · rw [heq]
        rw [hc] at hlt
        exact hlt

/-- **The restarts in a window.** If no restart younger than `window_ms` is forgotten, an interval
of that length without a healthy observation has at most `max_restarts`. -/
theorem restarts_in_window (cfg : L2RecoveryConfig) (ops : List L2Op)
    (hclock : Clocked (fun op => some (L2Op.time op)) ops)
    (hrolls : Along L2Op.step L2Op.Rolls ops { cfg := cfg }) (x : ℤ)
    (hq : ∀ op ∈ ops, op.Renews → ¬(x ≤ op.time ∧ op.time < x + cfg.windowMs)) :
    ((restartTimes cfg ops).filter fun t => x ≤ t ∧ t < x + cfg.windowMs).length ≤
      cfg.maxRestarts := by
  induction ops using List.reverseRecOn with
  | nil => exact Nat.zero_le _
  | append_singleton ops op ih =>
    have hb := ih hclock.left (along_append.1 hrolls).1
      fun o ho => hq o (mem_append_left _ ho)
    have hle : ∀ o ∈ ops ++ [op], o.time ≤ op.time := by
      intro o ho
      rcases List.mem_append.1 ho with ho | ho
      · exact hclock.le ho mem_cons_self rfl rfl
      · rw [List.mem_singleton.1 ho]
    by_cases hin : x ≤ op.time ∧ op.time < x + cfg.windowMs
    · -- everything in the interval so far is still counted
      have hc := (counted_run hclock hrolls x op.time hle hin.2 fun o ho hr => by
        have hno := hq o ho hr
        have hle' := hle o ho
        omega).1
      refine le_trans (le_trans (List.Sublist.length_le ?_) hc) (restartsInWindow_le cfg _)
      exact monotone_filter_right _ fun t ht => by
        simp only [decide_eq_true_eq] at ht ⊢
        exact ht.1
    · have hn : (op.restart? (l2After cfg ops)).toList.filter
          (fun t => x ≤ t ∧ t < x + cfg.windowMs) = [] := by
        refine List.filter_eq_nil_iff.2 fun t ht => ?_
        rw [← time_of_restart? (Option.mem_toList.1 ht), decide_eq_true_eq]
        exact hin
      rw [restartTimes_concat, filter_append, hn, append_nil]
      exact hb

def threeRestarts : List L2Op :=
  [.onStart 1000000, .observe .unknown 1010000, .onRestart 1010000, .observe .unknown 1020000,
    .onRestart 1020000, .observe .unknown 1030000, .onRestart 1030000]

theorem restarts_in_window_threeRestarts :
    restartTimes {} threeRestarts = [1010000, 1020000, 1030000] ∧
      ((restartTimes {} threeRestarts).filter fun t : ℤ =>
        1005000 ≤ t ∧ t < 1005000 + ({} : L2RecoveryConfig).windowMs).length ≤ 3 :=
  ⟨by decide, restarts_in_window {} threeRestarts (by decide) (by decide) 1005000 (by decide)⟩

def sixRestarts : List L2Op :=
  [.onStart 1000000, .observe .unknown 1010000, .onRestart 1010000, .observe .unknown 1059000,
    .onRestart 1059000, .observe .unknown 1069000, .onRestart 1069000, .observe .unknown 1079000,
    .onRestart 1079000, .observe .unknown 1089000, .onRestart 1089000, .observe .unknown 1099000,
    .onRestart 1099000]

/-- Five restarts in a minute, where three are the bound. -/
theorem five_restarts_in_window :
    Clocked (fun op => some (L2Op.time op)) sixRestarts ∧ (∀ op ∈ sixRestarts, op.Renews →
      ¬(1059000 ≤ op.time ∧ op.time < 1059000 + ({} : L2RecoveryConfig).windowMs)) ∧
    ((restartTimes {} sixRestarts).filter fun t : ℤ =>
      1059000 ≤ t ∧ t < 1059000 + ({} : L2RecoveryConfig).windowMs) =
        [1059000, 1069000, 1079000, 1089000, 1099000] ∧
    ({} : L2RecoveryConfig).maxRestarts = 3 := by decide

end BalanSir.Xray
