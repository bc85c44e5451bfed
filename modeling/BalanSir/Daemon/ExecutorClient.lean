/-
# The executor as the daemon reaches it

`ExecutorClient::request` and the calls made of it, over a link that can fail.
-/

import BalanSir.Daemon.Adapters
import BalanSir.Executor.Stores

namespace BalanSir.Daemon

open Common Executor

inductive IpcOutcome where
  | delivered
  | unreachable (error : Error)
  | answerLost (error : Error)
  | malformed
  deriving DecidableEq

/-- The executor process behind the IPC connection. -/
structure Link where
  executor : NftablesExecutor := {}
  ipc : List IpcOutcome := []

namespace Link

def Reliable (link : Link) : Prop :=
  (∀ o ∈ link.ipc, o = .delivered) ∧ link.executor.Quiet

/-- How a call failed: no answer, or one that cannot be read. -/
inductive CallError where
  | request (error : Error)
  | malformed
  deriving DecidableEq

def request {α : Type} (call : NftablesExecutor → α × NftablesExecutor) (link : Link) :
    Except CallError α × Link :=
  let rest := link.ipc.tail
  match link.ipc.head?.getD .delivered with
  | .delivered =>
    let (a, x) := call link.executor
    (.ok a, { executor := x, ipc := rest })
  | .unreachable e => (.error (.request e), { link with ipc := rest })
  | .answerLost e => (.error (.request e), { executor := (call link.executor).2, ipc := rest })
  | .malformed => (.error .malformed, { executor := (call link.executor).2, ipc := rest })

def failure (malformed : String) : CallError → ActionResult
  | .request e => .failed .unknown (some ("executor unreachable: " ++ e.toText))
  | .malformed => .failed .unknown (some malformed)

def execute [Postcard] (request : ActionRequest) (link : Link) : ActionResult × Link :=
  match Postcard.request request with
  | none => (.failed .unknown (some "failed to encode action request"), link)
  | some _ =>
    match link.request (NftablesExecutor.execute request) with
    | (.ok answer, link) => (answer, link)
    | (.error e, link) => (failure "executor returned malformed result" e, link)

def removeRule (ruleId : UInt32) (link : Link) : ActionResult × Link :=
  match link.request (NftablesExecutor.removeRule ruleId) with
  | (.ok (.ok ()), link) => (.applied 0 (some ruleId), link)
  | (.ok (.error e), link) => (.failed .unknown (some e.toText), link)
  | (.error e, link) => (failure "unexpected RemoveRule response" e, link)

def actualRuleIds (link : Link) : List UInt32 × Link :=
  match link.request NftablesExecutor.actualRuleIds with
  | (.ok ids, link) => (ids, link)
  | (.error _, link) => ([], link)

end Link

def executorClient [Postcard] : ExecutorAdapter Link where
  execute := Link.execute
  removeRule := Link.removeRule
  actualRuleIds := Link.actualRuleIds

namespace Link

theorem request_cases {α : Type} (call : NftablesExecutor → α × NftablesExecutor) (link : Link) :
    (∃ ipc, link.request call =
        (.ok (call link.executor).1, { executor := (call link.executor).2, ipc := ipc }) ∧
        (link.Reliable → ∀ o ∈ ipc, o = .delivered)) ∨
      (∃ e link', link.request call = (.error e, link') ∧ ¬link.Reliable ∧
        (link'.executor = link.executor ∨ link'.executor = (call link.executor).2)) := by
  unfold request
  have hd : link.ipc.head?.getD .delivered ≠ .delivered → ¬link.Reliable := by
    intro h hr
    cases hi : link.ipc with
    | nil => simp [hi] at h
    | cons o os => exact h (by simpa [hi] using hr.1 o (by simp [hi]))
  cases ho : link.ipc.head?.getD .delivered with
  | delivered =>
    exact .inl ⟨_, rfl, fun hr o ho => hr.1 o (List.mem_of_mem_tail ho)⟩
  | unreachable e => exact .inr ⟨_, _, rfl, hd (by simp [ho]), .inl rfl⟩
  | answerLost e => exact .inr ⟨_, _, rfl, hd (by simp [ho]), .inr rfl⟩
  | malformed => exact .inr ⟨_, _, rfl, hd (by simp [ho]), .inr rfl⟩

theorem execute_cases [Postcard] (request : ActionRequest) (link : Link) :
    (∃ ipc, link.execute request =
        ((NftablesExecutor.execute request link.executor).1,
          { executor := (NftablesExecutor.execute request link.executor).2, ipc := ipc }) ∧
        (link.Reliable → ∀ o ∈ ipc, o = .delivered)) ∨
      (∃ error message link', link.execute request = (.failed error message, link') ∧
        (link.Reliable → Postcard.request request = none) ∧
        (link'.executor = link.executor ∨
          link'.executor = (NftablesExecutor.execute request link.executor).2)) := by
  unfold execute
  cases hp : Postcard.request request with
  | none => exact .inr ⟨_, _, _, rfl, fun _ => rfl, .inl rfl⟩
  | some bytes =>
    rcases request_cases (NftablesExecutor.execute request) link with
      ⟨ipc, h, hr⟩ | ⟨e, link', h, hr, hx⟩
    · exact .inl ⟨ipc, by rw [h], hr⟩
    · simp only [h]
      cases e <;> exact .inr ⟨_, _, _, rfl, fun h => absurd h hr, hx⟩

theorem removeRule_cases (id : UInt32) (link : Link) :
    (∃ ipc, link.removeRule id = (.applied 0 (some id),
          { executor := (NftablesExecutor.removeRule id link.executor).2, ipc := ipc }) ∧
        (NftablesExecutor.removeRule id link.executor).1 = .ok () ∧
        (link.Reliable → ∀ o ∈ ipc, o = .delivered)) ∨
      (∃ error message link', link.removeRule id = (.failed error message, link') ∧
        ¬link.Reliable ∧ (link'.executor = link.executor ∨
          link'.executor = (NftablesExecutor.removeRule id link.executor).2)) := by
  unfold removeRule
  rcases request_cases (NftablesExecutor.removeRule id) link with
    ⟨ipc, h, hr⟩ | ⟨e, link', h, hr, hx⟩
  · simp only [h]
    rcases NftablesExecutor.removeRule_cases id link.executor with ⟨nft, hn, -⟩ | ⟨e, nft, hn, hn'⟩
    · exact .inl ⟨ipc, by rw [hn], by rw [hn], hr⟩
    · exact .inr ⟨_, _, _, by rw [hn], fun hq => hn'.noisy hq.2, .inr (by rw [hn])⟩
  · simp only [h]
    cases e <;> exact .inr ⟨_, _, _, rfl, hr, hx⟩

theorem actualRuleIds_cases (link : Link) :
    ∃ ids link', link.actualRuleIds = (ids, link') ∧ link'.executor.rules = link.executor.rules ∧
      link'.executor.installed = link.executor.installed ∧ (link.Reliable → link'.Reliable ∧
        ids = link.executor.rules.filterMap fun r => r.comment.bind NftablesBackend.ruleIdOf) := by
  unfold actualRuleIds
  obtain ⟨nft, ids, hx, hc, hi⟩ := NftablesExecutor.actualRuleIds_cases link.executor
  have hru : ({ link.executor with nft := nft } : NftablesExecutor).rules =
      link.executor.rules := by
    rw [NftablesExecutor.rules, hc.kernel, NftablesExecutor.rules]
  rcases request_cases NftablesExecutor.actualRuleIds link with
    ⟨ipc, h, hr⟩ | ⟨e, link', h, hr, hx'⟩
  · rw [hx] at h
    refine ⟨ids, { executor := { link.executor with nft := nft }, ipc := ipc }, by rw [h],
      hru, rfl, fun hq => ⟨⟨hr hq, hc.quiet hq.2⟩, hi hq.2⟩⟩
  · refine ⟨[], link', by rw [h], ?_, ?_, fun hq => absurd hq hr⟩
    · rcases hx' with hx' | hx'
      · rw [hx']
      · rw [hx', hx, hru]
    · rcases hx' with hx' | hx'
      · rw [hx']
      · rw [hx', hx]

theorem execute_executor [Postcard] (q : ActionRequest) (link : Link) :
    (link.execute q).2.executor = link.executor ∨
      (link.execute q).2.executor = (NftablesExecutor.execute q link.executor).2 := by
  rcases execute_cases q link with ⟨ipc, h, -⟩ | ⟨error, message, link', h, -, hx⟩
  · rw [h]
    exact .inr rfl
  · rw [h]
    exact hx

theorem execute_of_isSuccess [Postcard] {q : ActionRequest} {link : Link}
    (h : (link.execute q).1.isSuccess) :
    (link.execute q).1 = (NftablesExecutor.execute q link.executor).1 ∧
      (link.execute q).2.executor = (NftablesExecutor.execute q link.executor).2 := by
  rcases execute_cases q link with ⟨ipc, h', -⟩ | ⟨error, message, link', h', -, -⟩
  · rw [h']
    exact ⟨rfl, rfl⟩
  · rw [h'] at h
    cases h

theorem removeRule_executor (id : UInt32) (link : Link) :
    (link.removeRule id).2.executor = link.executor ∨
      (link.removeRule id).2.executor = (NftablesExecutor.removeRule id link.executor).2 := by
  rcases removeRule_cases id link with ⟨ipc, h, -⟩ | ⟨error, message, link', h, -, hx⟩
  · rw [h]
    exact .inr rfl
  · rw [h]
    exact hx

theorem removeRule_of_isSuccess {id : UInt32} {link : Link}
    (h : (link.removeRule id).1.isSuccess) :
    (NftablesExecutor.removeRule id link.executor).1 = .ok () ∧
      (link.removeRule id).2.executor = (NftablesExecutor.removeRule id link.executor).2 := by
  rcases removeRule_cases id link with ⟨ipc, h', hok, -⟩ | ⟨error, message, link', h', -, -⟩
  · rw [h']
    exact ⟨hok, rfl⟩
  · rw [h'] at h
    cases h

end Link

end BalanSir.Daemon
