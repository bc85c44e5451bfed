/-
# The reassembler over every sequence of calls

The bounds of the flow table, and what a flow knows along every run of `feed`.
-/

import BalanSir.B4.Verdicts
import BalanSir.Lib.Run

namespace BalanSir.B4

open Lib

/-- One call of `feed`, with the time it is made at. -/
structure FeedCall where
  now : ℕ
  key : FlowKey
  seq : ℕ
  payload : Bytes
  finRst : Bool
deriving DecidableEq

namespace FeedCall

def outcome (c : FeedCall) (r : TcpReassembler) : Option Text × TcpReassembler :=
  match r.feed c.now c.key c.seq c.payload c.finRst with
  | .ok x => x
  | .error _ => (none, r) -- does not happen

def result (c : FeedCall) (r : TcpReassembler) : Option Text := (c.outcome r).1

def after (c : FeedCall) (r : TcpReassembler) : TcpReassembler := (c.outcome r).2

def Feeds (c : FeedCall) : Prop := c.payload ≠ [] ∧ c.finRst = false
  deriving Decidable

variable {c : FeedCall} {r r' : TcpReassembler}

theorem feed_eq (c : FeedCall) (r : TcpReassembler) :
    r.feed c.now c.key c.seq c.payload c.finRst = .ok (c.result r, c.after r) := by
  obtain ⟨x, hx, -⟩ :=
    (TcpReassembler.feed_runs c.now c.key c.seq c.payload c.finRst r).2 not_false
  rw [result, after, outcome, hx]

theorem eq_of_feed {x : Option Text × TcpReassembler}
    (h : r.feed c.now c.key c.seq c.payload c.finRst = .ok x) :
    c.result r = x.1 ∧ c.after r = x.2 := by
  rw [feed_eq] at h
  cases h
  exact ⟨rfl, rfl⟩

theorem of_nil (he : c.payload = []) : c.result r = none ∧ c.after r = r.sweep c.now := by
  refine eq_of_feed (x := (none, r.sweep c.now)) ?_
  rw [he]
  rfl

theorem of_closing (hd : c.payload ≠ []) (hf : c.finRst) : c.result r = none ∧
      c.after r = { r.sweep c.now with flows := (r.sweep c.now).flows.erase c.key } := by
  refine eq_of_feed (x := (none, _)) ?_
  rw [hf]
  exact (if_neg (by rwa [List.isEmpty_iff])).trans (if_pos rfl)

theorem of_refused (hf : c.Feeds) (hr : ((r.sweep c.now).makeRoom c.now c.key).1 = false) :
    c.result r = none ∧ c.after r = ((r.sweep c.now).makeRoom c.now c.key).2 := by
  refine eq_of_feed (x := (none, _)) ?_
  rw [hf.2]
  refine (if_neg (by rw [List.isEmpty_iff]; exact hf.1)).trans
    ((if_neg Bool.false_ne_true).trans ?_)
  generalize (r.sweep c.now).makeRoom c.now c.key = x at hr ⊢
  obtain ⟨room, r₁⟩ := x
  cases hr
  rfl

def flowIn (c : FeedCall) (r : TcpReassembler) : Flow :=
  { (r.flows.lookup c.key).getD (Flow.new c.seq c.now) with lastSeen := c.now }

theorem of_admitted (hf : c.Feeds) (hr : (r.sweep c.now).makeRoom c.now c.key = (true, r')) :
    ∃ flow result dropFlow,
      (c.flowIn r').take r'.maxBytes c.seq c.payload = .ok (flow, result, dropFlow) ∧
      c.result r = result ∧ c.after r = { r' with
          flows := if dropFlow then r'.flows.erase c.key else r'.flows.insert c.key flow } :=
    by
  obtain ⟨⟨flow, result, dropFlow⟩, ht, -⟩ :=
    (Flow.take_runs hf.1 r'.maxBytes c.seq (c.flowIn r')).2 not_false
  refine ⟨flow, result, dropFlow, ht, eq_of_feed (x := (result, _)) ?_⟩
  rw [hf.2]
  refine (if_neg (by rw [List.isEmpty_iff]; exact hf.1)).trans
    ((if_neg Bool.false_ne_true).trans ?_)
  rw [hr]
  exact congrArg (· >>= _) ht

theorem lookup_admitted {flow : Flow} {dropFlow : Bool} (ha : c.after r =
    { r' with flows := if dropFlow then r'.flows.erase c.key else r'.flows.insert c.key flow }) :
    (c.after r).flows.lookup c.key = if dropFlow then none else some flow := by
  rw [ha]
  cases dropFlow with
  | true => exact AList.lookup_erase ..
  | false => exact AList.lookup_insert _

end FeedCall

namespace Flow

variable {flow flow' : Flow} {maxBytes seq : ℕ} {payload : Bytes} {result : Option Text}
  {dropFlow : Bool}

def Reads (flow : Flow) (bytes : Bytes) (flow' : Flow) (result : Option Text) : Prop :=
  (∃ host, extractTlsSni bytes = .ok (some host) ∧ result = some host ∧
      flow' = { flow with buffer := [], decided := some host }) ∨
    extractTlsSni bytes = .ok none ∧ result = none ∧ flow' = { flow with buffer := bytes }

theorem classify_cases (hd : flow.decided = none)
    (h : flow.classify maxBytes = .ok (flow', result, dropFlow)) :
    dropFlow ∧ result = none ∨ dropFlow = false ∧ flow.buffer.length ≤ maxBytes ∧
      flow.Reads flow.buffer flow' result := by
  by_cases hl : maxBytes < flow.buffer.length
  · rw [classify, if_pos hl] at h
    cases h
    exact .inl ⟨rfl, rfl⟩
  · obtain ⟨o, ho, -⟩ := (extractTlsSni_runs flow.buffer).2 id
    rw [classify_eq (by omega) ho] at h
    cases o with
    | some host =>
      cases h
      exact .inr ⟨rfl, by omega, .inl ⟨host, ho, rfl, rfl⟩⟩
    | none =>
      cases h
      exact .inr ⟨rfl, by omega, .inr ⟨ho, hd, rfl⟩⟩

/-- The flow is dropped, or stays, or the new part of the segment is appended and all is read. -/
inductive Takes (maxBytes : ℕ) (payload : Bytes) (flow : Flow) : Flow → Option Text → Bool → Prop
  | dropped (flow' : Flow) : Takes maxBytes payload flow flow' none true
  | unchanged : Takes maxBytes payload flow flow flow.decided false
  | appended (n : ℕ) {flow' : Flow} {result : Option Text} (hdecided : flow.decided = none)
      (hlen : (flow.buffer ++ payload.drop n).length ≤ maxBytes)
      (hreads : flow.Reads (flow.buffer ++ payload.drop n) flow' result) :
      Takes maxBytes payload flow flow' result false

/-- **A segment does nothing else to its flow.** -/
theorem takes_of_take (hd : payload ≠ [])
    (h : flow.take maxBytes seq payload = .ok (flow', result, dropFlow)) :
    Takes maxBytes payload flow flow' result dropFlow := by
  obtain ⟨baseSeq, buffer, decided, lastSeen⟩ := flow
  unfold take at h
  cases decided with
  | some host =>
    cases h
    exact .unchanged
  | none =>
    -- what is appended is read by `classify`
    have ha : ∀ n, classify maxBytes ⟨baseSeq, buffer ++ payload.drop n, none, lastSeen⟩ =
        .ok (flow', result, dropFlow) →
        Takes maxBytes payload ⟨baseSeq, buffer, none, lastSeen⟩ flow' result dropFlow := by
      intro n hn
      rcases classify_cases rfl hn with ⟨rfl, rfl⟩ | ⟨rfl, hl, hr⟩
      · exact .dropped _
      · exact .appended n rfl hl hr
    dsimp only at h
    split_ifs at h with he hg ho
    · rw [byteAt_of_lt (List.length_pos_iff.2 hd), ok_bind] at h
      split_ifs at h
      · cases h
        exact .dropped _
      · exact ha 0 h
    · rw [slice_to_end (by omega), ok_bind] at h
      split_ifs at h
      · cases h
        exact .dropped _
      · exact ha _ h
    · cases h
      exact .unchanged
    · cases h
      exact .dropped _
    · cases h
      exact .dropped _
    · exact ha 0 h

end Flow

namespace TcpReassembler

/-- Flows were evicted at most. -/
structure Thins (r r' : TcpReassembler) : Prop where
  maxFlows_eq : r'.maxFlows = r.maxFlows
  maxBytes_eq : r'.maxBytes = r.maxBytes
  size_le : r'.flows.size ≤ r.flows.size
  lookup_eq : ∀ key, r'.flows.lookup key = r.flows.lookup key ∨ r'.flows.lookup key = none

theorem Thins.refl (r : TcpReassembler) : Thins r r := ⟨rfl, rfl, le_rfl, fun _ => .inl rfl⟩

theorem Thins.trans {r r' r'' : TcpReassembler} (h : Thins r r') (h' : Thins r' r'') :
    Thins r r'' where
  maxFlows_eq := h'.maxFlows_eq.trans h.maxFlows_eq
  maxBytes_eq := h'.maxBytes_eq.trans h.maxBytes_eq
  size_le := h'.size_le.trans h.size_le
  lookup_eq key := by
    rcases h'.lookup_eq key with hs | hn
    · rw [hs]
      exact h.lookup_eq key
    · exact .inr hn

theorem thins_evictExpired (now : ℕ) (r : TcpReassembler) : Thins r (r.evictExpired now) :=
  ⟨rfl, rfl, Table.size_retain_le .., lookup_evictExpired now r⟩

theorem thins_sweep (now : ℕ) (r : TcpReassembler) : Thins r (r.sweep now) := by
  have hc : Thins r { r with sinceEvict := r.sinceEvict + 1 } :=
    ⟨rfl, rfl, le_rfl, fun _ => .inl rfl⟩
  unfold sweep
  dsimp only
  split_ifs
  · exact hc.trans (thins_evictExpired ..)
  · exact hc

theorem thins_makeRoom (now : ℕ) (key : FlowKey) (r : TcpReassembler) :
    Thins r (r.makeRoom now key).2 := by
  unfold makeRoom
  split_ifs
  · exact .refl r
  · exact thins_evictExpired ..
  · exact .refl r

variable {key : FlowKey}

theorem thins_admitted {now : ℕ} {r r' : TcpReassembler} {room : Bool}
    (hr : (r.sweep now).makeRoom now key = (room, r')) : Thins r r' := by
  have hm := thins_makeRoom now key (r.sweep now)
  rw [hr] at hm
  exact (thins_sweep now r).trans hm

theorem room_of_makeRoom {now : ℕ} {r r' : TcpReassembler} (hr : r.makeRoom now key = (true, r')) :
    (r'.flows.lookup key).isSome ∨ r'.flows.size < r'.maxFlows := by
  unfold makeRoom at hr
  by_cases ht : (r.flows.lookup key).isSome
  · rw [if_pos ht] at hr
    cases hr
    exact .inl ht
  · rw [if_neg ht] at hr
    obtain ⟨hs, rfl⟩ := Prod.mk.inj hr
    exact .inr (of_decide_eq_true hs)

/-- The table and the buffers are within their bounds. -/
structure Bounded (r : TcpReassembler) : Prop where
  flows_le : r.flows.size ≤ r.maxFlows
  buffer_le : ∀ key flow, r.flows.lookup key = some flow → flow.buffer.length ≤ r.maxBytes

variable {r r' : TcpReassembler}

theorem Bounded.thins (hr : r.Bounded) (h : Thins r r') : r'.Bounded where
  flows_le := by
    rw [h.maxFlows_eq]
    exact h.size_le.trans hr.flows_le
  buffer_le key flow hf := by
    rw [h.maxBytes_eq]
    rcases h.lookup_eq key with hs | hn
    · exact hr.buffer_le key flow (hs ▸ hf)
    · rw [hn] at hf
      cases hf

theorem Bounded.erase (hr : r.Bounded) (key : FlowKey) :
    { r with flows := r.flows.erase key }.Bounded where
  flows_le := (Table.size_erase_le ..).trans hr.flows_le
  buffer_le key' flow hf := by
    by_cases hk : key' = key
    · subst hk
      rw [AList.lookup_erase] at hf
      cases hf
    · rw [AList.lookup_erase_ne hk] at hf
      exact hr.buffer_le key' flow hf

theorem Bounded.insert (hr : r.Bounded) {flow : Flow}
    (hro : (r.flows.lookup key).isSome ∨ r.flows.size < r.maxFlows)
    (hl : flow.buffer.length ≤ r.maxBytes) :
    { r with flows := r.flows.insert key flow }.Bounded where
  flows_le := by
    rcases hro with ht | hlt
    · exact (Table.size_insert_of_isSome ht flow).trans_le hr.flows_le
    · exact (Table.size_insert_le key flow r.flows).trans hlt
  buffer_le key' flow' hf := by
    by_cases hk : key' = key
    · subst hk
      rw [AList.lookup_insert] at hf
      cases hf
      exact hl
    · rw [AList.lookup_insert_ne hk] at hf
      exact hr.buffer_le key' flow' hf

end TcpReassembler

variable {maxBytes : ℕ} {result : Option Text}

theorem Flow.Takes.length_buffer_le {flow flow' : Flow} {payload : Bytes}
    (h : flow.Takes maxBytes payload flow' result false)
    (hl : flow.buffer.length ≤ maxBytes) : flow'.buffer.length ≤ maxBytes := by
  cases h with
  | unchanged => exact hl
  | appended n hd hl' hr =>
    rcases hr with ⟨host, -, -, rfl⟩ | ⟨-, -, rfl⟩
    · exact Nat.zero_le _
    · exact hl'

namespace FeedCall

open TcpReassembler

variable {c : FeedCall} {r r' : TcpReassembler}

theorem cases_of (c : FeedCall) (r : TcpReassembler) :
    c.payload = [] ∨ (c.payload ≠ [] ∧ c.finRst) ∨
      ∃ r', c.Feeds ∧ ((r.sweep c.now).makeRoom c.now c.key = (false, r') ∨
        (r.sweep c.now).makeRoom c.now c.key = (true, r')) := by
  by_cases hd : c.payload = []
  · exact .inl hd
  cases hf : c.finRst with
  | true => exact .inr (.inl ⟨hd, rfl⟩)
  | false =>
    obtain ⟨room, r'⟩ := (r.sweep c.now).makeRoom c.now c.key
    refine .inr (.inr ⟨r', ⟨hd, hf⟩, ?_⟩)
    cases room with
    | false => exact .inl rfl
    | true => exact .inr rfl

/-- **A call keeps the bounds**, and the parameters they are about. -/
theorem bounded_after (hr : r.Bounded) : (c.after r).Bounded ∧
    (c.after r).maxFlows = r.maxFlows ∧ (c.after r).maxBytes = r.maxBytes := by
  have hs := thins_sweep c.now r
  rcases cases_of c r with he | ⟨hd, hfi⟩ | ⟨r', hf, hro | hro⟩
  · rw [(of_nil he).2]
    exact ⟨hr.thins hs, hs.maxFlows_eq, hs.maxBytes_eq⟩
  · rw [(of_closing hd hfi).2]
    exact ⟨(hr.thins hs).erase _, hs.maxFlows_eq, hs.maxBytes_eq⟩
  · have hm := thins_admitted hro
    have ha := (of_refused hf (by rw [hro])).2
    rw [hro] at ha
    rw [ha]
    exact ⟨hr.thins hm, hm.maxFlows_eq, hm.maxBytes_eq⟩
  · have hm := thins_admitted hro
    have hr' := hr.thins hm
    obtain ⟨flow, result, dropFlow, hta, -, ha⟩ := of_admitted hf hro
    have ht := Flow.takes_of_take hf.1 hta
    rw [ha]
    refine ⟨?_, hm.maxFlows_eq, hm.maxBytes_eq⟩
    cases dropFlow with
    | true => exact hr'.erase _
    | false =>
      refine hr'.insert (room_of_makeRoom hro) (ht.length_buffer_le ?_)
      -- the flow the segment is given to is one of the table, or a new one
      unfold flowIn
      cases hfl : r'.flows.lookup c.key with
      | none => exact Nat.zero_le _
      | some kept => exact hr'.buffer_le c.key kept hfl

end FeedCall

def alone (maxBytes seq : ℕ) (payload : Bytes) (finRst : Bool) (kept : Option Flow) :
    Checked (Option Text × Option Flow) :=
  if payload.isEmpty then .ok (none, kept)
  else if finRst then .ok (none, none)
  else do
    let (flow, result, dropFlow) ← Flow.take maxBytes seq payload (kept.getD (Flow.new seq 0))
    return (result, if dropFlow then none else some flow)

def Flow.untimed (flow : Flow) : Flow := { flow with lastSeen := 0 }

theorem Flow.take_untimed (maxBytes seq : ℕ) (payload : Bytes) (flow : Flow) :
    flow.untimed.take maxBytes seq payload =
      (flow.take maxBytes seq payload).map fun x => (x.1.untimed, x.2) := by
  have hc : ∀ flow : Flow, flow.untimed.classify maxBytes =
      (flow.classify maxBytes).map fun x => (x.1.untimed, x.2) := by
    intro flow
    unfold classify
    by_cases hl : maxBytes < flow.buffer.length
    · rw [if_pos hl, if_pos (show maxBytes < flow.untimed.buffer.length from hl)]
      rfl
    · rw [if_neg hl, if_neg (show ¬maxBytes < flow.untimed.buffer.length from hl)]
      obtain ⟨o, ho, -⟩ := (extractTlsSni_runs flow.buffer).2 id
      rw [show flow.untimed.buffer = flow.buffer from rfl, ho]
      cases o with
      | some host => rfl
      | none => rfl
  obtain ⟨baseSeq, buffer, decided, lastSeen⟩ := flow
  cases decided with
  | some host => rfl
  | none =>
    unfold take untimed
    dsimp only
    split_ifs with he hg hov
    · cases byteAt payload 0 with
      | error fault => rfl
      | ok first =>
        simp only [ok_bind]
        split_ifs
        · rfl
        · exact hc ⟨baseSeq, buffer ++ payload, none, lastSeen⟩
    · cases slice payload ((baseSeq + buffer.length) % 4294967296 - seq) payload.length with
      | error fault => rfl
      | ok newTail =>
        simp only [ok_bind]
        split_ifs
        · rfl
        · exact hc ⟨baseSeq, buffer ++ newTail, none, lastSeen⟩
    · rfl
    · rfl
    · rfl
    · exact hc ⟨baseSeq, buffer ++ payload, none, lastSeen⟩

namespace FeedCall

open TcpReassembler

variable {c : FeedCall} {r r' : TcpReassembler} {key : FlowKey}

/-- The call evicts nothing and finds room. -/
def Calm (c : FeedCall) (r : TcpReassembler) : Prop :=
  (r.sweep c.now).flows.entries = r.flows.entries ∧
    (c.Feeds → r.flows.lookup c.key = none → r.flows.size < r.maxFlows)
  deriving Decidable

def view (key : FlowKey) (r : TcpReassembler) : Option Flow :=
  (r.flows.lookup key).map Flow.untimed

theorem Calm.sweep_flows (hc : c.Calm r) : (r.sweep c.now).flows = r.flows := AList.ext hc.1

theorem makeRoom_of_calm (hc : c.Calm r) (hf : c.Feeds) :
    (r.sweep c.now).makeRoom c.now c.key = (true, r.sweep c.now) := by
  unfold makeRoom
  rw [hc.sweep_flows, (thins_sweep c.now r).maxFlows_eq]
  split_ifs with ht hfu
  · rfl
  · have hlt := hc.2 hf (by simpa using ht)
    omega
  · have hlt := hc.2 hf (by simpa using ht)
    show (decide ((r.sweep c.now).flows.size < (r.sweep c.now).maxFlows), _) = _
    rw [hc.sweep_flows, (thins_sweep c.now r).maxFlows_eq, decide_eq_true hlt]

/-- **A calm call does to its flow what it does to the flow alone.** -/
theorem alone_of_calm (hc : c.Calm r) : alone r.maxBytes c.seq c.payload c.finRst (view c.key r) =
      .ok (c.result r, view c.key (c.after r)) := by
  unfold alone
  by_cases he : c.payload = []
  · obtain ⟨hr, ha⟩ := of_nil he
    rw [hr, ha, if_pos (by rw [he]; rfl), view, view, hc.sweep_flows]
  rw [if_neg (by rwa [List.isEmpty_iff])]
  cases hfi : c.finRst with
  | true =>
    obtain ⟨hr, ha⟩ := of_closing he hfi
    rw [hr, ha, if_pos rfl, view]
    rw [AList.lookup_erase]
    rfl
  | false =>
    have hf : c.Feeds := ⟨he, hfi⟩
    obtain ⟨flow, result, dropFlow, ht, hr, ha⟩ :=
      of_admitted hf (makeRoom_of_calm hc hf)
    have hk : (view c.key r).getD (Flow.new c.seq 0) = (c.flowIn (r.sweep c.now)).untimed := by
      rw [view, flowIn, hc.sweep_flows]
      cases r.flows.lookup c.key with
      | none => rfl
      | some kept => rfl
    rw [hk, Flow.take_untimed, ← (thins_sweep c.now r).maxBytes_eq, ht, hr, view,
      lookup_admitted ha]
    cases dropFlow with
    | true => rfl
    | false => rfl

theorem view_of_ne (hc : c.Calm r) (hne : key ≠ c.key) : view key (c.after r) = view key r := by
  have hs : (r.sweep c.now).flows.lookup key = r.flows.lookup key := by
    rw [hc.sweep_flows]
  refine congrArg (Option.map Flow.untimed) ?_
  rcases cases_of c r with he | ⟨hd, hfi⟩ | ⟨r', hf, -⟩
  · rw [(of_nil he).2, hs]
  · rw [(of_closing hd hfi).2, ← hs]
    exact AList.lookup_erase_ne hne
  · obtain ⟨flow, result, dropFlow, -, -, ha⟩ :=
      of_admitted hf (makeRoom_of_calm hc hf)
    rw [ha, ← hs]
    cases dropFlow with
    | true => exact AList.lookup_erase_ne hne
    | false => exact AList.lookup_insert_ne hne

end FeedCall

open FeedCall TcpReassembler

def resultsOf (key : FlowKey) : List FeedCall → TcpReassembler → List (Option Text)
  | [], _ => []
  | c :: cs, r =>
    if c.key = key then c.result r :: resultsOf key cs (c.after r)
    else resultsOf key cs (c.after r)

def argsOf (key : FlowKey) (cs : List FeedCall) : List (ℕ × Bytes × Bool) :=
  (cs.filter fun c => c.key = key).map fun c => (c.seq, c.payload, c.finRst)

def aloneAll (maxBytes : ℕ) :
    List (ℕ × Bytes × Bool) → Option Flow → Checked (List (Option Text))
  | [], _ => .ok []
  | (seq, payload, finRst) :: args, kept => do
    let (result, kept) ← alone maxBytes seq payload finRst kept
    return result :: (← aloneAll maxBytes args kept)

variable {cs cs' : List FeedCall} {r : TcpReassembler} {key : FlowKey}
  {bytes : Bytes} {c : FeedCall}

theorem maxBytes_after (c : FeedCall) (r : TcpReassembler) : (c.after r).maxBytes = r.maxBytes :=
  maxBytes_feed (feed_eq c r)

/-- **In a calm run the results of a key are those of its calls alone.** -/
theorem aloneAll_eq (hc : Along after Calm cs r) (key : FlowKey) :
    aloneAll r.maxBytes (argsOf key cs) (view key r) = .ok (resultsOf key cs r) := by
  induction cs generalizing r with
  | nil => rfl
  | cons c cs ih =>
    have hr := ih hc.2
    rw [maxBytes_after] at hr
    by_cases hk : c.key = key
    · subst hk
      have ha : argsOf c.key (c :: cs) =
          (c.seq, c.payload, c.finRst) :: argsOf c.key cs := by simp [argsOf]
      rw [ha, aloneAll, alone_of_calm hc.1, resultsOf, if_pos rfl]
      exact congrArg (· >>= fun results => .ok (c.result r :: results)) hr
    · have ha : argsOf key (c :: cs) = argsOf key cs := by simp [argsOf, hk]
      rw [view_of_ne hc.1 (Ne.symm hk)] at hr
      rw [ha, hr, resultsOf, if_neg hk]

theorem bounded_run (hr : r.Bounded) (cs : List FeedCall) : (run after cs r).Bounded ∧
    (run after cs r).maxFlows = r.maxFlows ∧ (run after cs r).maxBytes = r.maxBytes := by
  refine run_invariant (I := fun r' : TcpReassembler => r'.Bounded ∧ r'.maxFlows = r.maxFlows ∧
    r'.maxBytes = r.maxBytes) ?_ cs ⟨hr, rfl, rfl⟩
  rintro c r' ⟨hr', hf, hb⟩
  obtain ⟨ha, hf', hb'⟩ := bounded_after hr'
  exact ⟨ha, hf'.trans hf, hb'.trans hb⟩

/-- **Bounds and separation of flows.** At most `max_flows` flows have `max_bytes` bytes each;
without evictions and full tables the results for a key depend on its own calls. -/
theorem bounded_and_separate (hempty : r.flows = ∅) (cs : List FeedCall) :
    (run after cs r).flows.size ≤ r.maxFlows ∧
    (∀ key flow, (run after cs r).flows.lookup key = some flow →
      flow.buffer.length ≤ r.maxBytes) ∧
    ∀ key cs', Along after Calm cs r → Along after Calm cs' r → argsOf key cs = argsOf key cs' →
      resultsOf key cs r = resultsOf key cs' r := by
  have hr : r.Bounded := by
    refine ⟨?_, fun key flow hf => ?_⟩
    · rw [hempty]
      exact Nat.zero_le _
    · rw [hempty] at hf
      cases hf
  obtain ⟨hb, hfl, hby⟩ := bounded_run hr cs
  refine ⟨hfl ▸ hb.flows_le, hby ▸ hb.buffer_le, ?_⟩
  intro key cs' hc hc' har
  have ha := aloneAll_eq hc key
  rw [har, aloneAll_eq hc' key] at ha
  exact (Except.ok.inj ha).symm

def sampleCall (seq : ℕ) (payload : Bytes) (finRst : Bool) : FeedCall :=
  ⟨0, ⟨0x0a000001, 0x0a000002, 0x3039, 443⟩, seq, payload, finRst⟩

/-- The two halves of a hello with a segment of another flow between them, and without it. -/
theorem separate_halves :
    resultsOf ⟨0x0a000001, 0x0a000002, 0x3039, 443⟩ [sampleCall 1 (smallHello.bytes.take 30) false,
          ⟨7, ⟨0x0a000003, 0x0a000002, 0x3039, 443⟩, 31, smallHello.bytes.drop 30, false⟩,
          sampleCall 31 (smallHello.bytes.drop 30) false] .new =
      resultsOf ⟨0x0a000001, 0x0a000002, 0x3039, 443⟩
        [sampleCall 1 (smallHello.bytes.take 30) false,
          sampleCall 31 (smallHello.bytes.drop 30) false] .new ∧
    resultsOf ⟨0x0a000001, 0x0a000002, 0x3039, 443⟩ [sampleCall 1 (smallHello.bytes.take 30) false,
          sampleCall 31 (smallHello.bytes.drop 30) false] .new = [none, some ['a']] :=
  ⟨(bounded_and_separate rfl _).2.2 _ _ (by decide +kernel) (by decide +kernel) (by decide +kernel),
    by decide +kernel⟩

def since (key : FlowKey) (cs : List FeedCall) : List FeedCall :=
  cs.foldl (fun kept c => if c.key ≠ key then kept else if c.finRst then [] else kept ++ [c]) []

theorem since_concat (key : FlowKey) (cs : List FeedCall) (c : FeedCall) : since key (cs ++ [c]) =
      if c.key ≠ key then since key cs else if c.finRst then [] else since key cs ++ [c] := by
  rw [since, List.foldl_append]
  rfl

def Gathered (cs : List FeedCall) (bytes : Bytes) : Prop :=
  ∃ pieces : List Bytes, bytes = pieces.flatten ∧
    ∀ piece ∈ pieces, ∃ c ∈ cs, piece <:+ c.payload

def Named (cs : List FeedCall) (host : Text) : Prop :=
  ∃ bytes, Gathered cs bytes ∧ extractTlsSni bytes = .ok (some host)

theorem gathered_nil (cs : List FeedCall) : Gathered cs [] :=
  ⟨[], rfl, fun _ hp => absurd hp List.not_mem_nil⟩

theorem Gathered.mono (h : Gathered cs bytes) (hcs : cs ⊆ cs') : Gathered cs' bytes := by
  obtain ⟨pieces, rfl, hp⟩ := h
  refine ⟨pieces, rfl, fun piece hpi => ?_⟩
  obtain ⟨c, hc, he⟩ := hp piece hpi
  exact ⟨c, hcs hc, he⟩

theorem Gathered.append_drop (h : Gathered cs bytes) (c : FeedCall) (n : ℕ) :
    Gathered (cs ++ [c]) (bytes ++ c.payload.drop n) := by
  obtain ⟨pieces, rfl, hp⟩ := h.mono (List.subset_append_left cs [c])
  refine ⟨pieces ++ [c.payload.drop n], by simp, fun piece hpi => ?_⟩
  rcases List.mem_append.1 hpi with ho | hn
  · exact hp piece ho
  · rw [List.mem_singleton.1 hn]
    exact ⟨c, by simp, List.drop_suffix ..⟩

theorem Named.mono {host : Text} (h : Named cs host) (hcs : cs ⊆ cs') : Named cs' host := by
  obtain ⟨bytes, hb, hh⟩ := h
  exact ⟨bytes, hb.mono hcs, hh⟩

def Flow.From (flow : Flow) (cs : List FeedCall) : Prop :=
  Gathered cs flow.buffer ∧ ∀ host, flow.decided = some host → Named cs host

theorem Flow.From.mono {flow : Flow} (h : flow.From cs) (hcs : cs ⊆ cs') : flow.From cs' :=
  ⟨h.1.mono hcs, fun host hh => (h.2 host hh).mono hcs⟩

theorem Flow.From.takes {flow flow' : Flow} (h : flow.From cs) {dropFlow : Bool}
    (ht : flow.Takes maxBytes c.payload flow' result dropFlow) :
    (dropFlow = false → flow'.From (cs ++ [c])) ∧
      ∀ host, result = some host → Named (cs ++ [c]) host := by
  have hm := h.mono (List.subset_append_left cs [c])
  cases ht with
  | dropped => exact ⟨nofun, nofun⟩
  | unchanged => exact ⟨fun _ => hm, hm.2⟩
  | appended n hd hl hr =>
    have hb := h.1.append_drop c n
    rcases hr with ⟨host, hh, rfl, rfl⟩ | ⟨-, rfl, rfl⟩
    · have hn : ∀ host', some host = some host' → Named (cs ++ [c]) host' := by
        rintro host' ⟨⟩
        exact ⟨_, hb, hh⟩
      exact ⟨fun _ => ⟨gathered_nil _, hn⟩, hn⟩
    · refine ⟨fun _ => ⟨hb, fun host hh => ?_⟩, nofun⟩
      rw [show flow.decided = some host from hh] at hd
      cases hd

namespace FeedCall

variable {c : FeedCall}

/-- A FIN or RST leaves no flow behind. -/
def Closes (c : FeedCall) (r : TcpReassembler) : Prop :=
  c.finRst = true → (c.after r).flows.lookup c.key = none
  deriving Decidable

def ClosesWithData (c : FeedCall) (r : TcpReassembler) : Prop :=
  c.finRst = true → c.payload ≠ [] ∨ (r.sweep c.now).flows.lookup c.key = none
  deriving Decidable

theorem closes_iff : c.Closes r ↔ c.ClosesWithData r := by
  refine imp_congr_right fun hf => ?_
  by_cases he : c.payload = []
  · rw [(of_nil he).2, or_iff_right (not_not.2 he)]
  · rw [(of_closing he hf).2]
    exact iff_of_true (AList.lookup_erase ..) (.inl he)

end FeedCall

def AllSince (cs : List FeedCall) (r : TcpReassembler) : Prop :=
  ∀ key flow, r.flows.lookup key = some flow → flow.From (since key cs)

theorem AllSince.thins {r' : TcpReassembler} (h : AllSince cs r) (ht : Thins r r') :
    AllSince cs r' := by
  intro key flow hf
  rcases ht.lookup_eq key with hs | hn
  · exact h key flow (hs ▸ hf)
  · rw [hn] at hf
    cases hf

theorem AllSince.after_of_ne (h : AllSince cs r) {key : FlowKey} {flow : Flow}
    (hne : key ≠ c.key) (hf : (c.after r).flows.lookup key = some flow) :
    flow.From (since key (cs ++ [c])) := by
  rw [since_concat, if_pos (Ne.symm hne)]
  rcases lookup_feed_of_ne hne (feed_eq c r) with hs | hn
  · exact h key flow (hs ▸ hf)
  · rw [hn] at hf
    cases hf

theorem result_of_finRst (hf : c.finRst) : c.result r = none := by
  by_cases he : c.payload = []
  · exact (of_nil he).1
  · exact (of_closing he hf).1

theorem AllSince.after_of_open (h : AllSince cs r) (hfi : c.finRst = false) :
    (∀ flow, (c.after r).flows.lookup c.key = some flow → flow.From (since c.key cs ++ [c])) ∧
      ∀ host, c.result r = some host → Named (since c.key cs ++ [c]) host := by
  have hm : ∀ {r'}, Thins r r' → ∀ flow, r'.flows.lookup c.key = some flow →
      flow.From (since c.key cs ++ [c]) := fun ht flow hf =>
    (h.thins ht c.key flow hf).mono (List.subset_append_left ..)
  rcases cases_of c r with he | ⟨-, hfi'⟩ | ⟨r', hfe, hro | hro⟩
  · obtain ⟨hr, ha⟩ := of_nil he
    rw [hr, ha]
    exact ⟨hm (thins_sweep ..), nofun⟩
  · rw [hfi] at hfi'
    cases hfi'
  · obtain ⟨hr, ha⟩ := of_refused hfe (by rw [hro])
    rw [hr, ha, hro]
    exact ⟨hm (thins_admitted hro), nofun⟩
  · obtain ⟨flow, result, dropFlow, hta, hr, ha⟩ := of_admitted hfe hro
    have hin : (c.flowIn r').From (since c.key cs) := by
      unfold flowIn
      cases hf : r'.flows.lookup c.key with
      | none => exact ⟨gathered_nil _, nofun⟩
      | some kept => exact h.thins (thins_admitted hro) c.key kept hf
    obtain ⟨hk, hn⟩ := hin.takes (Flow.takes_of_take hfe.1 hta)
    rw [hr, lookup_admitted ha]
    refine ⟨fun flow' hf => ?_, hn⟩
    cases dropFlow with
    | true => cases hf
    | false =>
      cases hf
      exact hk rfl

/-- **One call**: what flows know comes from the calls since the last closing one. -/
theorem AllSince.after (h : AllSince cs r) (hc : c.Closes r) : AllSince (cs ++ [c]) (c.after r) ∧
      ∀ host, c.result r = some host → Named (since c.key (cs ++ [c])) host := by
  have ho : (∀ flow, (c.after r).flows.lookup c.key = some flow →
      flow.From (since c.key (cs ++ [c]))) ∧
      ∀ host, c.result r = some host → Named (since c.key (cs ++ [c])) host := by
    rw [since_concat, if_neg (not_not.2 rfl)]
    cases hfi : c.finRst with
    | true =>
      rw [hc hfi, result_of_finRst hfi]
      exact ⟨nofun, nofun⟩
    | false => exact h.after_of_open hfi
  refine ⟨fun key flow hf => ?_, ho.2⟩
  by_cases hk : key = c.key
  · subst hk
    exact ho.1 flow hf
  · exact h.after_of_ne hk hf

theorem allSince_run (he : r.flows = ∅) (hc : Along after Closes cs r) :
    AllSince cs (run after cs r) := by
  induction cs using List.reverseRecOn with
  | nil =>
    intro key flow hf
    rw [show (run after [] r).flows = ∅ from he] at hf
    cases hf
  | append_singleton cs c ih =>
    obtain ⟨hb, hl, -⟩ := along_append.1 hc
    rw [run_append]
    exact ((ih hb).after hl).1

/-- **Closed flows.** A closed flow is not tracked, and a host is read off the data since, exactly
if every closing call carries data or finds its flow untracked. -/
theorem closed_flows_iff (hempty : r.flows = ∅) (cs : List FeedCall) :
    (Along after Closes cs r ∧ ∀ pre c post host, cs = pre ++ c :: post →
      c.result (run after pre r) = some host → Named (since c.key (pre ++ [c])) host) ↔
    Along after ClosesWithData cs r := by
  have hi : Along after Closes cs r ↔ Along after ClosesWithData cs r :=
    along_congr (I := fun _ => True) (fun _ _ _ _ => closes_iff) (fun _ _ _ _ _ => trivial) trivial
  rw [← hi]
  refine ⟨And.left, fun hc => ⟨hc, ?_⟩⟩
  rintro pre c post host rfl hh
  obtain ⟨hb, hca, -⟩ := along_append.1 hc
  exact ((allSince_run hempty hb).after hca).2 host hh

/-- A connection for the host `a` that ends with a FIN that carries a byte. -/
theorem closed_flow_with_data :
    (run after [sampleCall 1 smallHello.bytes false, sampleCall 63 [0x17] true] .new).flows.lookup
      (sampleCall 63 [0x17] true).key = none := by
  have hr := (closed_flows_iff (r := .new) rfl
    [sampleCall 1 smallHello.bytes false, sampleCall 63 [0x17] true]).2 (by decide +kernel)
  exact hr.1.2.1 rfl

/-- After a bare FIN the first segment of the next connection, no hello, is given the host. -/
theorem bare_fin_keeps_host :
    ¬(Along after Closes [sampleCall 1 smallHello.bytes false, sampleCall 63 [] true] .new) ∧
    (sampleCall 500 [0x17, 3, 3] false).result (run after
      [sampleCall 1 smallHello.bytes false, sampleCall 63 [] true] .new) = some ['a'] := by
  decide +kernel

end BalanSir.B4
