/-
# The response cache over its history

`DnsCache` against the list of all that was put.
-/

import BalanSir.Dns.Forwarder

namespace BalanSir.Dns

open Lib

inductive CacheCall
  | get (query : List UInt8) (now : ℕ)
  | put (query response : List UInt8) (now : ℕ)
deriving DecidableEq

namespace CacheCall

def step (cap : ℕ) : CacheCall → DnsCache → DnsCache
  | get query now, cache => (cache.get query now).2
  | put query response now, cache => cache.put query response cap now

def stores (query : List UInt8) : CacheCall → Option (List UInt8 × ℕ)
  | get _ _ => none
  | put query' response now => if query' = query then some (response, now + cacheTtl) else none

end CacheCall

open CacheCall

def lastPut (query : List UInt8) (calls : List CacheCall) : Option (List UInt8 × ℕ) :=
  (calls.filterMap (stores query)).getLast?

theorem lastPut_concat (query : List UInt8) (calls : List CacheCall) (call : CacheCall) :
    lastPut query (calls ++ [call]) = (call.stores query).or (lastPut query calls) := by
  rw [lastPut, List.filterMap_append, List.getLast?_append]
  cases h : call.stores query with
  | none => rw [List.filterMap_cons_none h]; rfl
  | some entry => rw [List.filterMap_cons_some h]; rfl

/-- Within the capacity, and every entry is the last that was put for its query. -/
structure Faithful (cap : ℕ) (calls : List CacheCall) (cache : DnsCache) : Prop where
  size : cache.size ≤ cap
  entries : ∀ query entry, cache.lookup query = some entry → lastPut query calls = some entry

variable {cap : ℕ} {calls : List CacheCall} {cache : DnsCache}

theorem Faithful.get (h : Faithful cap calls cache) (query : List UInt8) (now : ℕ) :
    Faithful cap (calls ++ [.get query now]) (step cap (.get query now) cache) := by
  have hc : (step cap (.get query now) cache = cache ∨
      step cap (.get query now) cache = cache.erase query) := by
    rw [step, DnsCache.get]
    split
    · split_ifs
      · exact .inl rfl
      · exact .inr rfl
    · exact .inl rfl
  obtain heq | heq := hc
  · rw [heq]
    exact ⟨h.size, fun q e hq => by rw [lastPut_concat]; exact h.entries q e hq⟩
  · rw [heq]
    refine ⟨(Table.size_erase_le query cache).trans h.size, fun q e hq => ?_⟩
    rw [lastPut_concat]
    by_cases hne : q = query
    · subst hne
      rw [AList.lookup_erase] at hq
      cases hq
    · rw [AList.lookup_erase_ne hne] at hq
      exact h.entries q e hq

/-- What `put` leaves of the cache before it stores. -/
theorem exists_put (cache : DnsCache) (query response : List UInt8) (now : ℕ) (hc : cap ≠ 0) :
    ∃ kept : DnsCache, cache.put query response cap now =
        kept.insert query (response, now + cacheTtl) ∧ kept.size < cap ∧
      ∀ q entry, kept.lookup q = some entry → cache.lookup q = some entry := by
  unfold DnsCache.put
  rw [if_neg hc]
  dsimp only
  refine ⟨_, rfl, ?_⟩
  split_ifs with hfu hf
  · exact ⟨Nat.pos_of_ne_zero hc, fun q entry h => by cases h⟩
  · refine ⟨Nat.not_le.1 hf, fun q entry h => ?_⟩
    rw [Table.lookup_retain] at h
    exact (Option.filter_eq_some_iff.1 h).1
  · exact ⟨Nat.not_le.1 hfu, fun q entry h => h⟩

theorem Faithful.put (h : Faithful cap calls cache) (query response : List UInt8) (now : ℕ) :
    Faithful cap (calls ++ [.put query response now])
      (step cap (.put query response now) cache) := by
  rw [step]
  by_cases hc : cap = 0
  · have he : cache = ∅ := by
      subst hc
      exact AList.ext (List.eq_nil_of_length_eq_zero (Nat.le_zero.1 h.size))
    rw [DnsCache.put, if_pos hc, he]
    exact ⟨Nat.zero_le cap, fun q entry h => by cases h⟩
  · obtain ⟨kept, heq, hs, hk⟩ := exists_put cache query response now hc
    rw [heq]
    refine ⟨(Table.size_insert_le ..).trans hs, fun q entry hq => ?_⟩
    rw [lastPut_concat, stores]
    by_cases hqu : query = q
    · subst hqu
      rw [AList.lookup_insert] at hq
      rw [if_pos rfl, hq, Option.some_or]
    · rw [AList.lookup_insert_ne (Ne.symm hqu)] at hq
      rw [if_neg hqu]
      exact h.entries q entry (hk q entry hq)

/-- **The cache tells only what was put last**, before it expires, and keeps to its capacity. -/
theorem cache_faithful (cap : ℕ) (calls : List CacheCall) :
    (run (step cap) calls ∅).size ≤ cap ∧
      ∀ query now, ((run (step cap) calls ∅).get query now).1 = none ∨
        ∃ response expires, lastPut query calls = some (response, expires) ∧ now < expires ∧
          ((run (step cap) calls ∅).get query now).1 = some response := by
  have h : Faithful cap calls (run (step cap) calls ∅) := by
    induction calls using List.reverseRecOn with
    | nil => exact ⟨Nat.zero_le cap, fun query entry h => by cases h⟩
    | append_singleton calls call ih =>
      rw [run_append]
      cases call with
      | get query now => exact ih.get query now
      | put query response now => exact ih.put query response now
  refine ⟨h.size, fun query now => ?_⟩
  rw [DnsCache.get]
  split
  next response expires hl =>
    split_ifs with hn
    · exact .inr ⟨response, expires, h.entries query _ hl, hn, rfl⟩
    · exact .inl rfl
  · exact .inl rfl

end BalanSir.Dns
