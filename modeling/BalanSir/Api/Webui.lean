/-
# The files of the web UI

`webui.rs`: the path of a request, and the file that `fallback` serves for it.
-/

import BalanSir.Lib.Split
import BalanSir.Lib.Text

namespace BalanSir.Api

open Lib List

inductive Component
  | rootDir
  | curDir
  | parentDir
  | normal (name : Text)
deriving DecidableEq

def push (buf path : Text) : Text :=
  if startsWith path ['/'] then path
  else if buf = [] ∨ endsWith buf ['/'] then buf ++ path
  else buf ++ '/' :: path

def parts (path : Text) : List Component :=
  ((path.splitOn '/').filter fun part => part ≠ [] && part ≠ ['.']).map fun part =>
    if part = ['.', '.'] then .parentDir else .normal part

def start (path : Text) : List Component :=
  if startsWith path ['/'] then [.rootDir]
  else if (path.splitOn '/').head? = some ['.'] then [.curDir]
  else []

def components (path : Text) : List Component := start path ++ parts path

def webuiDir (env : Option Text) (isFile : Text → Bool) : Option Text :=
  [env, some "webui/dist".toList, some "dist".toList].reduceOption.find? fun candidate =>
    !candidate.isEmpty && isFile (push candidate "index.html".toList)

def relOf (rel : Text) : List Text → Option Text
  | [] => some rel
  | segment :: rest =>
    if segment.isEmpty then relOf rel rest
    else if segment = ['.', '.'] ∨ segment.contains '\\' ∨ segment.contains '\x00' then none
    else relOf (push rel segment) rest

inductive Served
  | badRequest
  | notFound
  | file (path : Text)
deriving DecidableEq

def fallback (env : Option Text) (isFile : Text → Bool) (path : Text) : Served :=
  match relOf [] (path.splitOn '/') with
  | none => .badRequest
  | some rel =>
    match webuiDir env isFile with
    | none => .notFound
    | some dir =>
      let candidate := push dir rel
      if ¬(components dir).isPrefixOf (components candidate) then .badRequest
      else if isFile candidate then .file candidate
      else .file (push dir "index.html".toList)

def IsName (name : Text) : Prop := name ≠ [] ∧ name ≠ ['.'] ∧ name ≠ ['.', '.'] ∧ '/' ∉ name

/-- The path starts at no root, and its components are names. -/
structure Descends (rel : Text) : Prop where
  relative : startsWith rel ['/'] = false
  names : ∃ names : List Text, (∀ name ∈ names, IsName name) ∧ parts rel = names.map .normal

variable (front rel : Text)

theorem splitOn_append : splitOn '/' (front ++ '/' :: rel) = splitOn '/' front ++ splitOn '/' rel :=
  splitOnP_append_cons _ _ (beq_self_eq_true '/')

theorem parts_append : parts (front ++ '/' :: rel) = parts front ++ parts rel := by
  rw [parts, splitOn_append, filter_append, map_append]
  rfl

theorem startsWith_append_of_ne_nil {front : Text} (h : front ≠ []) (rel : Text) :
    startsWith (front ++ rel) ['/'] = startsWith front ['/'] := by
  cases front with
  | nil => exact absurd rfl h
  | cons c front => rfl

theorem head?_splitOn_append :
    (splitOn '/' (front ++ '/' :: rel)).head? = (splitOn '/' front).head? := by
  have hne : splitOn '/' front ≠ [] := splitOnP_ne_nil _ _
  rw [splitOn_append, head?_append_of_ne_nil _ hne]

theorem components_push {buf rel : Text} (hb : buf ≠ []) (hr : startsWith rel ['/'] = false) :
    components (push buf rel) = components buf ++ parts rel ∧
      startsWith (push buf rel) ['/'] = startsWith buf ['/'] ∧
      parts (push buf rel) = parts buf ++ parts rel := by
  unfold push
  rw [if_neg (by rw [hr]; exact Bool.false_ne_true)]
  split_ifs with hsl
  · obtain ⟨front, rfl⟩ := isSuffixOf_iff_suffix.1 (hsl.resolve_left hb)
    have hs := startsWith_append_of_ne_nil hb rel
    have hp : parts (front ++ ['/'] ++ rel) = parts (front ++ ['/']) ++ parts rel := by
      rw [append_assoc, singleton_append, parts_append, parts_append front []]
      simp [parts]
    refine ⟨?_, hs, hp⟩
    rw [components, start, hs, hp, ← append_assoc, components, start, append_assoc front,
      singleton_append, head?_splitOn_append, head?_splitOn_append]
  · have hs := startsWith_append_of_ne_nil hb ('/' :: rel)
    refine ⟨?_, hs, parts_append buf rel⟩
    rw [components, start, hs, head?_splitOn_append, parts_append, ← append_assoc]
    rfl

theorem descends_segment {segment : Text} (hne : segment ≠ []) (hd : segment ≠ ['.', '.'])
    (hs : '/' ∉ segment) : Descends segment := by
  refine ⟨Bool.eq_false_iff.2 (not_startsWith_of_notMem hs), ?_⟩
  have hsp : splitOn '/' segment = [segment] :=
    splitOnP_eq_singleton fun c hc => beq_false_of_ne (ne_of_mem_of_not_mem hc hs)
  rw [parts, hsp]
  by_cases hdo : segment = ['.']
  · exact ⟨[], by simp, by simp [hdo]⟩
  · exact ⟨[segment], by simp [IsName, hne, hdo, hd, hs], by simp [hne, hdo, hd]⟩

theorem Descends.push {rel segment : Text} (h : Descends rel) (hs : Descends segment) :
    Descends (push rel segment) := by
  by_cases hre : rel = []
  · subst hre
    unfold Api.push
    rw [if_neg (by rw [hs.relative]; exact Bool.false_ne_true)]
    exact hs
  · obtain ⟨-, hst, hp⟩ := components_push hre hs.relative
    obtain ⟨names, hn, hr⟩ := h.names
    obtain ⟨names', hn', hse⟩ := hs.names
    refine ⟨hst.trans h.relative, names ++ names', ?_, ?_⟩
    · exact forall_mem_append.2 ⟨hn, hn'⟩
    · rw [hp, hr, hse, map_append]

theorem descends_relOf {rel rel' : Text} {segments : List Text} (h : Descends rel)
    (hsl : ∀ segment ∈ segments, '/' ∉ segment) (hre : relOf rel segments = some rel') :
    Descends rel' := by
  induction segments generalizing rel with
  | nil =>
    cases hre
    exact h
  | cons segment rest ih =>
    obtain ⟨hs, hr⟩ := forall_mem_cons.1 hsl
    rw [relOf] at hre
    split_ifs at hre with he hb
    · exact ih h hr hre
    · refine ih (h.push (descends_segment ?_ (not_or.1 hb).1 hs)) hr hre
      simpa using he

/-- **No way out.** The file that is served has the components of the web UI directory,
then names. -/
theorem fallback_inside {env : Option Text} {isFile : Text → Bool} {path file : Text}
    (h : fallback env isFile path = .file file) :
    ∃ dir, webuiDir env isFile = some dir ∧ ∃ names : List Text,
      (∀ name ∈ names, IsName name) ∧ components file = components dir ++ names.map .normal := by
  unfold fallback at h
  cases hr : relOf [] (path.splitOn '/') with
  | none =>
    rw [hr] at h
    cases h
  | some rel =>
    cases hd : webuiDir env isFile with
    | none =>
      rw [hr, hd] at h
      cases h
    | some dir =>
      rw [hr, hd] at h
      have hne : dir ≠ [] := by
        have hf := find?_some hd
        simp only [Bool.and_eq_true] at hf
        simpa using hf.1
      have hi {rel : Text} (hr : Descends rel) : ∃ names : List Text,
          (∀ name ∈ names, IsName name) ∧
            components (push dir rel) = components dir ++ names.map .normal := by
        obtain ⟨names, hn, hp⟩ := hr.names
        exact ⟨names, hn, by rw [(components_push hne hr.relative).1, hp]⟩
      refine ⟨dir, rfl, ?_⟩
      dsimp only at h
      split_ifs at h
      · cases h
        refine hi (descends_relOf ⟨rfl, [], by simp, rfl⟩ ?_ hr)
        exact fun segment hs => notMem_of_mem_splitOn hs
      · cases h
        exact hi (descends_segment (by decide) (by decide) (by decide))

theorem fallback_inside_asset :
    ∃ dir, webuiDir (some "/srv/ui".toList) (fun _ => true) = some dir ∧ ∃ names : List Text,
      (∀ name ∈ names, IsName name) ∧
        components "/srv/ui/js/./app.js".toList = components dir ++ names.map .normal :=
  @fallback_inside _ _ "/js//./app.js".toList _ (by decide)

end BalanSir.Api
