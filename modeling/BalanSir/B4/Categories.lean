/-
# Loading the categories

`GeositeStore::load` and the files it reads, with their `include` lines.
-/

import BalanSir.B4.Geosite
import BalanSir.Lib.Run
import BalanSir.Lib.Visit

namespace BalanSir.B4

open Lib List
open Relation (ReflTransGen)

def builtinRules (name : String) : Option (List String) :=
  match name with
  | "youtube" => some
      ["youtube.com", "youtube-nocookie.com", "googlevideo.com", "ytimg.com", "youtu.be",
        "ggpht.com", "youtubei.googleapis.com", "youtube.googleapis.com", "googlesyndication.com"]
  | "discord" => some
      ["discord.com", "discordapp.com", "discord.gg", "discord.media", "discordapp.net",
        "discordstatus.com", "discord.co", "discord.gifts", "discordmerch.com"]
  | "google" => some
      ["google.com", "googleapis.com", "googleusercontent.com", "gstatic.com", "google.ru",
        "google.de", "ggpht.com", "google-analytics.com", "googletagmanager.com", "1e100.net"]
  | "cloudflare" => some
      ["cloudflare.com", "cloudflare-dns.com", "cloudflareclient.com", "cloudflareinsights.com",
        "workers.dev", "cf-ipfs.com"]
  | "twitter" => some ["twitter.com", "x.com", "twimg.com", "t.co", "twittervid.com"]
  | _ => none

def GeositeStore.addBuiltin (store : GeositeStore) (name : String) : GeositeStore :=
  match builtinRules name with
  | none => store
  | some rules =>
    ⟨store.categories.insert name.toList
      ⟨[], rules.foldl (fun set rule => set.insert rule.toList) [], []⟩⟩

def GeositeStore.builtin : GeositeStore :=
  ["youtube", "discord", "google", "cloudflare", "twitter"].foldl GeositeStore.addBuiltin ⟨∅⟩

inductive Line where
  | nothing
  | included (name : Text)
  | suffix (domain : Text)
  | exact (domain : Text)
  | keyword (word : Text)
  deriving DecidableEq

def parseLine (line : Text) : Line :=
  let line := trim line
  if line = [] || startsWith line ['#'] then .nothing
  else match stripPrefix line "include:".toList with
  | some included => .included included
  | none => match stripPrefix line "+.".toList with
  | some suffix => .suffix (toAsciiLowercase suffix)
  | none => match stripPrefix line "full:".toList with
  | some full => .exact (toAsciiLowercase full)
  | none => match stripPrefix line "keyword:".toList with
  | some kw => .keyword (toAsciiLowercase kw)
  | none =>
    if startsWith line "regexp:".toList || startsWith line "domain:".toList then
      match stripPrefix line "domain:".toList with
      | some d => .suffix (toAsciiLowercase d)
      | none => .nothing
    else if !startsWith line ['+'] then .exact (toAsciiLowercase line)
    else .nothing

def Line.included? : Line → Option Text
  | .included name => some name
  | _ => none

namespace GeositeCategory

def empty : GeositeCategory := ⟨[], [], []⟩

def add (line : Line) (cat : GeositeCategory) : GeositeCategory :=
  match line with
  | .suffix domain => { cat with suffixes := cat.suffixes.insert domain }
  | .exact domain => { cat with exact := cat.exact.insert domain }
  | .keyword word => { cat with keywords := cat.keywords.insert word }
  | .nothing | .included _ => cat

theorem add_self (line : Line) (cat : GeositeCategory) :
    (cat.add line).add line = cat.add line := by
  cases line <;> simp [add]

theorem insert_eq_self {rule : Text} {rules : List Text} :
    rules.insert rule = rules ↔ rule ∈ rules :=
  ⟨fun h => h ▸ mem_insert_self, insert_of_mem⟩

theorem add_keeps {line : Line} {cat : GeositeCategory} (h : cat.add line = cat) (line' : Line) :
    (cat.add line').add line = cat.add line' := by
  obtain ⟨exact, suffixes, keywords⟩ := cat
  cases line <;> cases line' <;> simp_all [add, insert_eq_self]

def addAll (source : Text) (cat : GeositeCategory) : GeositeCategory :=
  run (fun line cat => cat.add (parseLine line)) (lines source) cat

theorem addAll_again (source : Text) (cat : GeositeCategory) :
    (cat.addAll source).addAll source = cat.addAll source :=
  run_again (fun line cat => add_self (parseLine line) cat)
    (fun _ line' _ h => add_keeps h (parseLine line')) (lines source) cat

end GeositeCategory

/-- The texts of a directory, by path. -/
structure Files where
  read : Text → Option Text
  contents : List Text
  mem_contents : ∀ {path text}, read path = some text → text ∈ contents

def Files.ofList (l : List (Text × Text)) : Files where
  read path := (l.find? fun file => file.1 = path).map Prod.snd
  contents := l.map Prod.snd
  mem_contents h := by
    obtain ⟨file, hfile, rfl⟩ := Option.map_eq_some_iff.1 h
    exact mem_map_of_mem (mem_of_find?_eq_some hfile)

def txtFile (name : Text) : Text := name ++ ".txt".toList

def readLine (files : Files) (recurse : GeositeStore → Text → Text → Option GeositeStore)
    (acc : GeositeStore × GeositeCategory) (line : Text) :
    Option (GeositeStore × GeositeCategory) :=
  match parseLine line with
  | .included included =>
    match files.read (txtFile included) with
    | some raw => (recurse acc.1 included raw).map fun store => (store, acc.2)
    | none => some acc
  | rule => some (acc.1, acc.2.add rule)

def parseCategorySource (files : Files) :
    ℕ → GeositeStore → Text → Text → List Text → Option GeositeStore
  | 0, _, _, _, _ => none
  | fuel + 1, store, name, source, seen =>
    if seen.contains name then some store
    else do
      let cat := (store.get name).getD .empty
      let (store, cat) ← (lines source).foldlM
        (readLine files fun store included raw =>
          parseCategorySource files fuel store included raw (name :: seen)) (store, cat)
      return ⟨store.categories.insert name cat⟩

def loadCategory (files : Files) (fuel : ℕ) (store : GeositeStore) (entry : Text × Text) :
    Option GeositeStore :=
  match files.read entry.2 with
  | some raw => parseCategorySource files fuel store entry.1 raw []
  | none => some store

def pendingEntry (path : Text) : Option (Text × Text) :=
  match rsplitOnceAt '.' path with
  | some (stem, extension) =>
    if stem ≠ [] ∧ extension = "txt".toList then some (stem, path) else none
  | none => none

def loadDir (files : Files) (fuel : ℕ) (entries : Option (List Text)) (store : GeositeStore) :
    Option GeositeStore :=
  match entries with
  | none => some store
  | some entries => (entries.filterMap pendingEntry).foldlM (loadCategory files fuel) store

def GeositeStore.load (files : Files) (fuel : ℕ) (entries : Option (List Text)) :
    Option GeositeStore :=
  loadDir files fuel entries .builtin

namespace Files

variable (files : Files)

def includedIn (ls : List Text) : List Text := ls.filterMap fun line => (parseLine line).included?

def includes (name : Text) : List Text :=
  match files.read (txtFile name) with
  | some source => includedIn (lines source)
  | none => []

def isFile (name : Text) : Bool := (files.read (txtFile name)).isSome

def opens (name : Text) : List Text := (files.includes name).filter files.isFile

def rules (name : Text) (old : Option GeositeCategory) : GeositeCategory :=
  (old.getD .empty).addAll ((files.read (txtFile name)).getD [])

def loaded (names : List Text) (store : GeositeStore) : GeositeStore :=
  ⟨names.foldl (Table.update files.rules) store.categories⟩

end Files

variable {files : Files} {fuel : ℕ} {name source : Text} {seen : List Text} {entries : List Text}

theorem get_loaded (names : List Text) (store : GeositeStore) (name : Text) : (name ∈ names →
      (files.loaded names store).get name = some (files.rules name (store.get name))) ∧
    (name ∉ names → (files.loaded names store).get name = store.get name) :=
  Table.lookup_foldl_update (g := files.rules) (fun _ _ => GeositeCategory.addAll_again _ _) names
    store.categories name

theorem loaded_append (names names' : List Text) (store : GeositeStore) :
    files.loaded (names ++ names') store = files.loaded names' (files.loaded names store) := by
  rw [Files.loaded, foldl_append]
  rfl

section Lines

variable {recurse : GeositeStore → Text → Text → Option GeositeStore} {line included : Text}

theorem readLine_of_none (h : (parseLine line).included? = none)
    (acc : GeositeStore × GeositeCategory) :
    readLine files recurse acc line = some (acc.1, acc.2.add (parseLine line)) := by
  unfold readLine
  cases hl : parseLine line with
  | included name => simp [hl, Line.included?] at h
  | nothing | suffix domain | exact domain | keyword word => rfl

theorem included_of_some (h : (parseLine line).included? = some included) :
    parseLine line = .included included := by
  cases hl : parseLine line with
  | included name =>
    rw [hl] at h
    rw [Option.some.inj h]
  | nothing | suffix domain | exact domain | keyword word => simp [hl, Line.included?] at h

theorem includedIn_of_none (h : (parseLine line).included? = none) (ls : List Text) :
    Files.includedIn (line :: ls) = Files.includedIn ls := filterMap_cons_none h

theorem includedIn_of_some (h : (parseLine line).included? = some included) (ls : List Text) :
    Files.includedIn (line :: ls) = included :: Files.includedIn ls := filterMap_cons_some h

theorem foldlM_readLine {visited : Text → Option (List Text)}
    (hre : ∀ store included raw, files.read (txtFile included) = some raw →
      recurse store included raw = (visited included).map fun names => files.loaded names store)
    (ls : List Text) (store : GeositeStore) (cat : GeositeCategory) :
    ls.foldlM (readLine files recurse) (store, cat) =
      (((Files.includedIn ls).filter files.isFile).mapM visited).map fun below =>
        (files.loaded below.flatten store,
          run (fun line cat => cat.add (parseLine line)) ls cat) := by
  induction ls generalizing store cat with
  | nil => rfl
  | cons line ls ih =>
    rw [foldlM_cons, run]
    cases hl : (parseLine line).included? with
    | none =>
      rw [readLine_of_none hl, includedIn_of_none hl]
      exact ih store (cat.add (parseLine line))
    | some name =>
      have hk : cat.add (parseLine line) = cat := by
        rw [included_of_some hl, GeositeCategory.add]
      rw [hk, readLine, included_of_some hl, includedIn_of_some hl]
      cases hr : files.read (txtFile name) with
      | none =>
        rw [filter_cons_of_neg (by simp [Files.isFile, hr])]
        simp only [hr]
        exact ih store cat
      | some raw =>
        rw [filter_cons_of_pos (by simp [Files.isFile, hr]), mapM_cons]
        simp only [hr, hre store name raw hr]
        cases visited name with
        | none => rfl
        | some names =>
          refine (ih (files.loaded names store) cat).trans ?_
          cases ((Files.includedIn ls).filter files.isFile).mapM visited with
          | none => rfl
          | some below => simp [loaded_append]

end Lines

/-- **What `parse_category_source` does**: it visits what can be reached and makes each category
from its own file. -/
theorem parseCategorySource_eq (h : files.read (txtFile name) = some source)
    (store : GeositeStore) : parseCategorySource files fuel store name source seen =
      (visit files.opens fuel seen name).map fun names => files.loaded names store := by
  induction fuel generalizing store name source seen with
  | zero => rfl
  | succ fuel ih =>
    by_cases hs : name ∈ seen
    · rw [visit_of_mem hs, parseCategorySource, if_pos (List.contains_iff_mem.2 hs)]
      rfl
    rw [visit_of_not_mem hs, parseCategorySource, if_neg (by rwa [contains_iff_mem])]
    dsimp only
    have ho : files.opens name =
        (Files.includedIn (lines source)).filter files.isFile := by
      rw [Files.opens, Files.includes, h]
    rw [foldlM_readLine fun store included raw hre => ih hre store, ← ho]
    cases hb : (files.opens name).mapM (visit files.opens fuel (name :: seen)) with
    | none => rfl
    | some below =>
      -- `name` is on the way of everything below it, so its category is still the old one
      have hn : name ∉ below.flatten := by
        rw [mem_flatten_of_mapM hb]
        rintro ⟨b, -, l, hl, hm⟩
        exact not_mem_visit hl hm mem_cons_self
      have hg : (files.loaded below.flatten store).get name = store.get name :=
        (get_loaded below.flatten store name).2 hn
      have hr : files.rules name (store.get name) =
          ((store.get name).getD .empty).addAll source := by
        rw [Files.rules, h]
        rfl
      have hla (store : GeositeStore) : files.loaded [name] store =
          ⟨store.categories.insert name (files.rules name (store.get name))⟩ := rfl
      rw [Option.map_some, Option.map_some, Option.map_some, loaded_append, hla, hg, hr]
      rfl

namespace Files

variable (files)

def pool : List Text := files.contents.flatMap fun source => includedIn (lines source)

def enough : ℕ := files.pool.length + 2

def IsEntry (path c : Text) : Prop := pendingEntry path = some (c, path) ∧ (files.read path).isSome

def InDirectory (entries : List Text) (c : Text) : Prop := ∃ path ∈ entries, files.IsEntry path c

def Reached (entries : List Text) (name : Text) : Prop :=
  ∃ c, files.InDirectory entries c ∧ ReflTransGen (fun a b => b ∈ files.opens a) c name

end Files

theorem eq_of_pendingEntry {path path' c : Text} (h : pendingEntry path = some (c, path')) :
    path' = path ∧ path = txtFile c := by
  unfold pendingEntry at h
  cases hs : rsplitOnceAt '.' path with
  | none => simp [hs] at h
  | some parts =>
    simp only [hs] at h
    split_ifs at h with ht
    cases h
    refine ⟨rfl, ?_⟩
    rw [eq_of_rsplitOnceAt hs, ht.2]
    rfl

theorem opens_subset_pool {a b : Text} (h : b ∈ files.opens a) : b ∈ files.pool := by
  have hb : b ∈ files.includes a := (List.mem_filter.1 h).1
  unfold Files.includes at hb
  cases hr : files.read (txtFile a) with
  | none => simp [hr] at hb
  | some source =>
    rw [hr] at hb
    exact List.mem_flatMap.2 ⟨source, files.mem_contents hr, hb⟩

theorem visit_opens (hf : files.enough ≤ fuel) (name : Text) :
    ∃ names, visit files.opens fuel [] name = some names := by
  have hp : ∀ a, ∀ b ∈ files.opens a, b ∈ files.pool.toFinset :=
    fun a b hb => List.mem_toFinset.2 (opens_subset_pool hb)
  refine Option.isSome_iff_exists.1 (visit_isSome hp (Nat.lt_of_lt_of_le ?_ hf))
  calc (insert name files.pool.toFinset \ List.toFinset []).card
      ≤ (insert name files.pool.toFinset).card := Finset.card_le_card Finset.sdiff_subset
    _ ≤ files.pool.toFinset.card + 1 := Finset.card_insert_le _ _
    _ ≤ files.pool.length + 1 := Nat.succ_le_succ files.pool.toFinset_card_le
    _ < files.enough := Nat.lt_succ_self _

theorem reached_cons {path : Text} : files.Reached (path :: entries) name ↔
      (∃ c, files.IsEntry path c ∧ ReflTransGen (fun a b => b ∈ files.opens a) c name) ∨
        files.Reached entries name := by
  simp only [Files.Reached, Files.InDirectory, exists_mem_cons_iff]
  constructor
  · rintro ⟨c, hc | hc, hw⟩
    · exact .inl ⟨c, hc, hw⟩
    · exact .inr ⟨c, hc, hw⟩
  · rintro (⟨c, hc, hw⟩ | ⟨c, hc, hw⟩)
    · exact ⟨c, .inl hc, hw⟩
    · exact ⟨c, .inr hc, hw⟩

theorem loadCategory_eq (hf : files.enough ≤ fuel) {path : Text} {entry : Text × Text}
    (h : pendingEntry path = some entry) (store : GeositeStore) :
    ∃ names, loadCategory files fuel store entry = some (files.loaded names store) ∧
      ∀ name, name ∈ names ↔
        ∃ c, files.IsEntry path c ∧ ReflTransGen (fun a b => b ∈ files.opens a) c name := by
  obtain ⟨c, path'⟩ := entry
  obtain ⟨rfl, hfi⟩ := eq_of_pendingEntry h
  unfold loadCategory
  cases hr : files.read path' with
  | none =>
    refine ⟨[], rfl, fun name => ⟨fun h => absurd h not_mem_nil, ?_⟩⟩
    rintro ⟨c', ⟨-, hs⟩, -⟩
    simp [hr] at hs
  | some raw =>
    obtain ⟨names, hn⟩ := @visit_opens files fuel hf c
    refine ⟨names, ?_, fun name => ?_⟩
    · dsimp only
      rw [parseCategorySource_eq (hfi ▸ hr), hn, Option.map_some]
    · rw [mem_visit_nil hn]
      constructor
      · exact fun hw => ⟨c, ⟨h, by rw [hr]; rfl⟩, hw⟩
      · rintro ⟨c', ⟨hc', -⟩, hw⟩
        rw [h] at hc'
        cases hc'
        exact hw

theorem loadDir_eq (hf : files.enough ≤ fuel) (entries : List Text) (store : GeositeStore) :
    ∃ names, loadDir files fuel (some entries) store = some (files.loaded names store) ∧
      ∀ name, name ∈ names ↔ files.Reached entries name := by
  induction entries generalizing store with
  | nil => exact ⟨[], rfl, fun name => by simp [Files.Reached, Files.InDirectory]⟩
  | cons path entries ih =>
    unfold loadDir at ih ⊢
    dsimp only at ih ⊢
    cases hp : pendingEntry path with
    | none =>
      obtain ⟨names, hl, hm⟩ := ih store
      refine ⟨names, ?_, fun name => ?_⟩
      · rw [filterMap_cons_none hp, hl]
      · rw [hm, reached_cons, or_iff_right]
        rintro ⟨c, ⟨hc, -⟩, -⟩
        simp [hp] at hc
    | some entry =>
      obtain ⟨names₁, hl₁, hm₁⟩ := loadCategory_eq hf hp store
      obtain ⟨names₂, hl₂, hm₂⟩ := ih (files.loaded names₁ store)
      refine ⟨names₁ ++ names₂, ?_, fun name => ?_⟩
      · rw [filterMap_cons_some hp, foldlM_cons, hl₁, loaded_append]
        exact hl₂
      · rw [mem_append, hm₁, hm₂, reached_cons]

def Files.own (files : Files) (name : Text) : GeositeCategory :=
  files.rules name (GeositeStore.builtin.get name)

/-- **What is loaded:** a category that can be reached has its own rules. -/
theorem load_eq (hf : files.enough ≤ fuel) (entries : List Text) :
    ∃ store, GeositeStore.load files fuel (some entries) = some store ∧ ∀ name,
      (files.Reached entries name → store.get name = some (files.own name)) ∧
      (¬files.Reached entries name → store.get name = GeositeStore.builtin.get name) := by
  obtain ⟨names, hl, hm⟩ := loadDir_eq hf entries .builtin
  refine ⟨_, hl, fun name => ?_⟩
  rw [← hm]
  exact get_loaded names .builtin name

theorem reached_perm {entries entries' : List Text} (h : entries.Perm entries') (name : Text) :
    files.Reached entries name ↔ files.Reached entries' name := by
  simp only [Files.Reached, Files.InDirectory, h.mem_iff]

/-- **The order of the directory does not matter:** with enough fuel it is loaded, in any order to
the same categories. -/
theorem load_perm (files : Files) {entries entries' : List Text} (h : entries.Perm entries')
    {fuel fuel' : ℕ} (hfuel : files.enough ≤ fuel) (hfuel' : files.enough ≤ fuel') :
    ∃ store store', GeositeStore.load files fuel (some entries) = some store ∧
      GeositeStore.load files fuel' (some entries') = some store' ∧
      ∀ name, store.get name = store'.get name := by
  obtain ⟨store, hl, hg⟩ := load_eq hfuel entries
  obtain ⟨store', hl', hg'⟩ := load_eq hfuel' entries'
  refine ⟨store, store', hl, hl', fun name => ?_⟩
  by_cases hr : files.Reached entries name
  · rw [(hg name).1 hr, (hg' name).1 ((reached_perm h name).1 hr)]
  · rw [(hg name).2 hr,
      (hg' name).2 fun h' => hr ((reached_perm h name).2 h')]

def sampleFiles : Files :=
  .ofList [("a.txt".toList, "full:a.com\ninclude:b".toList),
    ("b.txt".toList, "# both\ninclude:a\n+.b.com\ninclude:b\n".toList)]

theorem sampleFiles_perm : ∃ store store',
      GeositeStore.load sampleFiles 5 (some ["a.txt".toList, "b.txt".toList]) = some store ∧
      GeositeStore.load sampleFiles 6 (some ["b.txt".toList, "a.txt".toList]) = some store' ∧
      ∀ name, store.get name = store'.get name :=
  load_perm sampleFiles (List.Perm.swap _ _ []) (by decide +kernel) (by decide +kernel)

def Files.Includes (files : Files) (c name : Text) : Prop :=
  ReflTransGen (fun a b => b ∈ files.includes a) c name

def Files.ClosureMatches (files : Files) (c host : Text) : Prop :=
  ∃ name, files.Includes c name ∧ (files.own name).matches host = true

/-- **Includes are not carried over.** A category matches what it and its includes have rules for
exactly when no include has a rule that its own do not cover. -/
theorem load_matches_iff (files : Files) {c : Text}
    (hc : files.InDirectory entries c) {fuel : ℕ} (hfuel : files.enough ≤ fuel) (host : Text) :
    ∃ store category, GeositeStore.load files fuel (some entries) = some store ∧
      store.get c = some category ∧ ((category.matches host = true ↔ files.ClosureMatches c host) ↔
        ∀ name, files.Includes c name → (files.own name).matches host = true →
          (files.own c).matches host = true) := by
  obtain ⟨store, hl, hg⟩ := load_eq hfuel entries
  refine ⟨store, files.own c, hl, (hg c).1 ⟨c, hc, .refl⟩, ?_⟩
  constructor
  · exact fun h name hw hn => h.2 ⟨name, hw, hn⟩
  · exact fun h => ⟨fun ho => ⟨c, .refl, ho⟩, fun ⟨name, hw, hn⟩ => h name hw hn⟩

theorem sampleFiles_matches_iff : ∃ store category,
      GeositeStore.load sampleFiles 5 (some ["a.txt".toList, "b.txt".toList]) = some store ∧
      store.get ['a'] = some category ∧
      ((category.matches "a.com".toList = true ↔
          sampleFiles.ClosureMatches ['a'] "a.com".toList) ↔
        ∀ name, sampleFiles.Includes ['a'] name →
          (sampleFiles.own name).matches "a.com".toList = true →
          (sampleFiles.own ['a']).matches "a.com".toList = true) :=
  load_matches_iff sampleFiles
    ⟨"a.txt".toList, mem_cons_self, by decide +kernel, by decide +kernel⟩
    (by decide +kernel) "a.com".toList

/-- `a` includes `b`, and `b` has a rule for `www.b.com`; `a` does not match it. -/
theorem sampleFiles_not_carried : ∃ store category,
      GeositeStore.load sampleFiles 5 (some ["a.txt".toList, "b.txt".toList]) = some store ∧
      store.get ['a'] = some category ∧ category.matches "www.b.com".toList = false ∧
      sampleFiles.ClosureMatches ['a'] "www.b.com".toList := by
  have hr : (GeositeStore.load sampleFiles 5 (some ["a.txt".toList, "b.txt".toList])).bind
      (fun store => (store.get ['a']).map fun category =>
        category.matches "www.b.com".toList) = some false := by decide +kernel
  obtain ⟨store, hl, hc⟩ := Option.bind_eq_some_iff.1 hr
  obtain ⟨category, hg, hm⟩ := Option.map_eq_some_iff.1 hc
  have hi : ['b'] ∈ sampleFiles.includes ['a'] := by decide +kernel
  exact ⟨store, category, hl, hg, hm, ['b'], .single hi, by decide +kernel⟩

end BalanSir.B4
