import Paradigm.Proofs.Dictionary
import Paradigm.Registry

/-!
# Every history of a registry

A request has one of five outcomes, and only those that return a dictionary change what is loaded.
What a call does to the loaded dictionaries is read off its outcome, and what a run of calls does
follows by induction.  The files are those at the time of each call: no two calls need to find the
same.

## Main definitions

* `Registry.Requested`: the outcomes of a request
* `Registry.Call`, `Registry.afterCalls`: a run of calls
* `Registry.Keeps`: a language has its dictionary until another takes its place

## Main results

* `Registry.requested_request`: what one request does
* `Registry.loaded?_afterCalls`: what a run of calls keeps
* `Registry.request_afterCalls`: requests after any history
-/

namespace Paradigm

/-- The names of a map are those that have a value. -/
theorem NameMap.mem_names {α : Type} (m : NameMap α) (name : String) :
    name ∈ m.names ↔ (m.get? name).isSome := by
  simp only [names, get?, List.lookup_isSome_iff, List.mem_map, beq_iff_eq]
  constructor
  · rintro ⟨e, he, hname⟩
    exact ⟨e, he, hname.symm⟩
  · rintro ⟨e, he, hname⟩
    exact ⟨e, he, hname.symm⟩

/-- A fallback language is another language. -/
theorem Locale.fallbackLanguage_ne {locale : Locale} {fallback : String}
    (h : locale.fallbackLanguage = some fallback) : fallback ≠ locale.language := by
  rintro rfl
  rw [fallbackLanguage] at h
  split at h
  · rename_i hlanguage
    rw [← Option.some.inj h] at hlanguage
    revert hlanguage
    decide
  · cases h

/-- Different paths below a directory are different. -/
theorem joinPath_injective (directory : String) : Function.Injective (joinPath directory) := by
  intro path path' h
  unfold joinPath at h
  split at h
  all_goals
    rw [← String.toList_inj] at h
    simp only [String.toList_append, List.append_cancel_left_eq] at h
    exact String.toList_inj.1 h

/-- Every language has a dictionary of its own. -/
theorem Resources.dictionaryPath_injective (resources : Resources) :
    Function.Injective resources.dictionaryPath := by
  intro language language' h
  have hname := joinPath_injective _ h
  rw [← String.toList_inj] at hname
  simp only [String.toList_append, List.append_assoc, List.append_cancel_left_eq,
    List.append_cancel_right_eq] at hname
  exact String.toList_inj.1 hname

namespace Registry

variable {r : Registry} {files : Files} {language : String} {locale : Locale}
  {shared : SharedDictionary}

/-! ## Loaded dictionaries -/

theorem mem_languages : language ∈ r.languages ↔ (r.loaded? language).isSome :=
  r.loaded.mem_names language

theorem loaded?_share (r : Registry) (language other : String) (shared : SharedDictionary) :
    (r.share language shared).loaded? other =
      if other = language then some shared else r.loaded? other :=
  r.loaded.get?_insert other language shared

theorem loaded?_insert (r : Registry) (language other : String) (d : Dictionary) :
    (r.insert language d).loaded? other =
      if other = language then some ⟨r.loads, d⟩ else r.loaded? other :=
  r.loaded?_share language other ⟨r.loads, d⟩

/-! ## Requests -/

theorem obtain?_of_loaded (h : r.loaded? language = some shared) :
    obtain? files language r = .ok (some shared) r := by
  simp only [obtain?, bind, EStateM.bind, MonadState.get, getThe, MonadStateOf.get,
    EStateM.get, h]
  rfl

theorem obtain?_of_not_loaded (h : r.loaded? language = none) :
    obtain? files language r = load? files language r := by
  simp only [obtain?, bind, EStateM.bind, MonadState.get, getThe, MonadStateOf.get,
    EStateM.get, h]

theorem load?_of_not_isFile (h : (r.fileOf files language).isFile = false) :
    load? files language r = .ok none r := by
  simp only [load?, bind, EStateM.bind, MonadState.get, getThe, MonadStateOf.get,
    EStateM.get, h]
  rfl

theorem load?_of_ofFile_eq_error {cause : StorageError}
    (h : (r.fileOf files language).isFile = true)
    (hload : Dictionary.ofFile (r.fileOf files language) = .error cause) :
    load? files language r = .error (.storage cause) r := by
  simp only [load?, bind, EStateM.bind, MonadState.get, getThe, MonadStateOf.get,
    EStateM.get, if_pos h, hload]
  rfl

theorem load?_of_ofFile_eq_ok {d : Dictionary} (h : (r.fileOf files language).isFile = true)
    (hload : Dictionary.ofFile (r.fileOf files language) = .ok d) :
    load? files language r = .ok (some ⟨r.loads, d⟩) (r.insert language d) := by
  simp only [load?, bind, EStateM.bind, MonadState.get, getThe, MonadStateOf.get,
    EStateM.get, if_pos h, hload]
  rfl

/-- What the load of a file does: without a file nothing, with one that cannot be read it fails and
changes nothing, and otherwise the language has its dictionary. -/
theorem load?_cases (r : Registry) (files : Files) (language : String) :
    ((r.fileOf files language).isFile = false ∧ load? files language r = .ok none r) ∨
    (∃ d, (r.fileOf files language).isFile = true ∧
      Dictionary.ofFile (r.fileOf files language) = .ok d ∧
      load? files language r = .ok (some ⟨r.loads, d⟩) (r.insert language d)) ∨
    (∃ cause, (r.fileOf files language).isFile = true ∧
      Dictionary.ofFile (r.fileOf files language) = .error cause ∧
      load? files language r = .error (.storage cause) r) := by
  cases hfile : (r.fileOf files language).isFile with
  | false => exact .inl ⟨rfl, load?_of_not_isFile hfile⟩
  | true =>
    cases hload : Dictionary.ofFile (r.fileOf files language) with
    | ok d => exact .inr (.inl ⟨d, rfl, rfl, load?_of_ofFile_eq_ok hfile hload⟩)
    | error cause => exact .inr (.inr ⟨cause, rfl, rfl, load?_of_ofFile_eq_error hfile hload⟩)

/-- The outcomes of a request, each with what led to it. -/
inductive Requested (r : Registry) (files : Files) (locale : Locale) :
    EStateM.Result Error Registry SharedDictionary → Prop where
  /-- The language has its dictionary. -/
  | loaded {shared : SharedDictionary} (h : r.loaded? locale.language = some shared) :
    Requested r files locale (.ok shared r)
  /-- The dictionary of the language is loaded. -/
  | own {d : Dictionary} (h : r.loaded? locale.language = none)
    (hfile : (r.fileOf files locale.language).isFile = true)
    (hload : Dictionary.ofFile (r.fileOf files locale.language) = .ok d) :
    Requested r files locale (.ok ⟨r.loads, d⟩ (r.insert locale.language d))
  /-- The language joins in the dictionary that its fallback language has. -/
  | fallbackLoaded {fallback : String} {shared : SharedDictionary}
    (h : r.loaded? locale.language = none)
    (hfile : (r.fileOf files locale.language).isFile = false)
    (hfallback : locale.fallbackLanguage = some fallback)
    (hloaded : r.loaded? fallback = some shared) :
    Requested r files locale (.ok shared (r.share locale.language shared))
  /-- The dictionary of the fallback language is loaded for both. -/
  | fallbackOwn {fallback : String} {d : Dictionary}
    (h : r.loaded? locale.language = none)
    (hfile : (r.fileOf files locale.language).isFile = false)
    (hfallback : locale.fallbackLanguage = some fallback)
    (hloaded : r.loaded? fallback = none)
    (hload : Dictionary.ofFile (r.fileOf files fallback) = .ok d) :
    Requested r files locale
      (.ok ⟨r.loads, d⟩ ((r.insert fallback d).share locale.language ⟨r.loads, d⟩))
  /-- No dictionary is found. -/
  | failed {e : Error} (h : r.loaded? locale.language = none) :
    Requested r files locale (.error e r)

theorem requested_requestFallback (h : r.loaded? locale.language = none)
    (hfile : (r.fileOf files locale.language).isFile = false) :
    Requested r files locale (requestFallback files locale r) := by
  unfold requestFallback
  cases hfallback : locale.fallbackLanguage with
  | none => exact .failed h
  | some fallback =>
    simp only [bind, EStateM.bind]
    cases hloaded : r.loaded? fallback with
    | some shared =>
      rw [obtain?_of_loaded hloaded]
      exact .fallbackLoaded h hfile hfallback hloaded
    | none =>
      rw [obtain?_of_not_loaded hloaded]
      obtain ⟨-, hr⟩ | ⟨d, -, hload, hr⟩ | ⟨cause, -, -, hr⟩ := load?_cases r files fallback
      · rw [hr]
        exact .failed h
      · rw [hr]
        exact .fallbackOwn h hfile hfallback hloaded hload
      · rw [hr]
        exact .failed h

theorem requested_request (r : Registry) (files : Files) (locale : Locale) :
    Requested r files locale (request files locale r) := by
  unfold request
  simp only [bind, EStateM.bind]
  cases h : r.loaded? locale.language with
  | some shared =>
    rw [obtain?_of_loaded h]
    exact .loaded h
  | none =>
    rw [obtain?_of_not_loaded h]
    obtain ⟨hfile, hr⟩ | ⟨d, hfile, hload, hr⟩ | ⟨cause, -, -, hr⟩ :=
      load?_cases r files locale.language
    · rw [hr]
      exact requested_requestFallback h hfile
    · rw [hr]
      exact .own h hfile hload
    · rw [hr]
      exact .failed h

theorem request_of_loaded (h : r.loaded? locale.language = some shared) :
    request files locale r = .ok shared r := by
  simp only [request, bind, EStateM.bind, obtain?_of_loaded h]
  rfl

theorem request_of_not_isFile (h : r.loaded? locale.language = none)
    (hfile : (r.fileOf files locale.language).isFile = false) :
    request files locale r = requestFallback files locale r := by
  simp only [request, bind, EStateM.bind, obtain?_of_not_loaded h, load?_of_not_isFile hfile]

/-- A language whose file cannot be read does not fall back to another one. -/
theorem request_of_ofFile_eq_error {cause : StorageError} (h : r.loaded? locale.language = none)
    (hfile : (r.fileOf files locale.language).isFile = true)
    (hload : Dictionary.ofFile (r.fileOf files locale.language) = .error cause) :
    request files locale r = .error (.storage cause) r := by
  simp only [request, bind, EStateM.bind, obtain?_of_not_loaded h,
    load?_of_ofFile_eq_error hfile hload]

theorem get_eq_ok_iff {s : Registry} :
    r.get files locale = .ok (shared, s) ↔ request files locale r = .ok shared s := by
  unfold get
  cases request files locale r <;> simp

/-- A request that fails leaves the loaded dictionaries as they were. -/
theorem eq_of_request_eq_error {s : Registry} {e : Error}
    (h : request files locale r = .error e s) : s = r := by
  have hr := requested_request r files locale
  rw [h] at hr
  cases hr
  rfl

/-- A dictionary that was returned is loaded for the language that it was asked for. -/
theorem loaded?_of_request_eq_ok {s : Registry} (h : request files locale r = .ok shared s) :
    s.loaded? locale.language = some shared := by
  have hr := requested_request r files locale
  rw [h] at hr
  cases hr with
  | loaded hloaded => exact hloaded
  | own => rw [loaded?_insert, if_pos rfl]
  | fallbackLoaded => rw [loaded?_share, if_pos rfl]
  | fallbackOwn => rw [loaded?_share, if_pos rfl]

/-- A request takes no dictionary away from a language. -/
theorem loaded?_request {s : Registry} {shared' : SharedDictionary}
    (h : r.loaded? language = some shared) (hs : request files locale r = .ok shared' s) :
    s.loaded? language = some shared := by
  have hr := requested_request r files locale
  rw [hs] at hr
  -- a language that gets a dictionary had none
  have hne {other : String} (hother : r.loaded? other = none) : language ≠ other := by
    rintro rfl
    rw [hother] at h
    cases h
  cases hr with
  | loaded => exact h
  | own hlanguage => rwa [loaded?_insert, if_neg (hne hlanguage)]
  | fallbackLoaded hlanguage => rwa [loaded?_share, if_neg (hne hlanguage)]
  | fallbackOwn hlanguage _ _ hfallback =>
    rwa [loaded?_share, if_neg (hne hlanguage), loaded?_insert, if_neg (hne hfallback)]

/-- A language that has neither a dictionary nor a file ends up with the one of its fallback
language. -/
theorem loaded?_fallback {s : Registry} (h : r.loaded? locale.language = none)
    (hfile : (r.fileOf files locale.language).isFile = false)
    (hs : request files locale r = .ok shared s) :
    ∃ fallback, locale.fallbackLanguage = some fallback ∧ fallback ≠ locale.language ∧
      s.loaded? fallback = some shared := by
  have hr := requested_request r files locale
  rw [hs] at hr
  cases hr with
  | loaded hloaded =>
    rw [h] at hloaded
    cases hloaded
  | own _ hfile' =>
    rw [hfile] at hfile'
    cases hfile'
  | @fallbackLoaded fallback _ _ _ hfallback hloaded =>
    have hne := Locale.fallbackLanguage_ne hfallback
    exact ⟨fallback, hfallback, hne, by rwa [loaded?_share, if_neg hne]⟩
  | @fallbackOwn fallback _ _ _ hfallback =>
    have hne := Locale.fallbackLanguage_ne hfallback
    exact ⟨fallback, hfallback, hne, by rw [loaded?_share, if_neg hne, loaded?_insert, if_pos rfl]⟩

/-! ## Runs of calls -/

/-- A call.  A request comes with the files that it finds, and a dictionary that is put in place is
a new one or one that was given out before. -/
inductive Call where
  | request (files : Files) (locale : Locale)
  | insert (language : String) (d : Dictionary)
  | share (language : String) (shared : SharedDictionary)

/-- A call puts a dictionary in place of the one of the language. -/
def Call.Replaces (language : String) : Call → Prop
  | request _ _ => False
  | insert other _ => other = language
  | share other _ => other = language

/-- The registry after a call. -/
def afterCall (r : Registry) : Call → Registry
  | .request files locale =>
    match Registry.request files locale r with
    | .ok _ s => s
    | .error _ s => s
  | .insert language d => r.insert language d
  | .share language shared => r.share language shared

/-- The registry after a run of calls. -/
def afterCalls (r : Registry) (calls : List Call) : Registry :=
  calls.foldl afterCall r

/-- A call leaves a dictionary where it is, unless it replaces it. -/
theorem loaded?_afterCall {c : Call} (h : r.loaded? language = some shared)
    (hc : ¬ c.Replaces language) : (r.afterCall c).loaded? language = some shared := by
  cases c with
  | request files locale =>
    rw [afterCall]
    split
    · rename_i hs
      exact loaded?_request h hs
    · rename_i hs
      rwa [eq_of_request_eq_error hs]
  | insert other d => rwa [afterCall, loaded?_insert, if_neg fun heq => hc heq.symm]
  | share other shared' => rwa [afterCall, loaded?_share, if_neg fun heq => hc heq.symm]

theorem loaded?_afterCalls {calls : List Call} (h : r.loaded? language = some shared)
    (hcalls : ∀ c ∈ calls, ¬ c.Replaces language) :
    (r.afterCalls calls).loaded? language = some shared := by
  induction calls generalizing r with
  | nil => exact h
  | cons c calls ih =>
    rw [List.forall_mem_cons] at hcalls
    exact ih (loaded?_afterCall h hcalls.1) hcalls.2

/-- A language with a dictionary has one after any call. -/
theorem languages_subset_afterCall (r : Registry) (c : Call) :
    r.languages ⊆ (r.afterCall c).languages := by
  intro language hmem
  rw [mem_languages] at hmem ⊢
  obtain ⟨shared, hshared⟩ := Option.isSome_iff_exists.1 hmem
  by_cases hc : c.Replaces language
  · cases c with
    | request => exact hc.elim
    | insert other d => rw [afterCall, loaded?_insert, if_pos hc.symm, Option.isSome_some]
    | share other shared' => rw [afterCall, loaded?_share, if_pos hc.symm, Option.isSome_some]
  · rw [loaded?_afterCall hshared hc, Option.isSome_some]

theorem languages_subset_afterCalls (r : Registry) (calls : List Call) :
    r.languages ⊆ (r.afterCalls calls).languages := by
  induction calls generalizing r with
  | nil => exact List.Subset.refl _
  | cons c calls ih => exact List.Subset.trans (r.languages_subset_afterCall c) (ih _)

/-! ## Requests after any history -/

/-- Until a call replaces it, every request for the language returns the dictionary and changes
nothing, whatever the other calls do and whatever files the requests find. -/
def Keeps (r : Registry) (language : String) (shared : SharedDictionary) : Prop :=
  ∀ calls : List Call, (∀ c ∈ calls, ¬ c.Replaces language) →
    ∀ (files : Files) (locale : Locale), locale.language = language →
      request files locale (r.afterCalls calls) = .ok shared (r.afterCalls calls)

theorem keeps_of_loaded? (h : r.loaded? language = some shared) : r.Keeps language shared := by
  rintro calls hcalls files locale rfl
  exact request_of_loaded (loaded?_afterCalls h hcalls)

/-- **A registry gives out the same dictionary of a language until another takes its place.**
Whatever was loaded before and whatever files each call finds, a request that fails changes nothing;
among others it fails where the language has a file that cannot be read.  Once a request has
returned a dictionary, or one was put in place, every later request for the language returns it
until the next replaces it.  No run of calls takes a language away.  A request that falls back to
another language, since the own one has no file, leaves both with the dictionary that it returns. -/
theorem request_afterCalls (r : Registry) :
    (∀ files locale e s, request files locale r = .error e s → s = r) ∧
    (∀ files locale cause, r.loaded? locale.language = none →
      (r.fileOf files locale.language).isFile = true →
      Dictionary.ofFile (r.fileOf files locale.language) = .error cause →
      request files locale r = .error (.storage cause) r) ∧
    (∀ files locale shared s, request files locale r = .ok shared s →
      s.Keeps locale.language shared) ∧
    (∀ language d, (r.insert language d).Keeps language ⟨r.loads, d⟩) ∧
    (∀ language shared, (r.share language shared).Keeps language shared) ∧
    (∀ calls, r.languages ⊆ (r.afterCalls calls).languages) ∧
    ∀ files locale shared s, r.loaded? locale.language = none →
      (r.fileOf files locale.language).isFile = false →
      request files locale r = .ok shared s →
      ∃ fallback, locale.fallbackLanguage = some fallback ∧ fallback ≠ locale.language ∧
        s.loaded? locale.language = some shared ∧ s.loaded? fallback = some shared := by
  refine ⟨fun _ _ _ _ => eq_of_request_eq_error, fun _ _ _ => request_of_ofFile_eq_error, ?_, ?_,
    ?_, r.languages_subset_afterCalls, ?_⟩
  · intro files locale shared s hs
    exact keeps_of_loaded? (loaded?_of_request_eq_ok hs)
  · intro language d
    exact keeps_of_loaded? (by rw [loaded?_insert, if_pos rfl])
  · intro language shared
    exact keeps_of_loaded? (by rw [loaded?_share, if_pos rfl])
  · intro files locale shared s hlanguage hfile hs
    obtain ⟨fallback, hfallback, hne, hshared⟩ := loaded?_fallback hlanguage hfile hs
    exact ⟨fallback, hfallback, hne, loaded?_of_request_eq_ok hs, hshared⟩

/-- The only file is a dictionary of Chinese. -/
def chineseFiles (r : Registry) (content : ByteArray) : Files := fun path =>
  if path = r.resources.dictionaryPath "zh" then .readable content else .missing

theorem fileOf_chineseFiles (r : Registry) (content : ByteArray) (language : String) :
    r.fileOf (r.chineseFiles content) language =
      if language = "zh" then .readable content else .missing := by
  simp only [fileOf, chineseFiles, r.resources.dictionaryPath_injective.eq_iff]

theorem request_afterCalls_yue : ∃ image d s, Dictionary.catLexicon.compile = .ok image ∧
    Dictionary.load image = .ok d ∧
    (let r := empty ⟨"resources"⟩
     let files := r.chineseFiles image.bytes
     let damaged := fun _ => File.unreadable
     let calls := [.request damaged ⟨"wuu", []⟩, .request files ⟨"zh", []⟩, .insert "en" d]
     request files ⟨"yue", []⟩ r = .ok ⟨0, d⟩ s ∧
     s.loaded? "zh" = some ⟨0, d⟩ ∧ s.loaded? "yue" = some ⟨0, d⟩ ∧
     request damaged ⟨"yue", ["HK"]⟩ (s.afterCalls calls) = .ok ⟨0, d⟩ (s.afterCalls calls) ∧
     "zh" ∈ (s.afterCalls calls).languages ∧
     request damaged ⟨"yue", []⟩ r = .error (.storage .io) r ∧
     ∃ e, request files ⟨"en", []⟩ r = .error e r) := by
  obtain ⟨image, himage⟩ := Dictionary.exists_compile_catLexicon
  obtain ⟨d, hload, -⟩ := Dictionary.exists_load_of_compile himage
  have hempty (language : String) : (empty ⟨"resources"⟩).loaded? language = none := rfl
  have hloads : (empty ⟨"resources"⟩).loads = 0 := rfl
  generalize empty ⟨"resources"⟩ = r at hempty hloads
  have hmissing (locale : Locale) (h : locale.language ≠ "zh") :
      (r.fileOf (r.chineseFiles image.bytes) locale.language).isFile = false := by
    rw [fileOf_chineseFiles, if_neg h]
    rfl
  have hzh : r.fileOf (r.chineseFiles image.bytes) "zh" = .readable image.bytes := by
    rw [fileOf_chineseFiles, if_pos rfl]
  -- Cantonese and English have no file, but Cantonese falls back to the Chinese one
  have hrequest : request (r.chineseFiles image.bytes) ⟨"yue", []⟩ r =
      .ok ⟨0, d⟩ ((r.insert "zh" d).share "yue" ⟨0, d⟩) := by
    have hobtain : obtain? (r.chineseFiles image.bytes) "zh" r =
        .ok (some ⟨0, d⟩) (r.insert "zh" d) := by
      rw [obtain?_of_not_loaded (hempty "zh"), load?_of_ofFile_eq_ok (by rw [hzh]; rfl)
        (hzh ▸ Dictionary.ofFile_readable hload), hloads]
    have hfallback : Locale.fallbackLanguage ⟨"yue", []⟩ = some "zh" := rfl
    rw [request_of_not_isFile (hempty _) (hmissing ⟨"yue", []⟩ (by decide))]
    simp only [requestFallback, hfallback, bind, EStateM.bind, hobtain]
    rfl
  have herror : request (r.chineseFiles image.bytes) ⟨"en", []⟩ r =
      .error (.unsupportedLocale "en") r := by
    rw [request_of_not_isFile (hempty _) (hmissing ⟨"en", []⟩ (by decide))]
    rfl
  obtain ⟨hfails, hdamaged, hkeeps, -, -, -, hfallback⟩ := request_afterCalls r
  obtain ⟨fallback, hother, -, hshared, hloaded⟩ :=
    hfallback _ _ _ _ (hempty _) (hmissing ⟨"yue", []⟩ (by decide)) hrequest
  obtain rfl : "zh" = fallback := Option.some.inj hother
  obtain ⟨-, -, -, -, -, hsubset, -⟩ :=
    request_afterCalls ((r.insert "zh" d).share "yue" ⟨0, d⟩)
  refine ⟨image, d, _, himage, hload, hrequest, hloaded, hshared, ?_, ?_, ?_, ?_⟩
  · refine hkeeps _ _ _ _ hrequest _ ?_ _ ⟨"yue", ["HK"]⟩ rfl
    simp [Call.Replaces]
  · apply hsubset
    rw [mem_languages, hloaded, Option.isSome_some]
  · exact hdamaged (fun _ => .unreadable) ⟨"yue", []⟩ .io (hempty _) rfl rfl
  · exact ⟨_, hfails _ _ _ _ herror ▸ herror⟩

end Registry

end Paradigm
