import Paradigm.Inflector
import Paradigm.NameMap
import Paradigm.Resources

/-!
# The dictionaries in use

A registry loads the dictionary of a language when it is first asked for, and gives the same one out
from then on.  A language without a file shares the dictionary of its fallback language, if it has
one.  A load that fails leaves nothing behind, so that a file that appears later is found.

## Main definitions

* `Registry`: the loaded dictionaries by language
* `Registry.request`, `Registry.get`: the dictionary for a locale
* `Registry.insert`: puts a dictionary in place of the one of a language
-/

namespace Paradigm

/-- What lies under each path. -/
abbrev Files := String → File

/-- A loaded dictionary.  Its number tells it from all others that were loaded. -/
structure SharedDictionary where
  number : Nat
  dictionary : Dictionary

/-- The loaded dictionaries by language. -/
structure Registry where
  resources : Resources
  loaded : NameMap SharedDictionary
  /-- The number of dictionaries that were loaded so far. -/
  loads : Nat

namespace Registry

/-- A registry that has loaded nothing. -/
def empty (resources : Resources) : Registry := ⟨resources, .empty, 0⟩

/-- The languages with a loaded dictionary, in order. -/
def languages (r : Registry) : List String := r.loaded.names

/-- The dictionary that is loaded for a language. -/
def loaded? (r : Registry) (language : String) : Option SharedDictionary := r.loaded.get? language

/-- What lies under the path of the dictionary of a language. -/
def fileOf (r : Registry) (files : Files) (language : String) : File :=
  files (r.resources.dictionaryPath language)

/-- Gives a language a loaded dictionary. -/
def share (r : Registry) (language : String) (shared : SharedDictionary) : Registry :=
  { r with loaded := r.loaded.insert language shared }

/-- Puts a dictionary in place of the one of a language. -/
def insert (r : Registry) (language : String) (d : Dictionary) : Registry :=
  { r.share language ⟨r.loads, d⟩ with loads := r.loads + 1 }

/-! ## Requests -/

/-- A step on the loaded dictionaries.  When it fails, they stay as the failing part left them. -/
abbrev Step := EStateM Error Registry

/-- Loads the dictionary of a language from its file, if there is one.  A file that cannot be read
is a failure and not a missing file. -/
def load? (files : Files) (language : String) : Step (Option SharedDictionary) := do
  let r ← get
  if (r.fileOf files language).isFile then
    match Dictionary.ofFile (r.fileOf files language) with
    | .error cause => throw (.storage cause)
    | .ok d =>
      set (r.insert language d)
      return some ⟨r.loads, d⟩
  else
    return none

/-- The dictionary of a language, loaded if it is not yet; none if it has no file. -/
def obtain? (files : Files) (language : String) : Step (Option SharedDictionary) := do
  match (← get).loaded? language with
  | some shared => return some shared
  | none => load? files language

/-- The dictionary of the fallback language of a locale, which the language of the locale shares
from then on. -/
def requestFallback (files : Files) (locale : Locale) : Step SharedDictionary :=
  match locale.fallbackLanguage with
  | none => throw (.unsupportedLocale locale.display)
  | some fallback => do
    -- the fallback language keeps what it loads, also under its own name
    match ← obtain? files fallback with
    | none => throw (.unsupportedLocale locale.display)
    | some shared =>
      modify (·.share locale.language shared)
      return shared

/-- The dictionary for a locale.  Its own language comes first, and the fallback language only if
that has neither a loaded dictionary nor a file. -/
def request (files : Files) (locale : Locale) : Step SharedDictionary := do
  match ← obtain? files locale.language with
  | some shared => return shared
  | none => requestFallback files locale

/-- The dictionary for a locale, with the registry that has given it out.  A request that fails
changes nothing, so that no registry is given with the failure. -/
def get (r : Registry) (files : Files) (locale : Locale) :
    Except Error (SharedDictionary × Registry) :=
  match request files locale r with
  | .ok shared r => .ok (shared, r)
  | .error e _ => .error e

end Registry

end Paradigm
