/-!
# Where dictionaries lie

Compiled dictionaries lie in a directory below a resource root, one file for each language.

## Main definitions

* `Resources`: the resource root
* `Resources.ofEnvironment`: the root that an environment variable names
* `Resources.dictionaryPath`: the file of a language
-/

namespace Paradigm

/-- A path below a directory.  A slash is put between them unless the directory is empty or ends in
one. -/
def joinPath (directory path : String) : String :=
  if directory.isEmpty || directory.toList.getLast? == some '/' then directory ++ path
  else directory ++ "/" ++ path

/-- The root directory of resources. -/
structure Resources where
  root : String
  deriving DecidableEq, Repr

namespace Resources

/-- The root that the environment names; without a name it is the directory `resources`. -/
def ofEnvironment (named : Option String) : Resources :=
  match named with
  | none => ⟨"resources"⟩
  | some root => if root.isEmpty then ⟨"resources"⟩ else ⟨root⟩

/-- The path of the dictionary of a language. -/
def dictionaryPath (r : Resources) (language : String) : String :=
  joinPath (joinPath r.root "dictionary") ("mmappable_" ++ language ++ ".sdict")

end Resources

end Paradigm
