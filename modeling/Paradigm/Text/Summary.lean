/-!
# One-line descriptions

A value is described by the name of its kind and some of its fields between braces.

## Main definitions

* `summary`: the description made of a name and fields
-/

namespace Paradigm.Text

/-- The name of a kind of value, followed by fields with their contents. -/
def summary (kind : String) (fields : List (String × String)) : String :=
  kind ++ " \x7b " ++ ", ".intercalate (fields.map fun (name, content) => name ++ ": " ++ content)
    ++ " \x7d"

end Paradigm.Text
