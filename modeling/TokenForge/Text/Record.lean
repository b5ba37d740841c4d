import TokenForge.Text.Quoted

/-!
# Records in dumps

How a dump shows a record, a list and an optional value, given the dumps of what they hold:
`Name { field: dump, field: dump }`, `[dump, dump]`, `Some(dump)` and `None`.
-/

namespace TokenForge.Text

/-- The dump of a record. One without fields is its name alone. -/
def record (name : String) (fields : List (String × String)) : String :=
  if fields.isEmpty then name
  else name ++ " \x7b " ++ ", ".intercalate (fields.map fun f => f.1 ++ ": " ++ f.2) ++ " \x7d"

def listed (items : List String) : String := "[" ++ ", ".intercalate items ++ "]"

def optional : Option String → String
  | some s => "Some(" ++ s ++ ")"
  | none => "None"

/-- What a dump shows in the place of a secret, whatever the secret is. -/
def redacted : String := quote "[REDACTED]"

end TokenForge.Text
