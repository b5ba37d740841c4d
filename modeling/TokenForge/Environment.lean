import TokenForge.Text.Utf8

/-!
# Environments

The variables that a program is started with.

* `Environment.ofEntries` — the environment with some variables;
* `Environment.text?` — the value of a variable, if it is a text.
-/

namespace TokenForge

/-- **What the variables are**: an answer to every name. -/
abbrev Environment := Bytes → Option Bytes

namespace Environment

/-- The byte between the name of a variable and its value. -/
def separator : UInt8 := 0x3D

/-- What an entry holds under a name. Every separator in it may be the one after the name. -/
def entryValue? (name entry : Bytes) : Option Bytes :=
  if (name ++ [separator]).isPrefixOf entry then some (entry.drop (name.length + 1)) else none

/-- **The environment with some variables**, of which the first counts if two have one name. No
variable has an empty name. -/
def ofEntries (entries : List (Bytes × Bytes)) : Environment := fun name =>
  if name = [] then none
  else entries.findSome? fun v => entryValue? name (v.1 ++ separator :: v.2)

/-- The value of a variable, if it is set and a text. -/
def text? (env : Environment) (name : String) : Option String :=
  (env (utf8 name)).bind TokenForge.text?

end Environment

end TokenForge
