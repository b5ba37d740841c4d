import TokenForge.Json.Writer
import TokenForge.Text.Quoted

/-!
# Dumps of JSON values

A dump shows a value with the name of its kind: `Object {"a": Array [Number(1), String("x")]}`, the
braces as they stand. Strings and keys are quoted as in every dump, so no text in a value can be
taken for the end of its quotes.
-/

namespace TokenForge.Json

mutual

/-- The characters of a value's dump. -/
def Value.dumpChars : Value → List Char
  | .null => "Null".toList
  | .bool b => "Bool(".toList ++ (if b then "true" else "false").toList ++ [')']
  | .number n => "Number(".toList ++ n.chars ++ [')']
  | .string s => "String(".toList ++ (Text.quote s).toList ++ [')']
  | .array [] => "Array []".toList
  | .array (v :: vs) => "Array [".toList ++ v.dumpChars ++ moreDumpedItems vs
  | .object [] => "Object \x7b\x7d".toList
  | .object ((k, v) :: ms) =>
    "Object \x7b".toList ++ (Text.quote k).toList ++ ": ".toList ++ v.dumpChars
      ++ moreDumpedMembers ms

/-- What follows an item in the dump of an array. -/
def moreDumpedItems : List Value → List Char
  | [] => [']']
  | v :: vs => ", ".toList ++ v.dumpChars ++ moreDumpedItems vs

def moreDumpedMembers : Members → List Char
  | [] => ['\x7d']
  | (k, v) :: ms =>
    ", ".toList ++ (Text.quote k).toList ++ ": ".toList ++ v.dumpChars ++ moreDumpedMembers ms

end

def Value.dump (v : Value) : String := String.ofList v.dumpChars

end TokenForge.Json
