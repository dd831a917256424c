/-
# Writing JSON

Values as a dynamic language has them, and the compact encoder with sorted keys that keeps
every code point it need not escape. A text is a list of code points, lone surrogates
included. How a float is written is a parameter, and so is whether it can be.
-/

import Mathlib.Data.List.Lex
import Mathlib.Data.List.Sort
import EspContainer.Text.Decimal

namespace Json

open Text

/-- A value. The members of an object are in the order in which they were put there. -/
inductive Value (F : Type) where
  | null
  | bool (value : Bool)
  | int (value : Int)
  | float (value : F)
  | str (text : List Nat)
  | list (items : List (Value F))
  | dict (members : List (List Nat × Value F))

/-- A text between quotes. -/
def quoted (text : List Nat) : List Nat := codes "\"" ++ (text ++ codes "\"")

/-- Some texts between commas. -/
def commaed (texts : List (List Nat)) : List Nat := (codes ",").intercalate texts

/-- How a code point is written in a string. -/
def escape (code : Nat) : List Nat :=
  if code = 34 then codes "\\\""
  else if code = 92 then codes "\\\\"
  else if code = 10 then codes "\\n"
  else if code = 13 then codes "\\r"
  else if code = 9 then codes "\\t"
  else if code = 12 then codes "\\f"
  else if code = 8 then codes "\\b"
  else if code < 32 then codes "\\u00" ++ [hexDigit (code / 16), hexDigit (code % 16)]
  else [code]

/-- A string. -/
def writeString (text : List Nat) : List Nat := quoted (text.flatMap escape)

/-- A number without a fraction. -/
def writeInt (value : Int) : List Nat :=
  if value < 0 then codes "-" ++ decimal value.natAbs else decimal value.natAbs

/-- A member of an object. -/
def writeMember (member : List Nat × List Nat) : List Nat :=
  writeString member.1 ++ (codes ":" ++ member.2)

variable {F : Type} (format : F → Option (List Nat))

mutual

/-- `json.dumps(value, sort_keys=True, separators=(",", ":"), ensure_ascii=False)`. -/
def write : Value F → Option (List Nat)
  | .null => some (codes "null")
  | .bool true => some (codes "true")
  | .bool false => some (codes "false")
  | .int value => some (writeInt value)
  | .float value => format value
  | .str text => some (writeString text)
  | .list items =>
      (writeItems items).map fun texts => codes "[" ++ (commaed texts ++ codes "]")
  | .dict members =>
      (writeMembers members).map fun texts =>
        let sorted := texts.insertionSort fun first second => first.1 ≤ second.1
        codes "\x7b" ++ (commaed (sorted.map writeMember) ++ codes "\x7d")

/-- The items of a list. -/
def writeItems : List (Value F) → Option (List (List Nat))
  | [] => some []
  | item :: items =>
      (write item).bind fun text => (writeItems items).map fun texts => text :: texts

/-- The members of an object: their keys, and their values written. -/
def writeMembers : List (List Nat × Value F) → Option (List (List Nat × List Nat))
  | [] => some []
  | (key, value) :: members =>
      (write value).bind fun text => (writeMembers members).map fun texts => (key, text) :: texts

end

end Json
