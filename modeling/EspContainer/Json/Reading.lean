/-
# Reading JSON

The strict reader of a dynamic language: it makes its own floats, it hands constants that
are not JSON to one hook and the members of every object to another, and it gives up on
texts that are nested too deeply for it. Hooks may raise.
-/

import EspContainer.Json.Writing

namespace Json

open Text

/-- Why a text is not read. -/
inductive Failure (E : Type) where
  | malformed
  | tooDeep
  | raised (error : E)
  deriving DecidableEq

/-- What a reader is configured with. -/
structure Decoder (F E : Type) where
  parseFloat : List Nat → F
  parseConstant : List Nat → Except E (Value F)
  pairsHook : List (List Nat × Value F) → Except E (Value F)

/-- A step of the reader: from a text to a result and the text behind it. -/
abbrev Scan (E α : Type) : Type := List Nat → Except (Failure E) (α × List Nat)

/-- A hook's answer as a step. -/
def hooked {E α : Type} (answer : Except E α) : Scan E α := fun rest =>
  match answer with
  | .error error => .error (.raised error)
  | .ok value => .ok (value, rest)

/-- `[ \t\n\r]`. -/
def isSpace (code : Nat) : Bool := code == 32 || code == 9 || code == 10 || code == 13

/-- `[ \t\n\r]*`. -/
def skipSpaces (text : List Nat) : List Nat := text.dropWhile isSpace

/-! ## Strings -/

/-- The value of a hexadecimal digit, in upper or lower case. -/
def hexDigitValue (code : Nat) : Option Nat :=
  if isDecimalDigit code then some (code - 48)
  else if 97 ≤ code && code ≤ 102 then some (code - 87)
  else if 65 ≤ code && code ≤ 70 then some (code - 55)
  else none

/-- The number of four digits. -/
def hexNumber (first second third fourth : Nat) : Option Nat := do
  let first ← hexDigitValue first
  let second ← hexDigitValue second
  let third ← hexDigitValue third
  let fourth ← hexDigitValue fourth
  pure (((first * 16 + second) * 16 + third) * 16 + fourth)

/-- The code point behind a backslash, unless it is a number. -/
def simpleEscape (code : Nat) : Option Nat :=
  if code = 34 || code = 92 || code = 47 then some code
  else if code = 98 then some 8
  else if code = 102 then some 12
  else if code = 110 then some 10
  else if code = 114 then some 13
  else if code = 116 then some 9
  else none

def isHighSurrogate (code : Nat) : Bool := 0xD800 ≤ code && code ≤ 0xDBFF

def isLowSurrogate (code : Nat) : Bool := 0xDC00 ≤ code && code ≤ 0xDFFF

/-- The code point of a pair of surrogates. -/
def joinSurrogates (high low : Nat) : Nat := 0x10000 + (high - 0xD800) * 1024 + (low - 0xDC00)

/-- A code point of a string, and whether it was written as a number. -/
abbrev CodeUnit : Type := Nat × Bool

/-- Put a code point before what was read. -/
def behind (unit : CodeUnit) (read : Option (List CodeUnit × List Nat)) :
    Option (List CodeUnit × List Nat) :=
  read.map fun found => (unit :: found.1, found.2)

/-- The code points of a string, from behind its first quote, and what follows its last one. -/
def scanUnits : List Nat → Option (List CodeUnit × List Nat)
  | [] => none
  | code :: rest =>
      if code = 34 then some ([], rest)
      else if code = 92 then
        match rest with
        | [] => none
        | mark :: rest =>
            if mark = 117 then
              match rest with
              | first :: second :: third :: fourth :: rest =>
                  match hexNumber first second third fourth with
                  | none => none
                  | some number => behind (number, true) (scanUnits rest)
              | _ => none
            else
              match simpleEscape mark with
              | none => none
              | some code => behind (code, false) (scanUnits rest)
      else if code < 32 then none
      else behind (code, false) (scanUnits rest)

/-- Two numbers in a row that are a pair of surrogates are one code point. -/
def joinUnits : List CodeUnit → List Nat
  | [] => []
  | [unit] => [unit.1]
  | first :: second :: rest =>
      if first.2 && isHighSurrogate first.1 && second.2 && isLowSurrogate second.1 then
        joinSurrogates first.1 second.1 :: joinUnits rest
      else first.1 :: joinUnits (second :: rest)

/-- A string, from behind its first quote. -/
def scanString (text : List Nat) : Option (List Nat × List Nat) :=
  (scanUnits text).map fun found => (joinUnits found.1, found.2)

/-! ## Numbers -/

/-- The digits before the point: one zero, or digits that do not begin with one. -/
def scanInteger : List Nat → Option (List Nat × List Nat)
  | [] => none
  | first :: rest =>
      if first = 48 then some ([48], rest)
      else if isDecimalDigit first then
        some (first :: rest.takeWhile isDecimalDigit, rest.dropWhile isDecimalDigit)
      else none

/-- The fraction, if a digit follows the point. -/
def scanFraction : List Nat → List Nat × List Nat
  | [] => ([], [])
  | point :: rest =>
      if point = 46 && rest.head?.any isDecimalDigit then
        (point :: rest.takeWhile isDecimalDigit, rest.dropWhile isDecimalDigit)
      else ([], point :: rest)

/-- The exponent, if there are digits in it. -/
def scanExponent : List Nat → List Nat × List Nat
  | [] => ([], [])
  | mark :: rest =>
      if mark = 69 || mark = 101 then
        let sign := rest.take 1 |>.filter fun code => code == 43 || code == 45
        let digits := rest.drop sign.length
        if digits.head?.any isDecimalDigit then
          (mark :: (sign ++ digits.takeWhile isDecimalDigit), digits.dropWhile isDecimalDigit)
        else ([], mark :: rest)
      else ([], mark :: rest)

variable {F E : Type} (decoder : Decoder F E)

/-- A number: an integer, unless it has a fraction or an exponent. -/
def scanNumber (text : List Nat) : Option (Value F × List Nat) :=
  let sign := text.take 1 |>.filter fun code => code == 45
  match scanInteger (text.drop sign.length) with
  | none => none
  | some (digits, rest) =>
      let (fraction, rest) := scanFraction rest
      let (exponent, rest) := scanExponent rest
      if fraction.isEmpty && exponent.isEmpty then
        let value : Int := readDecimal 0 digits
        some (.int (if sign.isEmpty then value else -value), rest)
      else some (.float (decoder.parseFloat (sign ++ (digits ++ (fraction ++ exponent)))), rest)

/-! ## Values -/

/-- What stands between brackets or braces, from its first element on; the last bracket is
taken. The number of rounds is bounded by the text, since every round takes a comma. -/
def scanSequence {α : Type} (element : Scan E α) (close : Nat) :
    Nat → List Nat → Except (Failure E) (List α × List Nat)
  | 0, _ => .error .malformed
  | rounds + 1, text => do
      let (first, rest) ← element text
      match skipSpaces rest with
      | [] => .error .malformed
      | code :: rest =>
          if code = close then .ok ([first], rest)
          else if code = 44 then do
            let (others, rest) ← scanSequence element close rounds (skipSpaces rest)
            .ok (first :: others, rest)
          else .error .malformed

/-- A sequence that may be empty, from behind its first bracket. -/
def scanEnclosed {α : Type} (element : Scan E α) (close : Nat) (text : List Nat) :
    Except (Failure E) (List α × List Nat) :=
  let text := skipSpaces text
  if text.head? = some close then .ok ([], text.tail)
  else scanSequence element close text.length text

/-- A key, a colon and a value. -/
def scanMember (scan : Scan E (Value F)) : Scan E (List Nat × Value F) := fun text =>
  if text.head? = some 34 then
    match scanString text.tail with
    | none => .error .malformed
    | some (key, rest) =>
        let rest := skipSpaces rest
        if rest.head? = some 58 then do
          let (value, rest) ← scan (skipSpaces rest.tail)
          .ok ((key, value), rest)
        else .error .malformed
  else .error .malformed

/-- A list, from behind its first bracket. -/
def scanList (scan : Scan E (Value F)) : Scan E (Value F) := fun text => do
  let (items, rest) ← scanEnclosed scan 93 text
  .ok (.list items, rest)

/-- An object, from behind its first brace. -/
def scanDict (scan : Scan E (Value F)) : Scan E (Value F) := fun text => do
  let (members, rest) ← scanEnclosed (scanMember scan) 125 text
  hooked (decoder.pairsHook members) rest

/-- A constant of this spelling, or else what `other` finds. -/
def scanLiteral (spelling : String) (found other : Scan E (Value F)) : Scan E (Value F) := fun text =>
  if (codes spelling).isPrefixOf text then found (text.drop (codes spelling).length) else other text

/-- A number, where nothing else begins. -/
def scanOther : Scan E (Value F) := fun text =>
  match scanNumber decoder text with
  | none => .error .malformed
  | some found => .ok found

/-- One value; lists and objects need a scan of what is in them. -/
def scanWith (inner : Option (Scan E (Value F))) : Scan E (Value F)
  | [] => .error .malformed
  | code :: rest =>
      if code = 34 then
        match scanString rest with
        | none => .error .malformed
        | some (text, rest) => .ok (.str text, rest)
      else if code = 123 then
        match inner with
        | none => .error .tooDeep
        | some scan => scanDict decoder scan rest
      else if code = 91 then
        match inner with
        | none => .error .tooDeep
        | some scan => scanList scan rest
      else
        (scanLiteral "null" (fun rest => .ok (.null, rest)) <|
        scanLiteral "true" (fun rest => .ok (.bool true, rest)) <|
        scanLiteral "false" (fun rest => .ok (.bool false, rest)) <|
        scanLiteral "NaN" (hooked (decoder.parseConstant (codes "NaN"))) <|
        scanLiteral "Infinity" (hooked (decoder.parseConstant (codes "Infinity"))) <|
        scanLiteral "-Infinity" (hooked (decoder.parseConstant (codes "-Infinity"))) <|
        scanOther decoder) (code :: rest)

/-- `scan_once`, with as many levels of lists and objects as the limit says. -/
def scanOnce : Nat → Scan E (Value F)
  | 0 => scanWith decoder none
  | limit + 1 => scanWith decoder (some (scanOnce limit))

/-- `json.loads`. -/
def read (limit : Nat) (text : List Nat) : Except (Failure E) (Value F) :=
  if text.head? = some 0xFEFF then .error .malformed
  else do
    let (value, rest) ← scanOnce decoder limit (skipSpaces text)
    if (skipSpaces rest).isEmpty then .ok value else .error .malformed

end Json
