import RankedSearch.Binary64.Text
import RankedSearch.Json.Basic

/-!
# Interchange text

Writing interchange values, on one line or indented by two spaces for each
level. The fields of an object are written in the order of their names. In texts
only quotes, backslashes and control characters are escaped.
-/

set_option autoImplicit false

namespace RankedSearch
namespace Json

/-- A hexadecimal digit. -/
def hexDigit (n : Nat) : Char :=
  if n < 10 then Char.ofNat (48 + n) else Char.ofNat (87 + n)

/-- A character inside a quoted text. -/
def quotedChar (c : Char) : List Char :=
  if c = '\x22' then ['\\', '\x22']
  else if c = '\x5c' then ['\\', '\\']
  else if c = '\n' then ['\\', 'n']
  else if c = '\r' then ['\\', 'r']
  else if c = '\t' then ['\\', 't']
  else if c.toNat = 8 then ['\\', 'b']
  else if c.toNat = 12 then ['\\', 'f']
  else if c.toNat < 32 then
    ['\\', 'u', '0', '0', hexDigit (c.toNat / 16), hexDigit (c.toNat % 16)]
  else [c]

/-- A text in quotes. -/
def quoted (s : String) : String :=
  String.ofList ('\x22' :: s.toList.flatMap quotedChar ++ ['\x22'])

/-- Texts with a separator between them. -/
def separated (separator : String) : List String → String
  | [] => ""
  | [s] => s
  | s :: rest => s ++ separator ++ separated separator rest

/-- The marks around the parts of an array or object. `indent` is the indentation
of the parts, or none when everything stands on one line. -/
def enclosed (indent : Option Nat) (opening closing : String) (parts : List String) : String :=
  match indent, parts with
  | _, [] => opening ++ closing
  | none, parts => opening ++ separated "," parts ++ closing
  | some n, parts =>
    let blanks (k : Nat) := "\n" ++ String.ofList (List.replicate (2 * k) ' ')
    opening ++ blanks n ++ separated ("," ++ blanks n) parts ++ blanks (n - 1) ++ closing

/-- The indentation one level further in. -/
def deeper (indent : Option Nat) : Option Nat := indent.map (· + 1)

mutual

/-- A value in writing; `indent` is the level of its parts, or none for one line. -/
def render (indent : Option Nat) : Json → String
  | .null => "null"
  | .bool b => if b then "true" else "false"
  | .integer n => toString n
  | .real x => x.numeral
  | .text s => quoted s
  | .array elements => enclosed indent "[" "]" (renderAll (deeper indent) elements)
  | .object fields =>
    let colon := if indent.isSome then ": " else ":"
    enclosed indent "\x7b" "\x7d" ((sortByName (renderFields (deeper indent) fields)).map
      fun field => quoted field.1 ++ colon ++ field.2)

/-- The elements of an array in writing. -/
def renderAll (indent : Option Nat) : List Json → List String
  | [] => []
  | j :: rest => render indent j :: renderAll indent rest

/-- The values of fields in writing, with their names. -/
def renderFields (indent : Option Nat) : List (String × Json) → List (String × String)
  | [] => []
  | (name, j) :: rest => (name, render indent j) :: renderFields indent rest

end

/-- A value on one line. -/
def compact (j : Json) : String := render none j

/-- A value over several lines. -/
def pretty (j : Json) : String := render (some 1) j

end Json
end RankedSearch
