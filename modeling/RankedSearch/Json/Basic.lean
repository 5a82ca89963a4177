import RankedSearch.Binary64.Basic

/-!
# Interchange values

The values of interchange text. Numbers without fraction and exponent are
integers, all others are binary words. The fields of an object have different
names; their order carries no meaning.
-/

set_option autoImplicit false

namespace RankedSearch

/-- An interchange value. -/
inductive Json where
  | null
  | bool (b : Bool)
  | integer (n : Int)
  | real (x : Binary64)
  | text (s : String)
  | array (elements : List Json)
  | object (fields : List (String × Json))
  deriving Inhabited

namespace Json

/-- The value of a field. -/
def lookup? (fields : List (String × Json)) (name : String) : Option Json :=
  (fields.find? fun field => field.1 == name).map Prod.snd

/-- The fields of an object with one more; it takes the place of one of the same name. -/
def insertField (fields : List (String × Json)) (name : String) (value : Json) :
    List (String × Json) :=
  fields.filter (fun field => !(field.1 == name)) ++ [(name, value)]

/-- A value that may be missing. -/
def ofOption {α : Type} (f : α → Json) : Option α → Json
  | some a => f a
  | none => .null

/-- A natural number. -/
def ofNat (n : Nat) : Json := .integer n

/-- A binary word as a number; a word that is not finite is no number. -/
def ofWord (x : Binary64) : Json := if x.isFinite then .real x else .null

/-- A list of texts. -/
def ofTexts (texts : List String) : Json := .array (texts.map .text)

/-- Inserts a named value in front of the first one with a later name. -/
def insertByName {α : Type} (entry : String × α) : List (String × α) → List (String × α)
  | [] => [entry]
  | next :: rest =>
    if next.1 < entry.1 then next :: insertByName entry rest else entry :: next :: rest

/-- Named values in the order of their names, which is that of code points. -/
def sortByName {α : Type} (entries : List (String × α)) : List (String × α) :=
  entries.foldr insertByName []

end Json
end RankedSearch
