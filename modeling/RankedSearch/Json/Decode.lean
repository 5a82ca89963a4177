import RankedSearch.Binary64.Rounding
import RankedSearch.Json.Basic

/-!
# Decoding interchange values

A decoder turns an interchange value into a value of the domain or says why it
cannot. A record is an object whose fields are decoded by name. The fields that
are there are decoded in the order of their names, so the first faulty one in
that order decides the error; only then are missing fields looked for, in the
order of the record. Fields of other names are ignored. A record may also be
written as the array of all its fields in order.

A variant is written as its name, or as an object with its name as the only
field and its contents as the value.
-/

set_option autoImplicit false

namespace RankedSearch

/-- Why an interchange value cannot be decoded. -/
inductive DecodeError where
  /-- The value is of another kind, or out of range. -/
  | mismatch
  | missingField (name : String)
  | unknownVariant (name : String) (expected : List String)
  deriving DecidableEq

namespace DecodeError

/-- A name in a message. -/
def ticked (name : String) : String := "`" ++ name ++ "`"

/-- The wording of a missing field or an unknown variant. -/
def message? : DecodeError → Option String
  | .mismatch => none
  | .missingField name => some s!"missing field {ticked name}"
  | .unknownVariant name expected =>
    let names := String.intercalate ", " (expected.map ticked)
    some s!"unknown variant {ticked name}, expected one of {names}"

end DecodeError

/-- A way to decode interchange values. -/
abbrev Decoder (α : Type) := Json → Except DecodeError α

namespace Decoder

/-! ## Plain values -/

/-- A natural number below a bound. -/
def naturalBelow (bound : Nat) : Decoder Nat
  | .integer n => if 0 ≤ n ∧ n < bound then .ok n.toNat else .error .mismatch
  | _ => .error .mismatch

/-- A natural number that a 64-bit word holds. -/
def natural : Decoder Nat := naturalBelow 18446744073709551616

/-- A 64-bit word. -/
def word64 : Decoder UInt64 := fun j => (natural j).map UInt64.ofNat

/-- A 32-bit word. -/
def word32 : Decoder UInt32 := fun j => (naturalBelow 4294967296 j).map UInt32.ofNat

/-- A truth value. -/
def bool : Decoder Bool
  | .bool b => .ok b
  | _ => .error .mismatch

/-- A text. -/
def text : Decoder String
  | .text s => .ok s
  | _ => .error .mismatch

/-- A binary word; integers stand for the nearest one. -/
def number : Decoder Binary64
  | .real x => .ok x
  | .integer n => .ok (Binary64.ofInt n)
  | _ => .error .mismatch

/-- A value that may be null. -/
def nullable {α : Type} (d : Decoder α) : Decoder (Option α)
  | .null => .ok none
  | j => (d j).map some

/-- A value that a partial function accepts. -/
def accepted {α β : Type} (d : Decoder α) (f : α → Option β) : Decoder β := fun j =>
  match d j with
  | .error e => .error e
  | .ok a =>
    match f a with
    | some b => .ok b
    | none => .error .mismatch

/-! ## Records -/

/-- A field of a record: its name and whether a value fits it. -/
structure Field where
  name : String
  check : Json → Except DecodeError Unit

/-- The field of a name that a decoder reads. -/
def field {α : Type} (name : String) (d : Decoder α) : Field :=
  ⟨name, fun j => (d j).map fun _ => ()⟩

/-- Whether the value of a named field fits the record. Fields that the record
does not have fit, unless the record is closed. -/
def checkNamed (closed : Bool) (record : List Field) (entry : String × Json) :
    Except DecodeError Unit :=
  match record.find? fun f => f.name == entry.1 with
  | some f => f.check entry.2
  | none => if closed then .error .mismatch else .ok ()

/-- Checks values one after the other; the first fault decides. -/
def checkEach {α : Type} (check : α → Except DecodeError Unit) : List α → Except DecodeError Unit
  | [] => .ok ()
  | a :: rest =>
    match check a with
    | .ok () => checkEach check rest
    | .error e => .error e

/-- The fields of a written record, after every one that is there has been checked. -/
def fields (closed : Bool) (record : List Field) : Decoder (List (String × Json))
  | .object entries =>
    match checkEach (checkNamed closed record) (Json.sortByName entries) with
    | .ok () => .ok entries
    | .error e => .error e
  | .array elements =>
    match checkEach (fun pair : Field × Json => pair.1.check pair.2) (record.zip elements) with
    | .ok () =>
      if elements.length = record.length then .ok ((record.map Field.name).zip elements)
      else .error .mismatch
    | .error e => .error e
  | _ => .error .mismatch

/-- The value of a field that must be there. -/
def required {α : Type} (entries : List (String × Json)) (name : String) (d : Decoder α) :
    Except DecodeError α :=
  match Json.lookup? entries name with
  | some j => d j
  | none => .error (.missingField name)

/-- The value of a field that may be missing or null. -/
def optional {α : Type} (entries : List (String × Json)) (name : String) (d : Decoder α) :
    Except DecodeError (Option α) :=
  match Json.lookup? entries name with
  | some j => nullable d j
  | none => .ok none

/-! ## Variants -/

/-- The name of a written variant and its contents, if it has any. -/
def variant : Decoder (String × Option Json)
  | .text name => .ok (name, none)
  | .object [(name, contents)] => .ok (name, some contents)
  | _ => .error .mismatch

/-- A variant without contents. -/
def bare {α : Type} (a : α) : Option Json → Except DecodeError α
  | none | some .null => .ok a
  | some _ => .error .mismatch

/-- A variant with contents. -/
def holding {α β : Type} (f : α → β) (d : Decoder α) : Option Json → Except DecodeError β
  | none => .error .mismatch
  | some j => (d j).map f

/-- One of several variants without contents, given with their names. -/
def choice {α : Type} (variants : List (String × α)) : Decoder α := fun j =>
  match variant j with
  | .error e => .error e
  | .ok (name, contents) =>
    match variants.find? fun v => v.1 == name with
    | some v => bare v.2 contents
    | none => .error (.unknownVariant name (variants.map Prod.fst))

end Decoder
end RankedSearch
