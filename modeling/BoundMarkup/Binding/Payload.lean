import BoundMarkup.Json.Reader

/-!
# Payloads

The items of a JSON text: an array of items, or an object that has the array as its member
`items` or else as its member `data`.
-/

namespace BoundMarkup

open Json

/-- Why a text has no items. -/
inductive DataError where
  /-- The text is not JSON. -/
  | text (error : Json.Error)
  /-- The text has no form that items come in. -/
  | form (m : Mismatch)
  /-- Neither of the two members is there. -/
  | noItems
deriving DecidableEq, Repr

namespace DataError

/-- What an error says. -/
def message : DataError → String
  | text e => "Invalid JSON: " ++ e.message
  | form m => "Invalid JSON: " ++ m.message
  | noItems =>
    "Expected an array of items or an object with an \x60items\x60 or \x60data\x60 array"

end DataError

namespace Payload

/-- The array that a member holds: `none` if the member is missing or `null`, and an error if it
holds something else or occurs twice. -/
def member (name : String) (members : List (String × Value)) :
    Except Mismatch (Option (List Value)) :=
  match members.filter (·.1 = name) with
  | [] | [(_, .null)] => .ok none
  | [(_, .array items)] => .ok (some items)
  | _ => .error (.noForm "Payload")

/-- The items in a value, as they are written; `none` if it could have items but has none. -/
def items (v : Value) : Except Mismatch (Option (List Value)) :=
  match v with
  | .array items => .ok (some items)
  | .object members =>
    match member "items" members, member "data" members with
    | .ok items, .ok data => .ok (items <|> data)
    | _, _ => .error (.noForm "Payload")
  | _ => .error (.noForm "Payload")

end Payload

/-- The items of a JSON text, in canonical form. A text of the wrong form is refused before what
stands behind its value is looked at. -/
def decodeItems (json : String) : Except DataError (List Value) :=
  let text := json.toList
  match readValue maxDepth text with
  | .error e => .error (.text (e.inText text))
  | .ok p =>
    match Payload.items p.value with
    | .error m => .error (.form m)
    | .ok found =>
      match checkEnd p.rest with
      | .error e => .error (.text (e.inText text))
      | .ok () =>
        match found with
        | some items => .ok (canonicalItems items)
        | none => .error .noItems

/-- The text of an item's member that tells it from the others, if it has one. -/
def identityOf (item : Value) (key : String) : Option String :=
  match item.member? key with
  | none | some .null => none
  | some (.string s) => some s
  | some v => some v.text

end BoundMarkup
