import BoundMarkup.Json.Reader

/-!
# Render events

What a controller tells those who watch it, with the JSON form of an event: an object whose
member `type` names the kind, and one further member. It can also be read from an array with the
kind in front.
-/

namespace BoundMarkup

open Json Number

/-- What happened to a controller. -/
inductive RenderEvent where
  /-- The items were rendered, and there are so many instances. -/
  | rendered (count : Nat)
  /-- Items are being fetched. -/
  | loading (src : String)
  /-- There are no new items, for this reason. -/
  | errored (message : String)
deriving DecidableEq, Repr

namespace RenderEvent

/-- The kinds of events. -/
inductive Kind where
  /-- The kind of `rendered`. -/
  | rendered
  /-- The kind of `loading`. -/
  | loading
  /-- The kind of `errored`. -/
  | errored
deriving DecidableEq, Repr

namespace Kind

/-- All kinds. -/
def all : List Kind := [rendered, loading, errored]

/-- The name of a kind in JSON. -/
def name : Kind → String
  | rendered => "rendered"
  | loading => "loading"
  | errored => "errored"

/-- The name of a kind in messages. -/
def title : Kind → String
  | rendered => "RenderEvent::Rendered"
  | loading => "RenderEvent::Loading"
  | errored => "RenderEvent::Errored"

/-- The name of the member that an event of this kind has. -/
def field : Kind → String
  | rendered => "count"
  | loading => "src"
  | errored => "message"

/-- The kind of that name. -/
def ofName? (name : String) : Option Kind := all.find? (·.name = name)

end Kind

/-- The JSON text of an event. -/
def text (e : RenderEvent) : String :=
  let object (kind : Kind) (v : Value) : String :=
    (Value.object [("type", .string kind.name), (kind.field, v)]).text
  match e with
  | rendered count => object .rendered (.number (.integer count))
  | loading src => object .loading (.string src)
  | errored message => object .errored (.string message)

/-! ### Reading -/

/-- What an event is called in messages. -/
def formName : String := "internally tagged enum RenderEvent"

/-- The failure of finding a value in front of `rest` that is not of the type expected. -/
def unexpected (v : Value) (expected : String) (rest : List Char) : Failure :=
  .before (.mismatch (.wrongType v.described expected)) rest

/-- Reads the name of a kind. A value that is no string is read as far as it takes to name it. -/
def readKind : Reader Kind := fun s =>
  match h : skipSpace s with
  | [] => .error (.before .endInValue [])
  | '"' :: t =>
    match readString t with
    | .error e => .error e
    | .ok p =>
      match Kind.ofName? (String.ofList p.value) with
      | some kind =>
        .ok ((p.map fun _ => kind).within (by
          have := length_skipSpace_le s
          simp [h] at this
          omega))
      | none =>
        .error (.before (.mismatch (.unknownVariant (String.ofList p.value)
          (Kind.all.map Kind.name))) p.rest)
  | '[' :: t => .error (unexpected (.array []) "variant identifier" ('[' :: t))
  | '\x7b' :: t => .error (unexpected (.object []) "variant identifier" ('\x7b' :: t))
  | t =>
    match readValue 0 t with
    | .error e => .error e
    | .ok p => .error (unexpected p.value "variant identifier" p.rest)

/-- What was read of an event: its kind, and its other parts with the latest first. -/
structure Draft (α : Type) where
  /-- The kind, when it has come. -/
  kind : Option Kind := none
  /-- The other parts. -/
  parts : List α := []

/-- The text behind the closing mark, if that comes next. -/
def behind (closing : Char) (s : List Char) : List Char :=
  match skipSpace s with
  | [] => []
  | c :: t => if c = closing then t else c :: t

/-- Reads a member of an event in the form of an object. -/
def readPart (d : Draft (String × Value)) : Reader (Draft (String × Value)) := fun s =>
  match readName s with
  | .error e => .error e
  | .ok name =>
    if name.value = "type" then
      if d.kind.isSome then
        .error (.before (.mismatch (.duplicateField "type")) (behind '\x7d' name.rest))
      else
        (readMemberValue readKind name.rest).map fun p =>
          (p.map fun kind => { d with kind := some kind }).within name.rest_le
    else
      (readMemberValue (readValue (maxDepth - 1)) name.rest).map fun p =>
        (p.map fun v => { d with parts := (name.value, v) :: d.parts }).within name.rest_le

/-- Reads an item of an event in the form of an array. -/
def readItem (d : Draft Value) : Reader (Draft Value) := fun s =>
  match d.kind with
  | none => (readKind s).map fun p => p.map fun kind => { d with kind := some kind }
  | some _ =>
    (readValue (maxDepth - 1) s).map fun p => p.map fun v => { d with parts := v :: d.parts }

/-- The count that a value stands for. -/
def countOf : Value → Except Mismatch Nat
  | .number (.integer n) =>
    if 0 ≤ n then .ok n.toNat
    else .error (.wrongValue (Value.number (.integer n)).described "usize")
  | v => .error (.wrongType v.described "usize")

/-- The text that a value stands for. -/
def textOf : Value → Except Mismatch String
  | .string s => .ok s
  | v => .error (.wrongType v.described "a string")

/-- The event of a kind whose further member has the given value. -/
def ofField (kind : Kind) (v : Value) : Except Mismatch RenderEvent :=
  match kind with
  | .rendered => (countOf v).map rendered
  | .loading => (textOf v).map loading
  | .errored => (textOf v).map errored

/-- The event of a kind with the given members; members of other names do not count. -/
def ofMembers (kind : Kind) (found : Option RenderEvent) :
    List (String × Value) → Except Mismatch RenderEvent
  | [] => found.elim (.error (.missingField kind.field)) .ok
  | (name, v) :: rest =>
    if name = kind.field then
      if found.isSome then .error (.duplicateField name)
      else
        match ofField kind v with
        | .error m => .error m
        | .ok e => ofMembers kind (some e) rest
    else ofMembers kind found rest

/-- The event of a kind with the given items. -/
def ofItems (kind : Kind) : List Value → Except Mismatch RenderEvent
  | [] => .error (.wrongLength 0 ("struct variant " ++ kind.title ++ " with 1 element"))
  | v :: rest =>
    match ofField kind v with
    | .error m => .error m
    | .ok e =>
      if rest.isEmpty then .ok e
      else .error (.wrongLength (rest.length + 1) "1 element in sequence")

/-- Why a text is no event. -/
inductive Error where
  /-- The text is refused at some place. -/
  | text (error : Json.Error)
  /-- The text is read, but its parts do not make an event. -/
  | form (m : Mismatch)
deriving DecidableEq, Repr

namespace Error

/-- What an error says. -/
def message : Error → String
  | text e => e.message
  | form m => m.message

end Error

/-- Reads the parts of an event and makes the event of them; also returns the rest. -/
def readParts (s : List Char) :
    Except Failure (Except Mismatch RenderEvent × List Char) :=
  let missing (rest : List Char) : Failure :=
    .before (.mismatch (.missingField "type")) rest
  match skipSpace s with
  | '\x7b' :: t => do
    let p ← readObject readPart {} t
    match p.value.kind with
    | some kind => .ok (ofMembers kind none p.value.parts.reverse, p.rest)
    | none => .error (missing p.rest)
  | '[' :: t => do
    let p ← readArray readItem {} t
    match p.value.kind with
    | some kind => .ok (ofItems kind p.value.parts.reverse, p.rest)
    | none => .error (missing p.rest)
  | t => do
    let p ← readValue 0 t
    .error (unexpected p.value formName p.rest)

/-- The event that a JSON text stands for. -/
def parse (json : String) : Except Error RenderEvent :=
  let text := json.toList
  match readParts text with
  | .error e => .error (.text (e.inText text))
  | .ok (.error m, _) => .error (.form m)
  | .ok (.ok event, rest) =>
    match checkEnd rest with
    | .error e => .error (.text (e.inText text))
    | .ok () => .ok event

end RenderEvent

end BoundMarkup
