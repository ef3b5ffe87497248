/-!
# TOML values

A document is a table. A table remembers how it was defined, because that decides whether it may
be added to.
-/

namespace BoundMarkup.Toml

/-- How a table was defined. -/
inductive Origin where
  /-- Between braces. It is complete. -/
  | inline
  /-- By a header of its own. -/
  | header
  /-- By the header of a table inside it. -/
  | implicit
  /-- By a key with points. -/
  | dotted
deriving DecidableEq, Repr

/-- A value. -/
inductive Value where
  /-- A string. -/
  | string (s : String)
  /-- A whole number. -/
  | integer (n : Int)
  /-- A floating-point number, as it is written. -/
  | float (text : String)
  /-- A truth value. -/
  | bool (b : Bool)
  /-- A date, a time or both, as it is written. -/
  | dateTime (text : String)
  /-- An array between brackets. -/
  | array (items : List Value)
  /-- A table. -/
  | table (origin : Origin) (members : List (String × Value))
  /-- Tables of one name, each with a header; the latest comes first. -/
  | tables (latestFirst : List (List (String × Value)))
deriving Repr

/-- The members of a table, in the order of their definition. -/
abbrev Members := List (String × Value)

namespace Members

/-- Gives a member of that name a new value, made of the old one if there is one. -/
def alter (name : String) (f : Option Value → Option Value) : Members → Option Members
  | [] => (f none).map fun v => [(name, v)]
  | (k, v) :: rest =>
    if k = name then (f (some v)).map fun w => (k, w) :: rest
    else (alter name f rest).map ((k, v) :: ·)

/-- Changes the table that a path of names leads to, if the way is open. On the way tables are
made as needed, and the last of several tables of one name is meant. Names with points do not
lead into tables that have a header. -/
def change (dotted : Bool) (f : Origin → Members → Option Members) (origin : Origin)
    (path : List String) (members : Members) : Option Members :=
  match path with
  | [] => f origin members
  | name :: path =>
    members.alter name fun
      | none =>
        let made := if dotted then Origin.dotted else .implicit
        (change dotted f made path []).map (.table made)
      | some (.table o inner) =>
        if o = .inline ∨ (dotted ∧ o = .header) then none
        else (change dotted f o path inner).map (.table o)
      | some (.tables (inner :: others)) =>
        (change dotted f .header path inner).map fun inner => .tables (inner :: others)
      | some _ => none

/-- Adds a member that is not there yet. -/
def define (name : String) (v : Value) (members : Members) : Option Members :=
  members.alter name fun
    | none => some v
    | some _ => none

/-- Adds a value under a key with points, seen from a table of the given origin. -/
def defineDotted (origin : Origin) (path : List String) (name : String) (v : Value)
    (members : Members) : Option Members :=
  change true (fun o inner => if path.isEmpty ∨ o = .dotted then define name v inner else none)
    origin path members

/-- Opens a table by its header. -/
def openTable (path : List String) (name : String) (members : Members) : Option Members :=
  change false
    (fun _ inner => inner.alter name fun
      | none => some (.table .header [])
      | some (.table .implicit m) => some (.table .header m)
      | some _ => none)
    .header path members

/-- Opens a further table among those of one name. -/
def openFurther (path : List String) (name : String) (members : Members) : Option Members :=
  change false
    (fun _ inner => inner.alter name fun
      | none => some (.tables [[]])
      | some (.tables rows) => some (.tables ([] :: rows))
      | some _ => none)
    .header path members

/-- Adds a value under a key with points to the table that a header path leads to. -/
def defineUnder (header path : List String) (name : String) (v : Value) (members : Members) :
    Option Members :=
  change false (fun o inner => defineDotted o path name v inner) .header header members

/-- The value of a member. -/
def get? (members : Members) (name : String) : Option Value :=
  (members.find? (·.1 = name)).map (·.2)

end Members

end BoundMarkup.Toml
