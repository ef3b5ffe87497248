import BoundMarkup.Text.Search
import BoundMarkup.Toml.Scalar

/-!
# TOML documents

Values with inner structure, and documents: lines that open tables and lines that define members
of the table opened last.
-/

namespace BoundMarkup.Toml

open Text

/-! ### Arrays and inline tables -/

/-- The text without white space, comments and line breaks in front; `inComment` says that a
comment was begun. -/
def skipLines (inComment : Bool) : List Char → List Char
  | [] => []
  | '\r' :: '\n' :: s => skipLines false s
  | c :: s =>
    if c = '\n' then skipLines false s
    else if inComment then (if isTextChar c then skipLines true s else c :: s)
    else if isSpace c then skipLines false s
    else if c = '#' then skipLines true s
    else c :: s

theorem length_skipLines_le (inComment : Bool) (s : List Char) :
    (skipLines inComment s).length ≤ s.length := by
  fun_induction skipLines inComment s with
  | case1 => exact Nat.le_refl _
  | case2 _ s ih =>
    simp only [List.length_cons]
    omega
  | case3 => exact Nat.le_succ_of_le (by assumption)
  | case4 => exact Nat.le_succ_of_le (by assumption)
  | case5 => exact Nat.le_refl _
  | case6 => exact Nat.le_succ_of_le (by assumption)
  | case7 => exact Nat.le_succ_of_le (by assumption)
  | case8 => exact Nat.le_refl _

/-- Reads the items of an array behind its bracket; `item` reads an item. -/
def readItems (item : Reader Value) (latestFirst : List Value) (s : List Char) :
    Option (Parsed (List Value) s) :=
  match _h : skipLines false s with
  | ']' :: rest =>
    some {
      value := latestFirst.reverse
      rest
      shorter := by
        have := length_skipLines_le false s
        simp [_h] at this
        omega }
  | t =>
    match item t with
    | none => none
    | some p =>
      match _h2 : skipLines false p.rest with
      | ',' :: u =>
        (readItems item (p.value :: latestFirst) u).map (·.within (by
          have h1 := length_skipLines_le false s
          have h2 := length_skipLines_le false p.rest
          have h3 := p.shorter
          simp [_h, _h2] at h1 h2
          omega))
      | ']' :: rest =>
        some {
          value := (p.value :: latestFirst).reverse
          rest
          shorter := by
            have h1 := length_skipLines_le false s
            have h2 := length_skipLines_le false p.rest
            have h3 := p.shorter
            simp [_h, _h2] at h1 h2
            omega }
      | _ => none
termination_by s.length
decreasing_by
  have h1 := length_skipLines_le false s
  have h2 := length_skipLines_le false p.rest
  have h3 := p.shorter
  simp [_h, _h2] at h1 h2
  omega

/-- How many names a key may have, and how deep values may be nested. -/
def maxDepth : Nat := 79

/-- Reads a key, an equals sign and a value. -/
def readPair (value : Reader Value) : Reader (Key × Value) := fun s =>
  match readKey s with
  | none => none
  | some k =>
    if maxDepth < k.value.path.length + 1 then none
    else
      match h : k.rest with
      | '=' :: t =>
        (value (skipSpace t)).map fun p =>
          (p.map (k.value, ·)).within (by
            have h1 := length_skipSpace_le t
            have h2 := k.shorter
            simp [h] at h2
            omega)
      | _ => none

/-- Reads the members of an inline table behind its brace. There is at least one. -/
def readMembers (value : Reader Value) (members : Members) (s : List Char) :
    Option (Parsed Members s) :=
  match readPair value s with
  | none => none
  | some p =>
    match members.defineDotted .inline p.value.1.path p.value.1.name p.value.2 with
    | none => none
    | some members =>
      match _h : skipSpace p.rest with
      | ',' :: t =>
        (readMembers value members t).map (·.within (by
          have h1 := length_skipSpace_le p.rest
          have h2 := p.shorter
          simp [_h] at h1
          omega))
      | '\x7d' :: rest =>
        some {
          value := members
          rest
          shorter := by
            have h1 := length_skipSpace_le p.rest
            have h2 := p.shorter
            simp [_h] at h1
            omega }
      | _ => none
termination_by s.length
decreasing_by
  have h1 := length_skipSpace_le p.rest
  have h2 := p.shorter
  simp [_h] at h1
  omega

/-- Reads an inline table behind its brace. -/
def readInline (value : Reader Value) : Reader Members := fun s =>
  match h : skipSpace s with
  | '\x7d' :: rest =>
    some {
      value := []
      rest
      shorter := by
        have := length_skipSpace_le s
        simp [h] at this
        omega }
  | _ => readMembers value [] s

/-- Reads a value that is written as a word. -/
def readWord (word : String) (value : Value) : Reader Value := fun s =>
  (past? word.toList s).bind fun rest =>
    if h : rest.length < s.length then some { value, rest, shorter := h } else none

/-- Reads a value. Arrays and inline tables in it may be nested `depth` deep. -/
def readValue (depth : Nat) (s : List Char) : Option (Parsed Value s) :=
  match s with
  | [] => none
  | c :: t =>
    if c = '"' ∨ c = '\'' then (readString (c :: t)).map (·.map fun s => .string (String.ofList s))
    else if c = '[' then
      match depth with
      | 0 => none
      | depth + 1 =>
        (readItems (readValue depth) [] t).map fun p => (p.map .array).behind c
    else if c = '\x7b' then
      match depth with
      | 0 => none
      | depth + 1 =>
        (readInline (readValue depth) t).map fun p => (p.map (.table .inline)).behind c
    else if c = 't' then readWord "true" (.bool true) (c :: t)
    else if c = 'f' then readWord "false" (.bool false) (c :: t)
    else readNumber (c :: t)

/-! ### Lines -/

/-- A line of a document. -/
inductive Line where
  /-- Nothing but white space and a comment. -/
  | blank
  /-- A member of the table opened last. -/
  | member (key : Key) (value : Value)
  /-- The header of a table. -/
  | table (key : Key)
  /-- The header of a further table of a name. -/
  | further (key : Key)

/-- The text behind the end of a line, which white space and a comment may precede. -/
def endLine? (s : List Char) : Option (List Char) :=
  match skipComment (skipSpace s) with
  | [] => some []
  | t => newline? t

/-- Reads the key of a header up to its closing marks. -/
def readHeader (closing : List Char) : Reader Key := fun s =>
  match readKey s with
  | none => none
  | some k =>
    if maxDepth < k.value.path.length + 1 then none
    else
      (past? closing k.rest).bind fun rest =>
        if h : rest.length < s.length then some { value := k.value, rest, shorter := h } else none

/-- Reads what a line says. -/
def readStatement : Reader Line := fun s =>
  match s with
  | '[' :: '[' :: t =>
    (readHeader [']', ']'] t).map fun p => (p.map .further).within (by simp; omega)
  | '[' :: t => (readHeader [']'] t).map fun p => (p.map .table).behind '['
  | s => (readPair (readValue maxDepth) s).map fun p => p.map fun (k, v) => .member k v

/-- Reads a line with its end. -/
def readLine : Reader Line := fun s =>
  let blank : Option (Parsed Line s) :=
    (endLine? s).bind fun rest =>
      if h : rest.length < s.length then some { value := .blank, rest, shorter := h } else none
  match blank with
  | some p => some p
  | none =>
    match readStatement (skipSpace s) with
    | none => none
    | some p =>
      (endLine? p.rest).bind fun rest =>
        if h : rest.length < s.length then some { value := p.value, rest, shorter := h } else none

/-- The lines of a document. -/
def readLinesOf (s : List Char) : Option (List Line) :=
  match s with
  | [] => some []
  | c :: t =>
    match readLine (c :: t) with
    | none => none
    | some p => (readLinesOf p.rest).map (p.value :: ·)
termination_by s.length
decreasing_by exact p.shorter

/-- Adds what lines say to the members of a document; `header` leads to the table opened last. -/
def Members.addLines (header : List String) (members : Members) : List Line → Option Members
  | [] => some members
  | .blank :: rest => addLines header members rest
  | .member key v :: rest =>
    (members.defineUnder header key.path key.name v).bind fun m => addLines header m rest
  | .table key :: rest =>
    (members.openTable key.path key.name).bind fun m => addLines (key.path ++ [key.name]) m rest
  | .further key :: rest =>
    (members.openFurther key.path key.name).bind fun m =>
      addLines (key.path ++ [key.name]) m rest

/-- The members of the table that a text stands for. -/
def parse (text : String) : Option Members :=
  let s :=
    match text.toList with
    | '\ufeff' :: s => s
    | s => s
  (readLinesOf s).bind (Members.addLines [] [])

end BoundMarkup.Toml
