import BoundMarkup.Number.Shortest
import BoundMarkup.Text.Class
import BoundMarkup.Text.Quoted

/-!
# Paths

A path names a place inside a record: an identifier, and then identifiers behind points and
numbers in brackets, as in `author.posts[0].title`. Nothing else is a path: no blanks, calls,
operators, quoted keys or negative numbers.
-/

namespace BoundMarkup

open Number Text

/-- A step of a path. -/
inductive Segment where
  /-- To the member of a name. -/
  | key (name : String)
  /-- To the item with an index. -/
  | index (n : Nat)
deriving DecidableEq, Repr

/-- A path with its steps. -/
structure Path where
  /-- The text of the path. -/
  source : String
  /-- The steps, first to last. -/
  segments : List Segment
deriving DecidableEq, Repr

/-- Why a text is not a path. -/
inductive PathError where
  /-- The text is empty. -/
  | empty
  /-- The text is not of the form of a path. -/
  | rejected (source : String)
  /-- A number in brackets does not fit into 64 bits. -/
  | indexOverflow (source : String)
deriving DecidableEq, Repr

namespace Segment

/-- A step as it is shown. -/
def display : Segment → String
  | key name => name
  | index n => String.ofList ('[' :: natDigits n ++ [']'])

/-- Whether an index fits into 64 bits. -/
def fits : Segment → Bool
  | key _ => true
  | index n => n < Nat.pow 2 64

end Segment

namespace PathError

/-- What an error says. -/
def message : PathError → String
  | empty => "Empty path"
  | rejected source => "Path rejected by grammar: " ++ quoted source
  | indexOverflow source => "Path index out of range: " ++ quoted source

end PathError

namespace Path

/-- A character that an identifier may begin with. -/
def isKeyStart (c : Char) : Bool := isLetter c || c == '_' || c == '$'

/-- A character inside an identifier. -/
def isKeyChar (c : Char) : Bool := isKeyStart c || isDigit c

/-- The number that decimal digits stand for. -/
def indexOf (digits : List Char) : Nat :=
  digits.foldl (fun n c => 10 * n + (c.toNat - '0'.toNat)) 0

/-- The step that an identifier in front of a text makes, and what follows it. -/
def key? : List Char → Option (Segment × List Char)
  | [] => none
  | c :: s =>
    if isKeyStart c then
      some (.key (String.ofList (c :: s.takeWhile isKeyChar)), s.dropWhile isKeyChar)
    else none

/-- The step that a number and a closing bracket in front of a text make, and what follows. -/
def index? (s : List Char) : Option (Segment × List Char) :=
  let digits := s.takeWhile isDigit
  match s.dropWhile isDigit with
  | ']' :: rest => if digits.isEmpty then none else some (.index (indexOf digits), rest)
  | _ => none

/-- The step behind the first in front of a text, and what follows it. -/
def step? : List Char → Option (Segment × List Char)
  | '.' :: s => key? s
  | '[' :: s => index? s
  | _ => none

theorem length_of_key? {s rest : List Char} {segment : Segment}
    (h : key? s = some (segment, rest)) : rest.length < s.length := by
  cases s with
  | nil => simp [key?] at h
  | cons c s =>
    rw [key?] at h
    split at h
    · cases h
      exact Nat.lt_succ_of_le (List.dropWhile_sublist _).length_le
    · cases h

theorem length_of_index? {s rest : List Char} {segment : Segment}
    (h : index? s = some (segment, rest)) : rest.length < s.length := by
  unfold index? at h
  simp only at h
  split at h
  · next t ht =>
    split at h
    · cases h
    · cases h
      have := (List.dropWhile_sublist (l := s) isDigit).length_le
      rw [ht] at this
      exact this
  · cases h

theorem length_of_step? {s rest : List Char} {segment : Segment}
    (h : step? s = some (segment, rest)) : rest.length < s.length := by
  unfold step? at h
  split at h
  · exact Nat.lt_succ_of_lt (length_of_key? h)
  · exact Nat.lt_succ_of_lt (length_of_index? h)
  · cases h

/-- Whether a text consists of steps behind the first one. -/
def isSteps (s : List Char) : Bool :=
  match s with
  | [] => true
  | c :: t =>
    match _h : step? (c :: t) with
    | some (_, rest) => isSteps rest
    | none => false
termination_by s.length
decreasing_by exact length_of_step? _h

/-- Whether a text has the form of a path, with indices of any size. -/
def isValid (source : String) : Bool :=
  match key? source.toList with
  | some (_, rest) => isSteps rest
  | none => false

/-- The step in front of a text, an identifier or a number in brackets, and what follows it. Unlike
`step?` it needs no point in front of an identifier. -/
def bare? (s : List Char) : Option (Segment × List Char) :=
  match s with
  | '[' :: t => index? t
  | s => key? s

theorem length_of_bare? {s rest : List Char} {segment : Segment}
    (h : bare? s = some (segment, rest)) : rest.length < s.length := by
  unfold bare? at h
  split at h
  · exact Nat.lt_succ_of_lt (length_of_index? h)
  · exact length_of_key? h

/-- The steps that stand in a text, first to last, without the points between them. What belongs to
no step is passed over. -/
def stepsIn (s : List Char) : List Segment :=
  match s with
  | [] => []
  | c :: t =>
    match _h : bare? (c :: t) with
    | some (segment, rest) => segment :: stepsIn rest
    | none => stepsIn t
termination_by s.length
decreasing_by
  · exact length_of_bare? _h
  · exact Nat.lt_succ_self _

/-- The path that a text names. The form of the text is checked first, and then its steps are picked
out. -/
def parse (source : String) : Except PathError Path :=
  if source.isEmpty then .error .empty
  else if !isValid source then .error (.rejected source)
  else
    let segments := stepsIn source.toList
    if segments.all Segment.fits then .ok { source, segments }
    else .error (.indexOverflow source)

end Path

end BoundMarkup
