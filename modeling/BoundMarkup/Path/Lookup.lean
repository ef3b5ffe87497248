import BoundMarkup.Json.Value
import BoundMarkup.Path.Basic

/-!
# Looking up paths

What a path leads to inside a value, and what a directive asks about it: whether it is there,
whether it counts as true, and how it reads as text. A `null` on the way or at the end is the
same as nothing at all.
-/

namespace BoundMarkup

open Json Number

namespace Segment

/-- What one step leads to. In an object, an index is the name that is written like it. -/
def from? (v : Value) : Segment → Option Value
  | key name => v.member? name
  | index n =>
    match v with
    | .array items => items[n]?
    | v => v.member? (String.ofList (natDigits n))

end Segment

namespace Path

/-- What steps lead to. -/
def follow : List Segment → Value → Option Value
  | [], v => some v
  | segment :: rest, v =>
    match segment.from? v with
    | none | some .null => none
    | some w => follow rest w

/-- What a path leads to in a value. -/
def lookup (path : Path) (v : Value) : Option Value := follow path.segments v

end Path

/-- What the path of that text leads to in a value, unless the text is refused. -/
def tryResolve (v : Value) (path : String) : Except PathError (Option Value) :=
  (Path.parse path).map (·.lookup v)

/-- What the path of that text leads to in a value; a refused text leads to nothing. -/
def resolve (v : Value) (path : String) : Option Value :=
  match tryResolve v path with
  | .ok w => w
  | .error _ => none

/-- Whether there is something to bind. -/
def isPresent : Option Value → Bool
  | none | some .null => false
  | some _ => true

/-- Whether a value shows what depends on it. Nothing, `null`, `false`, zero and the empty string
do not; arrays and objects do even if they are empty. -/
def isTruthy : Option Value → Bool
  | none | some .null => false
  | some (.bool b) => b
  | some (.number n) => !n.isZero
  | some (.string s) => !s.isEmpty
  | some (.array _) | some (.object _) => true

/-- The text of a value as it is shown. -/
def displayText : Value → String
  | .null => ""
  | .string s => s
  | v => v.text

/-- The text of a value that may be missing. -/
def textOf (v : Option Value) : String := (v.map displayText).getD ""

end BoundMarkup
