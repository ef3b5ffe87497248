import BoundMarkup.Binding.Fetch
import BoundMarkup.Text.Search

/-!
# File paths

A path is a text in which slashes part the names. Parts that are empty or a single point mean
nothing, except that a point may begin a path; the text of a path is kept as it was given, so
messages show it unchanged.
-/

namespace BoundMarkup.Storage

open Text

/-- The parts of a path between its slashes. -/
def parts (path : String) : List (List Char) := pieces '/' path.toList

/-- Whether a path begins at the root. -/
def isRooted (path : String) : Bool := beginsWith "/" path.toList

/-- Whether a part of a path counts as a step. A point counts only at the beginning. -/
def counts (first : Bool) (part : List Char) : Bool :=
  !part.isEmpty && (first || part != ['.'])

/-- The steps of the parts behind the first. -/
def laterSteps (later : List (List Char)) : List String :=
  (later.filter (counts false)).map String.ofList

/-- The steps of a path, without those that mean nothing. -/
def steps (path : String) : List String :=
  match parts path with
  | [] => []
  | first :: later =>
    (if counts true first then [String.ofList first] else []) ++ laterSteps later

/-- The beginnings of a path that end with a step; `text` is what stands in front. -/
def beginnings (first : Bool) (text : List Char) : List (List Char) → List String
  | [] => []
  | part :: rest =>
    let text := if first then part else text ++ '/' :: part
    (if counts first part then [String.ofList text] else []) ++ beginnings false text rest

/-- The paths of the directories around a path, the innermost first. The outermost is the root,
or the empty path that stands for the working directory. -/
def parents (path : String) : List String :=
  match (beginnings true [] (parts path)).reverse with
  | [] => []
  | _ :: outer => outer ++ [if isRooted path then "/" else ""]

/-- The directory of a file, where the working directory is a point. -/
def directoryOf (path : String) : String :=
  match parents path with
  | [] | "" :: _ => "."
  | directory :: _ => directory

/-- The part of a file's name behind its last point; a name that begins with its only point has
none. -/
def extensionOf (path : String) : Option String :=
  match (steps path).getLast? with
  | none => none
  | some name =>
    let behind := name.toList.reverse.takeWhile (· ≠ '.')
    -- Without a point all of the name is behind, and with only one in front all but one.
    if name = ".." ∨ name.toList.length ≤ behind.length + 1 then none
    else some (String.ofList behind.reverse)

/-- Whether a list of steps comes before another or is the same: step by step, and a beginning
before what it begins. -/
def stepsLe : List String → List String → Bool
  | [], _ => true
  | _ :: _, [] => false
  | a :: as, b :: bs => a < b || (a = b && stepsLe as bs)

/-- Paths in the order of their steps. -/
def sorted (paths : List String) : List String :=
  paths.mergeSort fun a b => stepsLe (steps a) (steps b)

end BoundMarkup.Storage
