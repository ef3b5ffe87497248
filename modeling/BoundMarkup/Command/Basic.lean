import BoundMarkup.Binding.Page
import BoundMarkup.Config
import BoundMarkup.Storage.FileSystem

/-!
# Commands

What the commands of the program do with files. Each one runs on a file system in any monad, and
leaves a log, some output and perhaps an error.
-/

namespace BoundMarkup.Command

open Markup Storage

/-- Why a command fails. -/
inductive CommandError where
  /-- A file cannot be read. -/
  | unreadable (path : String) (error : FileError)
  /-- A file cannot be written. -/
  | unwritable (path : String) (error : FileError)
  /-- A directory cannot be made. -/
  | notMade (path : String) (error : FileError)
  /-- A configuration file does not say what it may say. -/
  | badConfig (path : String)
  /-- A page that is to be rendered is not markup. -/
  | badPage (error : MarkupError)
  /-- A page that is to be checked is not markup. -/
  | unchecked (path : String) (error : MarkupError)
  /-- There is nothing to check. -/
  | pathNotFound (path : String)
  /-- Checking has found issues. -/
  | issues (count : Nat)
deriving DecidableEq, Repr

namespace CommandError

/-- What an error says, followed by its causes. What is wrong in a configuration file is not
told. -/
def chain : CommandError → List String
  | unreadable path e => ["Failed to read " ++ path, e.message]
  | unwritable path e => ["Failed to write " ++ path, e.message]
  | notMade path e => ["Failed to create " ++ path, e.message]
  | badConfig path => ["Failed to parse " ++ path, ""]
  | badPage e => "Failed to parse page" :: e.chain
  | unchecked path e => ("Failed to check " ++ path) :: e.chain
  | pathNotFound path => ["Path not found: " ++ path]
  | issues count => ["Found " ++ toString count ++ " issues"]

end CommandError

/-- What a command leaves. -/
structure Outcome (α : Type) where
  /-- The log, in order. -/
  log : List LogLine := []
  /-- What is written to the standard output. -/
  output : String := ""
  /-- The result, unless the command fails. -/
  result : Except CommandError α

namespace Outcome

/-- A command that fails. -/
def failed {α : Type} (e : CommandError) (log : List LogLine := []) : Outcome α where
  log := log
  result := .error e

/-- A command that ends well. -/
def done (log : List LogLine := []) (output : String := "") : Outcome Unit where
  log := log
  output := output
  result := .ok ()

/-- What a command leaves when another one goes before it, which has left `first`. -/
def after {α : Type} (o : Outcome α) (first : List LogLine) : Outcome α :=
  { o with log := first ++ o.log }

end Outcome

/-- A line of progress. -/
def info (message : String) : LogLine := ⟨.info, message⟩

variable {m : Type → Type} [Monad m]

/-- The configuration of a file. Without the file, nothing is configured. -/
def loadConfig (fs : FileSystem m) (path : String) : m (Outcome Config) := do
  match ← fs.kind? path with
  | none => return { result := .ok {} }
  | some _ =>
    match ← fs.read path with
    | .error e => return .failed (.unreadable path e)
    | .ok text =>
      match Config.parse text with
      | none => return .failed (.badConfig path)
      | some c => return { log := [info ("Loaded config from " ++ path)], result := .ok c }

/-- Writes a configuration file that says what holds anyway. One that is there is replaced only
if that is asked for. -/
def init (fs : FileSystem m) (path : String) (replace : Bool) : m (Outcome Unit) := do
  if (← fs.kind? path).isSome && !replace then
    return .done [⟨.warn, path ++ " already exists. Use --yes to overwrite."⟩]
  else
    match ← fs.write path Config.template with
    | .error e => return .failed (.unwritable path e)
    | .ok () =>
      return .done [info ("Created " ++ path),
        info "Run 'lattice render <page.html>' to render your hosts."]

/-- Writes the clean form of markup to the output. -/
def sanitizeText (markup : String) : Outcome Unit :=
  .done ((cleanNotices markup).map (·.line)) (sanitize markup ++ "\n")

/-- Cleans the markup of a file, or that of the standard input. -/
def sanitizeFile (fs : FileSystem m) (input : m String) : Option String → m (Outcome Unit)
  | none => return sanitizeText (← input)
  | some path => do
    match ← fs.read path with
    | .error e => return .failed (.unreadable path e)
    | .ok markup => return sanitizeText markup

end BoundMarkup.Command
