import BoundMarkup.Command.Basic

/-!
# Rendering a file

Renders the hosts in a page and writes the page to a file or to the output.
-/

namespace BoundMarkup.Command

open Storage

/-- What is to be rendered, and where to. -/
structure RenderRequest where
  /-- The page. -/
  input : String
  /-- The file to write; without one, the output is written. -/
  output : Option String := none
  /-- The directory below which local data is found. -/
  baseDirectory : Option String := none
deriving DecidableEq, Repr

variable {m : Type → Type} [Monad m]

/-- Makes the directories around a file that is to be written. -/
def makeRoom (fs : FileSystem m) (path : String) : m (Except CommandError Unit) := do
  match parents path with
  | [] => return .ok ()
  | parent :: outer =>
    return match ← fs.makeDirectories (parent :: outer) with
      | .ok () => .ok ()
      | .error e => .error (.notMade parent e)

/-- Writes a rendered page to a file. -/
def writePage (fs : FileSystem m) (path html : String) : m (Except CommandError Unit) := do
  match ← makeRoom fs path with
  | .error e => return .error e
  | .ok () =>
    return match ← fs.write path html with
      | .ok () => .ok ()
      | .error e => .error (.unwritable path e)

/-- The line that counts what was rendered. -/
def summaryLine (s : RenderSummary) : LogLine :=
  info ("Rendered " ++ toString s.hosts ++ " hosts with " ++ toString s.instances ++
    " instances (" ++ toString s.errors ++ " errors)")

/-- Renders a page. Local data is found below the directory that is asked for, else the configured
one, else that of the page. -/
def render (fs : FileSystem m) (config : Config) (request : RenderRequest) :
    m (Outcome Unit) := do
  match ← fs.read request.input with
  | .error e => return .failed (.unreadable request.input e)
  | .ok source =>
    let base := (request.baseDirectory <|> config.baseDirectory).getD (directoryOf request.input)
    let rendered ← renderPage source config.tag config.options (fs.fetcher base)
    let log := rendered.notices.map (·.line)
    match rendered.outcome with
    | .error e => return .failed (.badPage e) log
    | .ok (html, summary) =>
      match request.output with
      | none => return .done (log ++ [summaryLine summary]) (html ++ "\n")
      | some path =>
        match ← writePage fs path html with
        | .error e => return .failed e log
        | .ok () => return .done (log ++ [info ("Output: " ++ path), summaryLine summary])

end BoundMarkup.Command
