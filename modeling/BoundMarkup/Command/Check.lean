import BoundMarkup.Command.Basic

/-!
# Checking files

Looks for malformed directives and data in the pages at a path.
-/

namespace BoundMarkup.Command

open Markup Storage Text

/-- Whether a file is a page, by its name. -/
def isPage (path : String) : Bool :=
  match extensionOf path with
  | none => false
  | some extension => caseless extension "html" || caseless extension "htm"

/-- What checking a page has found. -/
structure CheckedPage where
  /-- The notices of reading the page. -/
  notices : List TagNotice := []
  /-- The issues, unless the page cannot be checked. -/
  issues : Except CommandError (List HostIssue)

variable {m : Type → Type} [Monad m]

/-- Checks the page in a file. -/
def checkFile (fs : FileSystem m) (config : Config) (path : String) : m CheckedPage := do
  match ← fs.read path with
  | .error e => return { issues := .error (.unreadable path e) }
  | .ok source =>
    let notices := parseNotices source
    match checkPage source config.tag config.options with
    | .error e => return { notices, issues := .error (.unchecked path e) }
    | .ok issues => return { notices, issues := .ok issues }

/-- Reports the issues of pages, up to one that cannot be checked; `count` issues were reported
before. -/
def report (count : Nat) : List (String × CheckedPage) → Outcome Unit
  | [] => if count = 0 then .done [info "No issues found"] else .failed (.issues count)
  | (path, page) :: rest =>
    match page.issues with
    | .error e => .failed e
    | .ok issues =>
      (report (count + issues.length) rest).after
        (issues.map fun i => ⟨.warn, path ++ ": " ++ i.message⟩)

/-- Checks the pages at a path and below it, in the order of their paths. -/
def check (fs : FileSystem m) (config : Config) (path : String) : m (Outcome Unit) := do
  match ← fs.kind? path with
  | none => return .failed (.pathNotFound path)
  | some _ =>
    let pages := sorted ((← fs.filesUnder path).filter isPage)
    let checked ← pages.mapM fun page => return (page, ← checkFile fs config page)
    let first := info ("Checking " ++ toString pages.length ++ " files...")
    let notices := checked.flatMap fun p => p.2.notices.map (·.line)
    return (report 0 checked).after (first :: notices)

end BoundMarkup.Command
