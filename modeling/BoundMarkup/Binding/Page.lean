import BoundMarkup.Binding.Host

/-!
# Pages

Rendering all hosts of a page, and checking them without rendering. A host inside another one
belongs to the blueprint of that one.
-/

namespace BoundMarkup

open Markup

/-- What is worth a log line when a page is rendered. -/
inductive PageNotice where
  /-- A tag is not read as it is written. -/
  | tag (notice : TagNotice)
  /-- An element is no host and stays as it is. -/
  | skippedHost (error : MountError)
  /-- A host declares no source. -/
  | noSource (element : String)
  /-- Something about the controller of a host. -/
  | controller (notice : ControllerNotice)
deriving DecidableEq, Repr

namespace PageNotice

/-- The log line of a notice. -/
def line : PageNotice → LogLine
  | tag notice => notice.line
  | skippedHost e => ⟨.warn, "Skipping host: " ++ e.message⟩
  | noSource element => ⟨.debug, "<" ++ element ++ "> has no data source"⟩
  | controller notice => notice.line

end PageNotice

/-- What came out of rendering a page. -/
structure RenderSummary where
  /-- How many hosts were mounted. -/
  hosts : Nat := 0
  /-- How many instances they have together. -/
  instances : Nat := 0
  /-- How many of them have no new items. -/
  errors : Nat := 0
deriving DecidableEq, Repr

namespace RenderSummary

/-- The counts of two parts together. -/
def add (a b : RenderSummary) : RenderSummary where
  hosts := a.hosts + b.hosts
  instances := a.instances + b.instances
  errors := a.errors + b.errors

/-- The counts of a host that was mounted. -/
def ofController (c : Controller) : RenderSummary where
  hosts := 1
  instances := c.instances.length
  errors := if c.phase = .errored then 1 else 0

end RenderSummary

/-- A host after rendering. -/
structure RenderedHost where
  /-- What takes the host's place. -/
  element : Element
  /-- Its part of the summary. -/
  summary : RenderSummary
  /-- The notices, in order. -/
  notices : List PageNotice

/-- Mounts a host, loads the items that it declares, and projects the controller. An element that
is no host stays as it is. -/
def renderHost {m : Type → Type} [Monad m] (options : HostOptions) (fetch : Fetcher m)
    (host : Element) : m RenderedHost := do
  match mount host options with
  | .error e => return { element := host, summary := {}, notices := [.skippedHost e] }
  | .ok c =>
    match sourceOf host with
    | none =>
      return {
        element := project host c
        summary := .ofController c
        notices := [.noSource host.tag.name] }
    | some source =>
      let t ← c.load source fetch
      return {
        element := project host t.controller
        summary := .ofController t.controller
        notices := t.notices.map .controller }

/-- A page after rendering. -/
structure RenderedPage where
  /-- The page. -/
  page : Fragment
  /-- What came out. -/
  summary : RenderSummary
  /-- The notices, in order. -/
  notices : List PageNotice

/-- Renders the hosts of a page, which are the topmost elements of the given name, one after
another in document order. -/
def renderTree {m : Type → Type} [Monad m] (name : String) (options : HostOptions)
    (fetch : Fetcher m) (page : Fragment) : m RenderedPage := do
  let rendered ← (Fragment.topmost name page).mapM (renderHost options fetch)
  return {
    page := (Fragment.replaceTopmost name (rendered.map (·.element)) page).1
    summary := (rendered.map (·.summary)).foldl .add {}
    notices := rendered.flatMap (·.notices) }

/-- What came out of rendering the text of a page. -/
structure PageResult where
  /-- The notices, in order. -/
  notices : List PageNotice
  /-- The text of the rendered page and the counts, unless the text is not markup. -/
  outcome : Except MarkupError (String × RenderSummary)

/-- Renders the text of a page. -/
def renderPage {m : Type → Type} [Monad m] (source name : String) (options : HostOptions)
    (fetch : Fetcher m) : m PageResult := do
  let notices := (parseNotices source).map PageNotice.tag
  match parse source with
  | .error e => return { notices, outcome := .error e }
  | .ok page =>
    let r ← renderTree name options fetch page
    return {
      notices := notices ++ r.notices
      outcome := .ok (Fragment.toHtml r.page, r.summary) }

/-- What is wrong with a host. -/
inductive HostIssue where
  /-- The element is no host. -/
  | mount (error : MountError)
  /-- A directive of the blueprint is malformed. -/
  | directive (issue : DirectiveIssue)
  /-- The JSON text has no items. -/
  | data (error : DataError)
deriving DecidableEq, Repr

namespace HostIssue

/-- What an issue says. -/
def message : HostIssue → String
  | mount e => e.message
  | directive issue => issue.message
  | data e => "inline data: " ++ e.message

end HostIssue

/-- What is wrong with the JSON text of a host, if it has one. -/
def dataIssues (host : Element) : List HostIssue :=
  match sourceOf host with
  | some (.inline json) =>
    match decodeItems json with
    | .ok _ => []
    | .error e => [.data e]
  | _ => []

/-- What is wrong with one element as a host. -/
def hostIssues (options : HostOptions) (host : Element) : List HostIssue :=
  match mount host options with
  | .error e => [.mount e]
  | .ok c => c.blueprint.lint.map .directive ++ dataIssues host

/-- What is wrong with the elements of the given name in the text of a page, in document order.
Elements inside others of that name are checked too. -/
def checkPage (source name : String) (options : HostOptions) :
    Except MarkupError (List HostIssue) :=
  (parse source).map fun page => (Fragment.named name page).flatMap (hostIssues options)

end BoundMarkup
