import BoundMarkup.Binding.Blueprint
import BoundMarkup.Binding.Event
import BoundMarkup.Binding.Fetch

/-!
# Controllers

A controller has a blueprint, the items it shows and the instances made of them. It is given its
items outright or a source to get them from. For a remote source it hands out an acquisition,
which is fetched elsewhere and comes back as a completion; meanwhile the controller may be
configured again, and then the completion is stale. Each configuration has a token by which this
is seen, and only the completion of the latest one is accepted.

Every operation is a transition: the new controller together with the events that it sends.
-/

namespace BoundMarkup

open Json Markup Text

/-- Where the items of a controller come from. -/
inductive Source where
  /-- From a JSON text. -/
  | inline (json : String)
  /-- From what a locator leads to. -/
  | remote (locator : String)
deriving DecidableEq, Repr

/-- Why a controller has no new items. -/
inductive LoadError where
  /-- The JSON text has no items. -/
  | inline (error : DataError)
  /-- What the locator leads to has no items. -/
  | remote (locator : String) (error : FetchError)
deriving DecidableEq, Repr

namespace LoadError

/-- What an error says. -/
def message : LoadError → String
  | inline e => "Invalid inline data: " ++ e.message
  | remote locator e => "Failed to load " ++ locator ++ ": " ++ e.message

end LoadError

/-- What a controller is about. -/
inductive Phase where
  /-- Nothing was configured. -/
  | idle
  /-- Items are being fetched. -/
  | loading
  /-- The instances show the items. -/
  | rendered
  /-- The latest source gave no items. -/
  | errored
deriving DecidableEq, Repr

namespace Phase

/-- The name of a phase. -/
def name : Phase → String
  | idle => "idle"
  | loading => "loading"
  | rendered => "rendered"
  | errored => "errored"

end Phase

/-- A fetch that is to be done, with the token of the configuration that asked for it. -/
structure Acquisition where
  /-- The token. -/
  token : Nat
  /-- What is to be fetched. -/
  locator : String
deriving DecidableEq, Repr

/-- An acquisition that was done. -/
structure Completion where
  /-- The token of the acquisition. -/
  token : Nat
  /-- What was fetched. -/
  locator : String
  /-- The text behind it. -/
  result : Except FetchError String

namespace Acquisition

/-- Fetches what an acquisition asks for. -/
def run {m : Type → Type} [Monad m] (a : Acquisition) (fetch : Fetcher m) : m Completion := do
  let result ← fetch a.locator
  return { token := a.token, locator := a.locator, result }

end Acquisition

/-- A controller. -/
structure Controller where
  /-- The markup that is instantiated for each item. -/
  blueprint : Blueprint
  /-- The member of an item that tells it from the others. -/
  identityKey : String := "id"
  /-- The items. -/
  items : List Value := []
  /-- The instances, one for each item. -/
  instances : List Instance := []
  /-- What the controller is about. -/
  phase : Phase := .idle
  /-- Why there are no new items, if the latest source gave none. -/
  error : Option LoadError := none
  /-- The number of configurations so far. -/
  token : Nat := 0
  /-- Whether items were ever rendered. -/
  hasRendered : Bool := false

/-- What is worth a log line in a transition. -/
inductive ControllerNotice where
  /-- A fetch is asked for. -/
  | loading (locator : String) (token : Nat)
  /-- A completion is stale. -/
  | stale (locator : String) (token current : Nat)
  /-- There are no new items. -/
  | failed (error : LoadError)
  /-- Something is ignored in binding. -/
  | binding (notice : BindNotice)
  /-- An item cannot be told from one before it. -/
  | duplicateKey (identityKey key : String)
deriving DecidableEq, Repr

namespace ControllerNotice

/-- The log line of a notice. -/
def line : ControllerNotice → LogLine
  | loading locator token =>
    ⟨.debug, "Loading " ++ locator ++ " (request " ++ toString token ++ ")"⟩
  | stale locator token current =>
    ⟨.debug, "Discarding stale response from " ++ locator ++ " (request " ++ toString token ++
      ", current " ++ toString current ++ ")"⟩
  | failed e => ⟨.warn, e.message⟩
  | binding notice => notice.line
  | duplicateKey identityKey key =>
    ⟨.debug, "Duplicate " ++ identityKey ++ " " ++ quoted key ++ " in items"⟩

end ControllerNotice

/-- What an operation makes of a controller. -/
structure Transition (α : Type) where
  /-- The controller after the operation. -/
  controller : Controller
  /-- The result of the operation. -/
  result : α
  /-- The events that are sent, in order. -/
  events : List RenderEvent
  /-- The notices, in order. -/
  notices : List ControllerNotice

namespace Transition

/-- A transition with another result. -/
def withResult {α β : Type} (t : Transition α) (result : β) : Transition β :=
  { t with result }

end Transition

namespace Controller

/-- The notices of rendering items; `seen` are the keys of the items before. -/
def renderNotices (c : Controller) (seen : List String) : List Value → List ControllerNotice
  | [] => []
  | item :: rest =>
    (bindNotices c.blueprint.fragment item).map .binding ++
      match identityOf item c.identityKey with
      | none => c.renderNotices seen rest
      | some key =>
        (if seen.contains key then [.duplicateKey c.identityKey key] else []) ++
          c.renderNotices (key :: seen) rest

/-- Shows other items. -/
def replaceItems (c : Controller) (items : List Value) : Transition Unit where
  controller :=
    { c with
      items
      instances := items.map (c.blueprint.instantiate · c.identityKey)
      phase := .rendered
      error := none
      hasRendered := true }
  result := ()
  events := [.rendered items.length]
  notices := c.renderNotices [] items

/-- Records that there are no new items; what is shown stays. -/
def fail (c : Controller) (e : LoadError) : Transition Unit where
  controller := { c with phase := .errored, error := some e }
  result := ()
  events := [.errored e.message]
  notices := [.failed e]

/-- The controller with the next token. -/
def superseded (c : Controller) : Controller := { c with token := c.token + 1 }

/-- Points a controller to a source. A text is rendered at once; for a locator the result is the
acquisition to run. Acquisitions from before are superseded. -/
def configure (c : Controller) (source : Source) : Transition (Option Acquisition) :=
  let c := c.superseded
  match source with
  | .inline json =>
    match decodeItems json with
    | .ok items => (c.replaceItems items).withResult none
    | .error e => (c.fail (.inline e)).withResult none
  | .remote locator =>
    { controller := { c with phase := .loading, error := none }
      result := some { token := c.token, locator }
      events := [.loading locator]
      notices := [.loading locator c.token] }

/-- The items of a completion. -/
def itemsOf (completion : Completion) : Except FetchError (List Value) :=
  match completion.result with
  | .error e => .error e
  | .ok body =>
    match decodeItems body with
    | .ok items => .ok items
    | .error e => .error (.payload e.message)

/-- Takes a completion, unless it is stale. The result says whether it was taken. -/
def complete (c : Controller) (completion : Completion) : Transition Bool :=
  if completion.token = c.token then
    match itemsOf completion with
    | .ok items => (c.replaceItems items).withResult true
    | .error e => (c.fail (.remote completion.locator e)).withResult true
  else
    { controller := c
      result := false
      events := []
      notices := [.stale completion.locator completion.token c.token] }

/-- Shows the given items; acquisitions from before are superseded. -/
def setItems (c : Controller) (items : List Value) : Transition Unit :=
  c.superseded.replaceItems items

/-- Points a controller to a source and, if that is remote, fetches from it. -/
def load {m : Type → Type} [Monad m] (c : Controller) (source : Source) (fetch : Fetcher m) :
    m (Transition Unit) := do
  let first := c.configure source
  match first.result with
  | none => return first.withResult ()
  | some acquisition =>
    let completion ← acquisition.run fetch
    -- Nothing has come between, so the completion is not stale.
    let second := first.controller.complete completion
    return {
      controller := second.controller
      result := ()
      events := first.events ++ second.events
      notices := first.notices ++ second.notices }

end Controller

end BoundMarkup
