import BoundMarkup.Binding.Controller

/-!
# Hosts

A host is an element of a page that shows items. Its first `template` child is the blueprint, and
its attributes say where the items come from. What a controller shows is projected back onto the
host, with attributes that tell whether it is loading or has failed.
-/

namespace BoundMarkup

open Markup Text

namespace Host

/-- The attribute with a locator. -/
def sourceAttribute : String := "src"

/-- The attribute with a JSON text. -/
def dataAttribute : String := "data"

/-- The attribute that names the member by which items are told apart. -/
def keyAttribute : String := "key"

/-- The attribute that is there while items are being fetched. -/
def loadingAttribute : String := "loading"

/-- The attribute that tells why there are no new items. -/
def errorAttribute : String := "error"

/-- The child element with the blueprint. -/
def templateName : String := "template"

end Host

open Host

/-- What holds for hosts that do not say otherwise. -/
structure HostOptions where
  /-- The member by which items are told apart. -/
  identityKey : String := "id"
deriving DecidableEq, Repr

/-- Why an element is no host. -/
inductive MountError where
  /-- The element has no template. -/
  | missingTemplate (element : String)
deriving DecidableEq, Repr

namespace MountError

/-- What an error says. -/
def message : MountError → String
  | missingTemplate element => "<" ++ element ++ "> has no <template> child"

end MountError

/-- An attribute's value without blanks around it, unless nothing is left. -/
def nonBlank? (value : Option String) : Option String :=
  (value.map trimmed).filter (!·.isEmpty)

/-- The source that a host declares. A JSON text wins over a locator. -/
def sourceOf (host : Element) : Option Source :=
  match host.tag.attr? dataAttribute with
  | some json => some (.inline json)
  | none => (nonBlank? (host.tag.attr? sourceAttribute)).map .remote

/-- The member by which the items of a host are told apart. -/
def identityKeyOf (host : Element) (options : HostOptions) : String :=
  (nonBlank? (host.tag.attr? keyAttribute)).getD options.identityKey

/-- An idle controller for a host. -/
def mount (host : Element) (options : HostOptions) : Except MountError Controller :=
  match host.child? templateName with
  | none => .error (.missingTemplate host.tag.name)
  | some template =>
    .ok {
      blueprint := { fragment := template.children }
      identityKey := identityKeyOf host options }

/-- The children of a host that shows a controller: its own until items were rendered, and then
the template followed by the instances. -/
def projectedChildren (host : Element) (c : Controller) : Fragment :=
  if c.hasRendered then
    ((host.child? templateName).map Element.toNode).toList ++ c.instances.flatMap (·.nodes)
  else host.children

/-- The tag of a host that shows the phase of a controller and its error. -/
def projectedTag (tag : Tag) (phase : Phase) (error : Option LoadError) : Tag :=
  let tag :=
    match phase with
    | .loading => tag.setAttr loadingAttribute ""
    | _ => tag.removeAttr loadingAttribute
  match phase, error with
  | .errored, some e => tag.setAttr errorAttribute e.message
  | _, _ => tag.removeAttr errorAttribute

/-- The host as it shows what a controller is about. -/
def project (host : Element) (c : Controller) : Element where
  tag := projectedTag host.tag c.phase c.error
  children := projectedChildren host c

end BoundMarkup
