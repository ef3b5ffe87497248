import BoundMarkup.Binding.Bind
import BoundMarkup.Binding.Payload

/-!
# Blueprints

Markup that is instantiated once for every item.
-/

namespace BoundMarkup

open Json Markup

/-- Markup with directives. -/
structure Blueprint where
  /-- The markup. -/
  fragment : Fragment

/-- A blueprint bound to an item. -/
structure Instance where
  /-- The nodes. -/
  nodes : Fragment
  /-- What tells the item from the others, if it has it. -/
  key : Option String

namespace Blueprint

/-- The instance of a blueprint for an item. -/
def instantiate (b : Blueprint) (item : Value) (identityKey : String) : Instance where
  nodes := bound b.fragment item
  key := identityOf item identityKey

/-- What is wrong with the directives of a blueprint. -/
def lint (b : Blueprint) : List DirectiveIssue := BoundMarkup.lint b.fragment

end Blueprint

namespace Instance

/-- The written form of an instance. -/
def toHtml (i : Instance) : String := Fragment.toHtml i.nodes

end Instance

end BoundMarkup
