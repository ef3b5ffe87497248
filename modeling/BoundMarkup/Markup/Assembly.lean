import BoundMarkup.Markup.Tree

/-!
# Assembling trees

A tree under construction, as a place in it: the nodes so far at the innermost level, and the
elements that are open around it. Start tags open elements and end tags close them; an end tag
closes whatever was opened inside its element, and one without an open element does nothing, so
every sequence of steps yields a tree.
-/

namespace BoundMarkup.Markup

/-- An element that is still open. -/
structure OpenElement where
  /-- Its tag. -/
  tag : Tag
  /-- The nodes in front of it, the latest first. -/
  before : List Node
deriving Repr

/-- A tree under construction. -/
structure Assembly where
  /-- The nodes of the innermost level, the latest first. -/
  nodes : List Node := []
  /-- The open elements, the innermost first. -/
  enclosing : List OpenElement := []
deriving Repr

namespace OpenElement

/-- The nodes of the level around an open element when it is closed with the given nodes in it;
both lists have the latest first. -/
def closed (o : OpenElement) (nodes : List Node) : List Node :=
  .element o.tag nodes.reverse :: o.before

end OpenElement

namespace Assembly

/-- Adds a node. -/
def append (a : Assembly) (n : Node) : Assembly := { a with nodes := n :: a.nodes }

/-- Adds text, to the text in front if there is any. -/
def appendText (a : Assembly) (text : String) : Assembly :=
  if text.isEmpty then a
  else
    match a.nodes with
    | .text s :: rest => { a with nodes := .text (s ++ text) :: rest }
    | nodes => { a with nodes := .text text :: nodes }

/-- Opens an element. -/
def openElement (a : Assembly) (tag : Tag) : Assembly where
  nodes := []
  enclosing := { tag, before := a.nodes } :: a.enclosing

/-- The assembly in which the innermost element of a name and all inside it are closed, if there
is such an element. -/
def closed? (name : String) (nodes : List Node) : List OpenElement → Option Assembly
  | [] => none
  | o :: outer =>
    if o.tag.name = name then some { nodes := o.closed nodes, enclosing := outer }
    else closed? name (o.closed nodes) outer

/-- Closes the innermost element of that name, with all that was opened inside it. -/
def close (a : Assembly) (name : String) : Assembly :=
  (closed? name a.nodes a.enclosing).getD a

/-- The tree in which all open elements are closed. -/
def finish (a : Assembly) : Fragment :=
  (a.enclosing.foldl (fun nodes o => o.closed nodes) a.nodes).reverse

end Assembly

end BoundMarkup.Markup
