import BoundMarkup.Markup.Tree

/-!
# Editing markup trees

Traversals that change a fragment or collect from it, in document order. Each is given by
functions on tags, so whether it enters an element never depends on what is inside.
-/

namespace BoundMarkup.Markup

mutual

/-- Edits one node as `Fragment.edit` does. -/
def Node.edit (f : Tag → Tag × Option Fragment) : Node → Node
  | .element tag children =>
    match f tag with
    | (tag, some content) => .element tag content
    | (tag, none) => .element tag (Fragment.edit f children)
  | n => n

/-- Gives every element the tag that `f` returns. New content replaces the children and is not
edited itself; without new content the children are edited. -/
def Fragment.edit (f : Tag → Tag × Option Fragment) : List Node → List Node
  | [] => []
  | n :: rest => n.edit f :: Fragment.edit f rest

end

mutual

/-- What `Fragment.retain` leaves of one node. -/
def Node.retain (keep enter : Tag → Bool) : Node → Option Node
  | .element tag children =>
    if keep tag then
      some (.element tag (if enter tag then Fragment.retain keep enter children else children))
    else none
  | n => some n

/-- Removes the elements that `keep` refuses, with all that is in them. The children of an
element that `enter` refuses are left alone. -/
def Fragment.retain (keep enter : Tag → Bool) : List Node → List Node
  | [] => []
  | n :: rest => (n.retain keep enter).toList ++ Fragment.retain keep enter rest

end

mutual

/-- The tags of one node as `Fragment.visited` lists them. -/
def Node.visited (enter : Tag → Bool) : Node → List Tag
  | .element tag children => tag :: if enter tag then Fragment.visited enter children else []
  | _ => []

/-- The tags that a traversal meets, in order, if it passes over the children of the elements
that `enter` refuses. -/
def Fragment.visited (enter : Tag → Bool) : List Node → List Tag
  | [] => []
  | n :: rest => n.visited enter ++ Fragment.visited enter rest

end

mutual

/-- Modifies one node as `Fragment.modify` does. -/
def Node.modify (f : Element → Element) : Nat → Node → Node
  | 0, .element tag children => (f { tag, children }).toNode
  | i + 1, .element tag children => .element tag (Fragment.modify f i children)
  | _, n => n

/-- Replaces the element with the given index in document order by its image under `f`. -/
def Fragment.modify (f : Element → Element) : Nat → List Node → List Node
  | _, [] => []
  | i, n :: rest =>
    if i < n.elements.length then n.modify f i :: rest
    else n :: Fragment.modify f (i - n.elements.length) rest

end

mutual

/-- The topmost elements of one node. -/
def Node.topmost (name : String) : Node → List Element
  | .element tag children =>
    if tag.name = name then [{ tag, children }] else Fragment.topmost name children
  | _ => []

/-- The elements of that name which have no ancestor of that name, in document order. -/
def Fragment.topmost (name : String) : List Node → List Element
  | [] => []
  | n :: rest => n.topmost name ++ Fragment.topmost name rest

end

mutual

/-- Replaces the topmost elements of one node; also returns the elements that are left. -/
def Node.replaceTopmost (name : String) (news : List Element) : Node → Node × List Element
  | .element tag children =>
    if tag.name = name then
      match news with
      | [] => (.element tag children, [])
      | e :: news => (e.toNode, news)
    else
      let (children, news) := Fragment.replaceTopmost name news children
      (.element tag children, news)
  | n => (n, news)

/-- Replaces the topmost elements of that name, in document order, by the given elements, as
long as there are any; also returns the elements that are left. -/
def Fragment.replaceTopmost (name : String) (news : List Element) :
    List Node → List Node × List Element
  | [] => ([], news)
  | n :: rest =>
    let (n, news) := n.replaceTopmost name news
    let (rest, news) := Fragment.replaceTopmost name news rest
    (n :: rest, news)

end

end BoundMarkup.Markup
