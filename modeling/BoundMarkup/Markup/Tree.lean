import BoundMarkup.Text.Class

/-!
# Markup trees

A fragment is a list of nodes; an element is a tag with child nodes. A tag, the name with its
attributes, is a type of its own, so what concerns attributes only is said of tags.

The view of a fragment is its `listing`: the nodes in document order, each with its depth.
-/

namespace BoundMarkup.Markup

open Text

/-- An attribute as it stands in a tag. -/
structure Attribute where
  /-- The name; readers store it in lowercase. -/
  name : String
  /-- The value, with references decoded. -/
  value : String
deriving DecidableEq, Repr

/-- The name and the attributes of an element. -/
structure Tag where
  /-- The element's name; readers store it in lowercase. -/
  name : String
  /-- The attributes in the order in which they were written. -/
  attributes : List Attribute := []
deriving DecidableEq, Repr

/-- A node of a markup tree. -/
inductive Node where
  /-- An element with its child nodes. -/
  | element (tag : Tag) (children : List Node)
  /-- Text, with references decoded. -/
  | text (text : String)
  /-- A comment. -/
  | comment (text : String)
  /-- A document type declaration. -/
  | doctype (text : String)
deriving Repr

/-- A list of sibling nodes. -/
abbrev Fragment := List Node

/-- An element taken on its own. -/
structure Element where
  /-- The name and the attributes. -/
  tag : Tag
  /-- The child nodes. -/
  children : Fragment
deriving Repr

namespace Tag

/-- A tag without attributes; its name is stored in lowercase. -/
def named (name : String) : Tag where
  name := lowercase name

/-- The value of an attribute, whatever the case of its name. -/
def attr? (tag : Tag) (name : String) : Option String :=
  (tag.attributes.find? fun a => caseless a.name name).map (·.value)

/-- Whether an attribute is present, whatever the case of its name. -/
def hasAttr (tag : Tag) (name : String) : Bool := (tag.attr? name).isSome

/-- Gives the attribute `name` the value `value`: in place if it is there, at the end if not. -/
def assign (name value : String) : List Attribute → List Attribute
  | [] => [{ name := lowercase name, value }]
  | a :: rest =>
    if caseless a.name name then { a with value } :: rest else a :: assign name value rest

/-- Sets an attribute. One that is there keeps its position and spelling; a new one comes last,
in lowercase. -/
def setAttr (tag : Tag) (name value : String) : Tag :=
  { tag with attributes := assign name value tag.attributes }

/-- Removes the first attribute of that name, whatever its case. -/
def removeAttr (tag : Tag) (name : String) : Tag :=
  { tag with attributes := tag.attributes.eraseP fun a => caseless a.name name }

end Tag

namespace Element

/-- The element as a node. -/
def toNode (e : Element) : Node := .element e.tag e.children

/-- The first child element of that name. -/
def child? (e : Element) (name : String) : Option Element :=
  e.children.findSome? fun
    | .element tag children => if tag.name = name then some { tag, children } else none
    | _ => none

end Element

/-- The children that show a text: one text node, or none for the empty text. -/
def textChildren (text : String) : Fragment := if text.isEmpty then [] else [.text text]

/-! ### The listing in document order -/

/-- What a node is apart from its children. -/
inductive Entry where
  /-- An element's tag. -/
  | element (tag : Tag)
  /-- Text. -/
  | text (text : String)
  /-- A comment. -/
  | comment (text : String)
  /-- A document type declaration. -/
  | doctype (text : String)
deriving DecidableEq, Repr

mutual

/-- The listing of one node at the given depth. -/
def Node.listing (depth : Nat) : Node → List (Nat × Entry)
  | .element tag children => (depth, .element tag) :: Fragment.listing (depth + 1) children
  | .text s => [(depth, .text s)]
  | .comment s => [(depth, .comment s)]
  | .doctype s => [(depth, .doctype s)]

/-- The nodes in document order, parents before children, each with its depth. -/
def Fragment.listing (depth : Nat) : List Node → List (Nat × Entry)
  | [] => []
  | n :: rest => n.listing depth ++ Fragment.listing depth rest

end

mutual

/-- The elements of one node in document order. -/
def Node.elements : Node → List Element
  | .element tag children => { tag, children } :: Fragment.elements children
  | _ => []

/-- The elements in document order, parents before children. -/
def Fragment.elements : List Node → List Element
  | [] => []
  | n :: rest => n.elements ++ Fragment.elements rest

end

/-- The elements of the given name in document order. -/
def Fragment.named (name : String) (f : Fragment) : List Element :=
  (Fragment.elements f).filter (·.tag.name = name)

mutual

/-- The text of one node. -/
def Node.textContent : Node → String
  | .element _ children => Fragment.textContent children
  | .text s => s
  | _ => ""

/-- All text nodes, joined in document order. -/
def Fragment.textContent : List Node → String
  | [] => ""
  | n :: rest => n.textContent ++ Fragment.textContent rest

end

end BoundMarkup.Markup
