import BoundMarkup.Markup.Name
import BoundMarkup.Markup.Reference
import BoundMarkup.Markup.Tree

/-!
# Writing markup

The written form of a tree. Each text is escaped for the place where it stands, an element whose
name cannot be written is replaced by its children, and an attribute whose name cannot be written is
left out.

What is read from the written form has no further element or attribute if no tag repeats the name of
an attribute, every document type declaration is whole and no raw text has an end tag in it.
Otherwise it may have. Behind a space in the value of a repeated attribute the reader finds
attributes, a declaration is written as it stands, and the texts of a raw-text element are escaped
one by one, so two of them may make up an end tag together.
-/

namespace BoundMarkup.Markup

open Text

/-- A comment's text with every end mark in it disarmed. -/
def escapeComment : List Char → List Char
  | '-' :: '-' :: '>' :: s => "--&gt;".toList ++ escapeComment s
  | c :: s => c :: escapeComment s
  | [] => []

/-- Raw text with every beginning of an end tag disarmed. -/
def escapeRawText : List Char → List Char
  | '<' :: '/' :: s => '<' :: '\\' :: '/' :: escapeRawText s
  | c :: s => c :: escapeRawText s
  | [] => []

namespace Attribute

/-- An attribute as it is written in a tag, with a space in front. -/
def written (a : Attribute) : List Char :=
  ' ' :: a.name.toList ++ ['=', '"'] ++ escapeValue a.value.toList ++ ['"']

end Attribute

namespace Tag

/-- The written form of a start tag. -/
def written (tag : Tag) : List Char :=
  '<' :: tag.name.toList ++
    ((tag.attributes.filter fun a => validAttributeName a.name).flatMap Attribute.written) ++ ['>']

/-- The written form of the end tag. -/
def writtenEnd (tag : Tag) : List Char := '<' :: '/' :: tag.name.toList ++ ['>']

end Tag

mutual

/-- The written form of a node. -/
def Node.written : Node → List Char
  | .element tag children =>
    if validElementName tag.name then
      tag.written ++
        if isVoid tag.name then []
        else if isRawText tag.name then Fragment.rawWritten children ++ tag.writtenEnd
        else Fragment.written children ++ tag.writtenEnd
    else Fragment.written children
  | .text s => escapeText s.toList
  | .comment s => "<!--".toList ++ escapeComment s.toList ++ "-->".toList
  | .doctype s => "<!DOCTYPE ".toList ++ s.toList ++ ['>']

/-- The written form of sibling nodes. -/
def Fragment.written : List Node → List Char
  | [] => []
  | n :: rest => n.written ++ Fragment.written rest

/-- The written form of the children of a raw-text element. -/
def Fragment.rawWritten : List Node → List Char
  | [] => []
  | .text s :: rest => escapeRawText s.toList ++ Fragment.rawWritten rest
  | n :: rest => n.written ++ Fragment.rawWritten rest

end

/-- The written form of a fragment. -/
def Fragment.toHtml (f : Fragment) : String := String.ofList (Fragment.written f)

/-- The written form of an element. -/
def Element.toHtml (e : Element) : String := Fragment.toHtml [e.toNode]

end BoundMarkup.Markup
