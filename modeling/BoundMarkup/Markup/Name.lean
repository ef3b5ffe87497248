import BoundMarkup.Text.Class

/-!
# Names of elements and attributes

Which names may be written in markup, and the two groups of elements with rules of their own:
void elements, which have no content, and raw-text elements, whose content is not markup.
-/

namespace BoundMarkup.Markup

open Text

/-- Elements that never have children or an end tag. -/
def voidNames : List String :=
  ["area", "base", "br", "col", "embed", "hr", "img", "input", "link", "meta", "source",
   "track", "wbr"]

/-- Elements whose content is raw text. -/
def rawTextNames : List String := ["script", "style"]

/-- Whether elements of this name are void. -/
def isVoid (name : String) : Bool := voidNames.contains name

/-- Whether elements of this name hold raw text. -/
def isRawText (name : String) : Bool := rawTextNames.contains name

/-- A character inside an element name. -/
def isNameChar (c : Char) : Bool :=
  isLowerAscii c || isDigit c || c == '.' || c == '_' || c == '-'

/-- An element name: a lowercase letter and name characters, then perhaps a colon and at least
one further name character. -/
def validElementName (name : String) : Bool :=
  match name.toList with
  | [] => false
  | c :: s =>
    isLowerAscii c &&
      match s.dropWhile isNameChar with
      | [] => true
      | ':' :: suffix => !suffix.isEmpty && suffix.all isNameChar
      | _ => false

/-- A character that cannot stand in an attribute name: it would end the name or the tag. -/
def endsAttributeName (c : Char) : Bool :=
  isBlank c || isControl c || c == '"' || c == '\'' || c == '>' || c == '<' || c == '/' || c == '='

/-- An attribute name that can be written without ending the tag or starting another
attribute. -/
def validAttributeName (name : String) : Bool :=
  !name.toList.isEmpty && !name.toList.any endsAttributeName

end BoundMarkup.Markup
