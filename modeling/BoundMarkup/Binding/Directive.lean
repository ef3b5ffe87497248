import BoundMarkup.Markup.Clean
import BoundMarkup.Path.Basic

/-!
# Directives

Attributes that say how an element takes its content, its attributes and its presence from an
item. Each names a path; an attribute map names several, each for an attribute of its own.
-/

namespace BoundMarkup

open Markup Text

/-- The kinds of directives. -/
inductive DirectiveKind where
  /-- The element's text. -/
  | text
  /-- The element's attributes. -/
  | attributeMap
  /-- The element's content, as markup. -/
  | markup
  /-- The element is there only if something holds. -/
  | showIf
  /-- The element is there unless something holds. -/
  | showUnless
deriving DecidableEq, Repr

namespace DirectiveKind

/-- All kinds, in the order in which they are applied. -/
def all : List DirectiveKind := [text, attributeMap, markup, showIf, showUnless]

/-- The attribute that holds a directive. -/
def marker : DirectiveKind → String
  | text => "field"
  | attributeMap => "field-attr"
  | markup => "field-html"
  | showIf => "field-if"
  | showUnless => "field-unless"

end DirectiveKind

/-- One entry of an attribute map. -/
structure AttributeBinding where
  /-- The attribute, in lowercase. -/
  target : String
  /-- Where its value is found. -/
  path : Path
deriving DecidableEq, Repr

/-- What is wrong with a directive. -/
inductive DirectiveIssue where
  /-- The path is refused. -/
  | invalidPath (kind : DirectiveKind) (path : String)
  /-- An entry of an attribute map has no colon. -/
  | missingColon (entry : String)
  /-- An entry of an attribute map has a name that it may not have. -/
  | invalidName (entry : String)
  /-- An entry of an attribute map names an event handler. -/
  | eventHandler (name : String)
deriving DecidableEq, Repr

namespace DirectiveIssue

/-- What an issue says. -/
def message : DirectiveIssue → String
  | invalidPath kind path => kind.marker ++ " has invalid path " ++ quoted path
  | missingColon entry => "field-attr segment " ++ quoted entry ++ " is missing a colon"
  | invalidName entry =>
    "field-attr segment " ++ quoted entry ++ " has an invalid attribute name"
  | eventHandler name => "field-attr refuses event-handler attribute " ++ quoted name

end DirectiveIssue

namespace AttributeBinding

/-- A character that the name of a bound attribute may begin with. -/
def isNameStart (c : Char) : Bool := isLetter c || c == '_' || c == ':'

/-- A character inside the name of a bound attribute. -/
def isNameChar (c : Char) : Bool := isNameStart c || isDigit c || c == '.' || c == '-'

/-- Whether an attribute of that name may be bound. -/
def validName : List Char → Bool
  | [] => false
  | c :: s => isNameStart c && s.all isNameChar

/-- The binding that an entry of an attribute map stands for: a name, a colon and a path. -/
def ofEntry (entry : List Char) : Except DirectiveIssue AttributeBinding :=
  match cutAt [':'] entry with
  | none => .error (.missingColon (String.ofList entry))
  | some (name, path) =>
    let name := trim name
    let path := String.ofList (trim path)
    if !validName name then .error (.invalidName (String.ofList entry))
    else if isEventHandler (String.ofList name) then
      .error (.eventHandler (String.ofList name))
    else
      match Path.parse path with
      | .error _ => .error (.invalidPath .attributeMap path)
      | .ok path => .ok { target := String.ofList (lower name), path }

end AttributeBinding

/-- The entries of an attribute map. They stand between commas; blanks around them and entries
without text do not count. -/
def attributeMap (list : String) : List (Except DirectiveIssue AttributeBinding) :=
  (((pieces ',' list.toList).map trim).filter (!·.isEmpty)).map AttributeBinding.ofEntry

/-- The issues of the entries of an attribute map. -/
def attributeMapIssues (list : String) : List DirectiveIssue :=
  (attributeMap list).filterMap fun
    | .ok _ => none
    | .error issue => some issue

/-- The issues of one kind of directive on a tag. -/
def DirectiveKind.issues (kind : DirectiveKind) (tag : Tag) : List DirectiveIssue :=
  match tag.attr? kind.marker with
  | none => []
  | some value =>
    match kind with
    | .attributeMap => attributeMapIssues value
    | kind =>
      match Path.parse value with
      | .ok _ => []
      | .error _ => [.invalidPath kind value]

/-- What is wrong with the directives in a fragment, in document order. -/
def lint (f : Fragment) : List DirectiveIssue :=
  (Fragment.elements f).flatMap fun e => DirectiveKind.all.flatMap (·.issues e.tag)

end BoundMarkup
