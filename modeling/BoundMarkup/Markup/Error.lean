/-!
# Errors in markup

A text is refused as markup only where a construct is begun and not ended, or where a
declaration cannot be told. Everything else is read, however odd it is.
-/

namespace BoundMarkup.Markup

/-- Why a text is not markup. -/
inductive MarkupError where
  /-- `<!` is followed by nothing that a declaration begins with. -/
  | unknownDeclaration
  /-- A processing instruction has no end. -/
  | openInstruction
  /-- An XML declaration has no end. -/
  | openXmlDeclaration
  /-- A comment has no end, or its beginning is malformed. -/
  | openComment
  /-- A document type declaration has no end, or its beginning is malformed. -/
  | openDoctype
  /-- A character data section has no end, or its beginning is malformed. -/
  | openLiteral
  /-- A tag has no end. -/
  | openTag
  /-- A quotation inside a tag has no end. -/
  | openValue (quote : Char)
  /-- A document type declaration is blank. -/
  | unnamedDoctype
deriving DecidableEq, Repr

namespace MarkupError

/-- The message for a construct whose end mark is missing. -/
def notClosed (what mark : String) : String :=
  what ++ " not closed: \x60" ++ mark ++ "\x60 not found before end of input"

/-- Whether an error concerns the form of the text, as opposed to what it declares. -/
def isSyntactic : MarkupError → Bool
  | unnamedDoctype => false
  | _ => true

/-- The particulars of an error. -/
def detail : MarkupError → String
  | unknownDeclaration => "unknown or missed symbol in markup"
  | openInstruction => notClosed "processing instruction" "?>"
  | openXmlDeclaration => notClosed "XML declaration" "?>"
  | openComment => notClosed "comment" "-->"
  | openDoctype => notClosed "DOCTYPE" ">"
  | openLiteral => notClosed "CDATA" "]]>"
  | openTag => notClosed "tag" ">"
  | openValue quote => notClosed "attribute value" (String.singleton quote)
  | unnamedDoctype =>
    "\x60<!DOCTYPE>\x60 declaration does not contain a name of a document type"

/-- The particulars of an error after its kind. -/
def reason (e : MarkupError) : String :=
  (if e.isSyntactic then "syntax error: " else "ill-formed document: ") ++ e.detail

/-- The message of an error. -/
def message (e : MarkupError) : String := "Malformed markup: " ++ e.reason

/-- The message of an error followed by those of its causes, outermost first. -/
def chain (e : MarkupError) : List String := [e.message, e.reason, e.detail]

end MarkupError

end BoundMarkup.Markup
