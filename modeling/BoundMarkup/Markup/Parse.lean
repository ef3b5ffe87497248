import BoundMarkup.Markup.Assembly
import BoundMarkup.Markup.Reading

/-!
# Parsing markup

The tree of a text: its tokens, assembled one after another. Tags that are left open are closed
at the end, end tags without a start are ignored, and tags that cannot be written stay text, so
only a text that cannot be read to its end is refused.
-/

namespace BoundMarkup.Markup

/-- How a tag of a given form is shown as text. -/
def tagAsText (form : TagForm) (content : List Char) : String :=
  String.ofList ('<' :: content ++ if form = .childless then ['/', '>'] else ['>'])

namespace Assembly

/-- Adds the element that a tag stands for. A void element is complete with its start tag. -/
def appendTag (a : Assembly) (form : TagForm) (tag : Tag) : Assembly :=
  match form with
  | .opening => if isVoid tag.name then a.append (.element tag []) else a.openElement tag
  | .childless => a.append (.element tag [])
  | .raw content => a.append (.element tag (textChildren (String.ofList content)))

/-- Adds what a token stands for. -/
def add (a : Assembly) : Token → Assembly
  | .character c => a.appendText (String.singleton c)
  | .reference name => a.appendText (String.ofList (decodeReference name))
  | .literal text => a.appendText (String.ofList text)
  | .tag form content =>
    match Tag.ofText? content with
    | some tag => a.appendTag form tag
    | none => a.appendText (tagAsText form content)
  | .closing name => a.close (String.ofList name)
  | .comment text => a.append (.comment (String.ofList text))
  | .doctype text => a.append (.doctype (String.ofList text))
  | .instruction _ => a

/-- Adds everything that is read, unless reading fails. -/
def addReading (a : Assembly) : Reading → Except MarkupError Assembly
  | .done => .ok a
  | .failed e => .error e
  | .next token rest => (a.add token).addReading rest

end Assembly

/-- The tree of a markup text. -/
def parse (markup : String) : Except MarkupError Fragment :=
  (({} : Assembly).addReading (read markup.toList)).map Assembly.finish

/-- What is left aside when a text is parsed, up to where reading fails. -/
def parseNotices (markup : String) : List TagNotice :=
  (read markup.toList).tokens.flatMap fun
    | .tag _ content => tagNotices content
    | _ => []

end BoundMarkup.Markup
