import BoundMarkup.Markup.Parse
import BoundMarkup.Markup.Writer

/-!
# Cleaning untrusted markup

Cleaning removes elements that can run code or send data, attributes that handle events, and
attributes that lead to an executable URL; comments and document type declarations go too.
Everything else stays as it is.
-/

namespace BoundMarkup.Markup

open Text

/-- Elements that are removed with everything in them. What `style` holds is raw text here but
markup to a browser that finds it inside `svg` or `math`. -/
def deniedNames : List String :=
  ["script", "noscript", "style", "iframe", "frame", "frameset", "object", "embed", "applet",
   "form", "base", "meta", "link"]

/-- Attributes whose value is followed as a URL. -/
def urlAttributes : List String :=
  ["href", "src", "action", "formaction", "xlink:href", "data", "poster", "background", "srcset",
   "cite"]

/-- Beginnings of URLs that run code when they are followed. -/
def executableSchemes : List String := ["javascript:", "vbscript:", "data:text/html"]

/-- Whether elements of this name are removed, whatever the case of its letters. -/
def isDenied (name : String) : Bool := deniedNames.any (caseless · name)

/-- Whether an attribute handles an event: its name has more than two letters and begins with
`on`, in any case. -/
def isEventHandler (name : String) : Bool :=
  2 < name.toList.length && lower (name.toList.take 2) == ['o', 'n']

/-- Whether an attribute's value is followed as a URL. -/
def isUrlAttribute (name : String) : Bool := urlAttributes.any (caseless · name)

/-- A character that a reader of URLs passes over: white space of ASCII and controls. -/
def isIgnoredInUrl (c : Char) : Bool := c == ' ' || isControl c

/-- The front of a URL as its scheme is read: without the ignored characters, in lowercase, and
long enough for every scheme that is asked for. -/
def schemeText (value : String) : List Char :=
  lower ((value.toList.filter (!isIgnoredInUrl ·)).take 32)

/-- Whether a URL runs code when it is followed. -/
def isExecutableUrl (value : String) : Bool :=
  executableSchemes.any fun scheme => (past? scheme.toList (schemeText value)).isSome

namespace Attribute

/-- Whether cleaning leaves an attribute. -/
def isClean (a : Attribute) : Bool :=
  !isEventHandler a.name && !(isUrlAttribute a.name && isExecutableUrl a.value)

end Attribute

namespace Tag

/-- The tag with its clean attributes only. -/
def cleaned (tag : Tag) : Tag := { tag with attributes := tag.attributes.filter Attribute.isClean }

end Tag

mutual

/-- What cleaning leaves of one node. -/
def Node.cleaned : Node → Option Node
  | .element tag children =>
    if isDenied tag.name then none else some (.element tag.cleaned (Fragment.cleaned children))
  | .text s => some (.text s)
  | .comment _ => none
  | .doctype _ => none

/-- The fragment without what is unsafe. -/
def Fragment.cleaned : List Node → List Node
  | [] => []
  | n :: rest => n.cleaned.toList ++ Fragment.cleaned rest

end

/-- The clean tree of a text. A text that is not markup is a single text node. -/
def clean (markup : String) : Fragment :=
  match parse markup with
  | .ok f => Fragment.cleaned f
  | .error _ => [.text markup]

/-- The written form of the clean tree of a text. -/
def sanitize (markup : String) : String := (clean markup).toHtml

/-- What is left aside when a text is cleaned. -/
inductive CleanNotice where
  /-- A tag is not read as it is written. -/
  | tag (notice : TagNotice)
  /-- The text is not markup. -/
  | unparseable (error : MarkupError)
deriving DecidableEq, Repr

namespace CleanNotice

/-- The log line of a notice. -/
def line : CleanNotice → LogLine
  | tag notice => notice.line
  | unparseable e => ⟨.debug, "Inserting unparseable markup as text: " ++ e.message⟩

end CleanNotice

/-- What is left aside when a text is cleaned. -/
def cleanNotices (markup : String) : List CleanNotice :=
  (parseNotices markup).map .tag ++
    match parse markup with
    | .ok _ => []
    | .error e => [.unparseable e]

end BoundMarkup.Markup
