import BoundMarkup.Binding.Directive
import BoundMarkup.Markup.Edit
import BoundMarkup.Path.Lookup

/-!
# Binding

Applies the directives in a fragment to an item, in five passes over the whole fragment: texts,
attribute maps, markup, and then the two kinds of removal. Markup that comes from the item is
cleaned, and it is data: no later pass looks into it for directives.

Nothing here fails. A path that is refused or leads to nothing gives an empty text or no markup,
leaves an attribute as it is, and counts as false.
-/

namespace BoundMarkup

open Json Markup

namespace Binding

/-- What a directive is given when its path is looked up. -/
def contentOf (item : Value) (path : String) : String := textOf (resolve item path)

/-- The text pass on one tag. -/
def bindText (item : Value) (tag : Tag) : Tag × Option Fragment :=
  (tag, (tag.attr? DirectiveKind.text.marker).map fun path => textChildren (contentOf item path))

/-- Whether a binding would give an attribute a URL that runs code. -/
def refuses (b : AttributeBinding) (value : String) : Bool :=
  isUrlAttribute b.target && isExecutableUrl value

/-- Gives an attribute its value, if there is one and it is safe. -/
def applyBinding (item : Value) (tag : Tag) (b : AttributeBinding) : Tag :=
  match b.path.lookup item with
  | none => tag
  | some v => if refuses b (displayText v) then tag else tag.setAttr b.target (displayText v)

/-- The well-formed entries of an attribute map, in order. -/
def bindingsOf (list : String) : List AttributeBinding :=
  (attributeMap list).filterMap Except.toOption

/-- The attribute pass on one tag. The entries are those of the map before the pass. -/
def bindAttributes (item : Value) (tag : Tag) : Tag :=
  match tag.attr? DirectiveKind.attributeMap.marker with
  | none => tag
  | some list => (bindingsOf list).foldl (applyBinding item) tag

/-- The markup pass on one tag. -/
def bindMarkup (item : Value) (tag : Tag) : Tag × Option Fragment :=
  (tag, (tag.attr? DirectiveKind.markup.marker).map fun path => clean (contentOf item path))

/-- Whether a tag has its content from the markup pass. -/
def hasMarkup (tag : Tag) : Bool := tag.hasAttr DirectiveKind.markup.marker

/-- Whether an element with that tag stays if something holds. -/
def keepsIf (item : Value) (tag : Tag) : Bool :=
  match tag.attr? DirectiveKind.showIf.marker with
  | none => true
  | some path => isTruthy (resolve item path)

/-- Whether an element with that tag stays unless something holds. -/
def keepsUnless (item : Value) (tag : Tag) : Bool :=
  match tag.attr? DirectiveKind.showUnless.marker with
  | none => true
  | some path => !isTruthy (resolve item path)

/-- The text pass. -/
def textPass (item : Value) (f : Fragment) : Fragment := Fragment.edit (bindText item) f

/-- The attribute pass. -/
def attributePass (item : Value) (f : Fragment) : Fragment :=
  Fragment.edit (fun tag => (bindAttributes item tag, none)) f

/-- The markup pass. -/
def markupPass (item : Value) (f : Fragment) : Fragment := Fragment.edit (bindMarkup item) f

/-- A removal pass. -/
def removalPass (keep : Tag → Bool) (f : Fragment) : Fragment :=
  Fragment.retain keep (!hasMarkup ·) f

end Binding

open Binding

/-- The fragment with its directives applied to an item. -/
def bound (f : Fragment) (item : Value) : Fragment :=
  removalPass (keepsUnless item)
    (removalPass (keepsIf item) (markupPass item (attributePass item (textPass item f))))

/-! ### Notices -/

/-- What is ignored or refused in binding. -/
inductive BindNotice where
  /-- A directive's path is refused. -/
  | ignoredPath (kind : DirectiveKind) (error : PathError)
  /-- An entry of an attribute map is malformed. -/
  | skippedEntry (element : String) (issue : DirectiveIssue)
  /-- An entry of an attribute map names an event handler. -/
  | refusedEntry (element : String) (issue : DirectiveIssue)
  /-- A value would run code as a URL. -/
  | refusedUrl (target element : String)
  /-- Something is left aside in markup from the item. -/
  | markup (notice : CleanNotice)
deriving DecidableEq, Repr

namespace BindNotice

/-- The log line of a notice. -/
def line : BindNotice → LogLine
  | ignoredPath kind e => ⟨.debug, "Ignoring " ++ kind.marker ++ " directive: " ++ e.message⟩
  | skippedEntry element issue =>
    ⟨.debug, "Skipping binding on <" ++ element ++ ">: " ++ issue.message⟩
  | refusedEntry element issue =>
    ⟨.warn, "Refusing binding on <" ++ element ++ ">: " ++ issue.message⟩
  | refusedUrl target element =>
    ⟨.warn, "Refusing executable URL for " ++ target ++ " on <" ++ element ++ ">"⟩
  | markup notice => notice.line

end BindNotice

namespace Binding

/-- The notice of the path of a directive, if it is refused. -/
def pathNotices (kind : DirectiveKind) (tag : Tag) : List BindNotice :=
  match tag.attr? kind.marker with
  | none => []
  | some path =>
    match Path.parse path with
    | .ok _ => []
    | .error e => [.ignoredPath kind e]

/-- The notice of an entry of an attribute map, if it has no effect and is not just absent. -/
def entryNotices (item : Value) (element : String) :
    Except DirectiveIssue AttributeBinding → List BindNotice
  | .error (.eventHandler name) => [.refusedEntry element (.eventHandler name)]
  | .error issue => [.skippedEntry element issue]
  | .ok b =>
    match b.path.lookup item with
    | none => []
    | some v => if refuses b (displayText v) then [.refusedUrl b.target element] else []

/-- The notices of the attribute pass on one tag. -/
def attributeNotices (item : Value) (tag : Tag) : List BindNotice :=
  match tag.attr? DirectiveKind.attributeMap.marker with
  | none => []
  | some list => (attributeMap list).flatMap (entryNotices item tag.name)

/-- The notices of the markup pass on one tag. -/
def markupNotices (item : Value) (tag : Tag) : List BindNotice :=
  pathNotices .markup tag ++
    match tag.attr? DirectiveKind.markup.marker with
    | none => []
    | some path => (cleanNotices (contentOf item path)).map .markup

/-- The notices of a removal pass. -/
def removalNotices (kind : DirectiveKind) (keep : Tag → Bool) (f : Fragment) :
    List BindNotice :=
  (Fragment.visited (fun tag => keep tag && !hasMarkup tag) f).flatMap (pathNotices kind)

end Binding

/-- What is ignored or refused when a fragment is bound to an item, in order. -/
def bindNotices (f : Fragment) (item : Value) : List BindNotice :=
  let texts := textPass item f
  let attributes := attributePass item texts
  let markups := markupPass item attributes
  let shown := removalPass (keepsIf item) markups
  (Fragment.visited (fun tag => !tag.hasAttr DirectiveKind.text.marker) f).flatMap
      (pathNotices .text) ++
    (Fragment.visited (fun _ => true) texts).flatMap (attributeNotices item) ++
    (Fragment.visited (!hasMarkup ·) attributes).flatMap (markupNotices item) ++
    removalNotices .showIf (keepsIf item) markups ++
    removalNotices .showUnless (keepsUnless item) shown

end BoundMarkup
