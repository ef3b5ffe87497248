import BoundMarkup.Proofs.Markup.Tokens

/-!
# Parsing undoes writing up to a normal form

A fragment that is written and parsed comes back in its normal form: what is not written is not
there, what is escaped for good stays escaped, and texts that meet are one text. Nothing else
changes.

The tokens of a node do to a tree under construction what its normal form does when it is put there
as a whole; for an element this is so because its end tag closes just what its start tag opened.

## Main definitions

* `Fragment.joined`: the fragment without empty texts, and with texts that meet joined;
* `Fragment.normalized`: the normal form of a fragment;
* `Node.IsRestorable`: a node that is read as what its normal form is made of;
* `Node.IsFaithful`: such a node that is no declaration and has no byte-order mark in front.

## Main results

* `reverse_foldl_push`: assembling nodes one after another joins texts that meet;
* `Fragment.foldl_add_tokens`: tokens assemble to the normal form;
* `parse_toHtml`: parsing the written form of a faithful fragment gives its normal form;
* `parse_toHtml_of_readsOn`: this is so for a restorable fragment in whose written form no
  byte-order mark is passed over.
-/

namespace BoundMarkup.Markup

open Text

/-! ### The normal form -/

/-- A text in front of sibling nodes, joined to the text in front of them if there is any. -/
def Fragment.joinText (s : String) (f : List Node) : List Node :=
  if s.isEmpty then f
  else
    match f with
    | .text t :: rest => .text (s ++ t) :: rest
    | f => .text s :: f

/-- The fragment without empty texts, and with texts that meet joined. What is inside elements
stays. -/
def Fragment.joined : List Node → List Node
  | [] => []
  | .text s :: rest => Fragment.joinText s (Fragment.joined rest)
  | n :: rest => n :: Fragment.joined rest

/-- A text as the content of an element that holds raw text. -/
def Node.rawEscaped : Node → Node
  | .text s => .text (String.ofList (escapeRawText s.toList))
  | n => n

mutual

/-- The nodes that a node is read back as, with texts not joined at the outermost level. An element
whose name is not valid is replaced by what is in it. -/
def Node.spliced : Node → List Node
  | .element tag children =>
    if validElementName tag.name then
      [.element tag.normalized <|
        if isVoid tag.name then []
        else if isRawText tag.name then Fragment.joined (children.map Node.rawEscaped)
        else Fragment.joined (Fragment.spliced children)]
    else Fragment.spliced children
  | .text s => [.text s]
  | .comment s => [.comment (String.ofList (escapeComment s.toList))]
  | .doctype s => [.doctype s]

/-- The nodes that sibling nodes are read back as, with texts not joined at the outermost level. -/
def Fragment.spliced : List Node → List Node
  | [] => []
  | n :: rest => n.spliced ++ Fragment.spliced rest

end

/-- The normal form of a fragment. -/
def Fragment.normalized (f : Fragment) : Fragment := Fragment.joined (Fragment.spliced f)

namespace Node

/-- A node that is read as what its normal form is made of: an element of which the names of the
attributes differ in more than case, with raw text in one piece, or a declaration that is whole and
not empty, or any text or comment. -/
def IsRestorable : Node → Prop
  | element tag children =>
    (tag.attributes.map fun a => lowercase a.name).Nodup ∧
      (isRawText tag.name = true → children = [] ∨ ∃ s, children = [.text s])
  | text _ => True
  | comment _ => True
  | doctype s => IsDeclaration s.toList ∧ s ≠ ""

theorem IsRestorable.isReadable {n : Node} (h : n.IsRestorable) : n.IsReadable := by
  cases n with
  | element tag children => exact h.2
  | text s => trivial
  | comment s => trivial
  | doctype s => exact h

/-- A node that reading does not take for something else: no document type declaration, no text with
a byte-order mark in front, no element with names of attributes that differ in case only, and no
element that holds raw text in more than one piece. -/
def IsFaithful : Node → Prop
  | element tag children =>
    (tag.attributes.map fun a => lowercase a.name).Nodup ∧
      (isRawText tag.name = true → children = [] ∨ ∃ s, children = [.text s])
  | text s => s.toList.head? ≠ some byteOrderMark
  | comment _ => True
  | doctype _ => False

theorem IsFaithful.isRestorable {n : Node} (h : n.IsFaithful) : n.IsRestorable := by
  cases n with
  | element tag children => exact h
  | text s => trivial
  | comment s => trivial
  | doctype s => exact False.elim h

theorem IsFaithful.isReadable {n : Node} (h : n.IsFaithful) : n.IsReadable :=
  h.isRestorable.isReadable

theorem IsFaithful.isUnmarked {n : Node} (h : n.IsFaithful) : n.IsUnmarked := by
  cases n with
  | element tag children => trivial
  | text s => exact h
  | comment s => trivial
  | doctype s => exact False.elim h

end Node

/-! ### Joining texts -/

/-- Adds a node behind others, of which the latest is the first; a text is added to the text in
front of it. -/
def Fragment.push (nodes : List Node) : Node → List Node
  | .text s =>
    if s.isEmpty then nodes
    else
      match nodes with
      | .text t :: rest => .text (t ++ s) :: rest
      | nodes => .text s :: nodes
  | n => n :: nodes

/-- Nodes behind others, of which the latest is the first, with the texts joined that meet. -/
def Fragment.glued : List Node → List Node → List Node
  | .text s :: before, .text t :: f => before.reverse ++ .text (s ++ t) :: f
  | before, f => before.reverse ++ f

/-- Whether a text is added to what is in front of it or to what is behind it is the same. -/
private theorem glued_push_text (before f : List Node) (s : String) :
    Fragment.glued (Fragment.push before (.text s)) f =
      Fragment.glued before (Fragment.joinText s f) := by
  by_cases hs : s.isEmpty = true
  · simp [Fragment.push, Fragment.joinText, hs]
  · -- What matters is whether there is a text on either side.
    rcases before with _ | ⟨_ | t | _ | _, before⟩ <;> rcases f with _ | ⟨_ | u | _ | _, f⟩ <;>
      simp [Fragment.push, Fragment.joinText, Fragment.glued, hs, String.append_assoc]

/-- Assembling nodes one after another joins the texts that meet. -/
private theorem reverse_foldl_push_eq_glued (f before : List Node) :
    (f.foldl Fragment.push before).reverse = Fragment.glued before (Fragment.joined f) := by
  -- What was assembled before is general; `glued` says how it meets the rest.
  induction f generalizing before with
  | nil => simp [Fragment.joined, Fragment.glued]
  | cons n f ih =>
    rw [List.foldl_cons, ih]
    cases n with
    | text s => rw [Fragment.joined, glued_push_text]
    | element tag children => simp [Fragment.joined, Fragment.push, Fragment.glued]
    | comment s => simp [Fragment.joined, Fragment.push, Fragment.glued]
    | doctype s => simp [Fragment.joined, Fragment.push, Fragment.glued]

/-- Assembling nodes one after another, from none on, joins the texts that meet. -/
theorem reverse_foldl_push (f : List Node) :
    (f.foldl Fragment.push []).reverse = Fragment.joined f := by
  rw [reverse_foldl_push_eq_glued]
  simp [Fragment.glued]

/-- A text that is added in two pieces is one text. -/
theorem push_text_append (nodes : List Node) (s t : String) :
    Fragment.push (Fragment.push nodes (.text s)) (.text t) =
      Fragment.push nodes (.text (s ++ t)) := by
  by_cases hs : s.isEmpty = true
  · rw [String.isEmpty_iff] at hs
    simp [Fragment.push, hs]
  · by_cases ht : t.isEmpty = true
    · rw [String.isEmpty_iff] at ht
      simp [Fragment.push, ht]
    · rcases nodes with _ | ⟨_ | u | _ | _, nodes⟩ <;>
        simp_all [Fragment.push, String.append_assoc]

/-! ### Assembling -/

namespace Assembly

/-- Puts a node behind the nodes of the innermost level. -/
def put (a : Assembly) (n : Node) : Assembly := { a with nodes := Fragment.push a.nodes n }

/-- Nodes that are put one after another leave the open elements as they are. -/
theorem foldl_put (f : List Node) (a : Assembly) :
    f.foldl put a = { a with nodes := f.foldl Fragment.push a.nodes } := by
  induction f generalizing a with
  | nil => rfl
  | cons n f ih => exact ih (a.put n)

theorem appendText_eq_put (a : Assembly) (s : String) : a.appendText s = a.put (.text s) := by
  by_cases hs : s.isEmpty = true
  · simp [appendText, put, Fragment.push, hs]
  · rcases a with ⟨_ | ⟨_ | t | _ | _, nodes⟩, enclosing⟩ <;>
      simp [appendText, put, Fragment.push, hs]

/-- A character that is written as text is added as text. -/
theorem add_textToken (a : Assembly) (c : Char) :
    a.add (textToken c) = a.put (.text (String.singleton c)) := by
  rw [← appendText_eq_put]
  unfold textToken
  split
  · next h =>
    subst h
    rfl
  · split
    · next h =>
      subst h
      rfl
    · split
      · next h =>
        subst h
        rfl
      · rfl

/-- The characters of a written text add up to the text. -/
theorem foldl_textToken (s : List Char) (a : Assembly) :
    (s.map textToken).foldl add a = a.put (.text (String.ofList s)) := by
  induction s generalizing a with
  | nil => rfl
  | cons c s ih =>
    -- The first character is a text of its own, to which the others are added as one text.
    rw [List.map_cons, List.foldl_cons, ih, add_textToken, put, put, push_text_append]
    rw [put, String.ofList_cons]

/-- The start tag of an element that keeps its children opens it. -/
theorem add_opening {tag : Tag} (h : validElementName tag.name = true)
    (hn : (tag.attributes.map fun a => lowercase a.name).Nodup) (hvoid : isVoid tag.name = false)
    (a : Assembly) : a.add (.tag .opening tag.writtenText) = a.openElement tag.normalized := by
  rw [add, ofText?_writtenText h, readBack_eq_normalized h hn]
  simp [appendTag, Tag.normalized, hvoid]

/-- The end tag of the innermost open element closes just that. -/
theorem add_closing (tag : Tag) (before nodes : List Node) (enclosing : List OpenElement) :
    add { nodes, enclosing := { tag, before } :: enclosing } (.closing tag.name.toList) =
      { nodes := .element tag nodes.reverse :: before, enclosing } := by
  simp [add, close, closed?, OpenElement.closed]

end Assembly

/-- The content of an element that holds raw text in one piece. -/
theorem Fragment.joined_rawEscaped {children : List Node}
    (h : children = [] ∨ ∃ s, children = [.text s]) :
    Fragment.joined (children.map Node.rawEscaped) =
      textChildren (String.ofList (Fragment.rawWritten children)) := by
  rcases h with rfl | ⟨s, rfl⟩
  · rfl
  · simp [Fragment.rawWritten, Node.rawEscaped, Fragment.joined, Fragment.joinText, textChildren]

mutual

/-- The tokens of a node assemble to what it is read back as. -/
theorem Node.foldl_add_tokens : ∀ {n : Node} (_ : n.Each Node.IsRestorable) (a : Assembly),
    n.tokens.foldl Assembly.add a = n.spliced.foldl Assembly.put a
  | .element tag children, h, a => by
    rw [Node.Each, Node.IsRestorable] at h
    obtain ⟨⟨hnames, hchildren⟩, h⟩ := h
    rw [Node.tokens, Node.spliced]
    split
    · next hvalid =>
      have hback := readBack_eq_normalized hvalid hnames
      split
      · -- The children of a void element have no tokens.
        next hvoid =>
        rw [List.foldl_cons, List.foldl_nil, Assembly.add, ofText?_writtenText hvalid, hback]
        simp [Assembly.appendTag, Tag.normalized, hvoid, Assembly.put, Fragment.push,
          Assembly.append]
      · next hvoid =>
        split
        · -- The content of a raw-text element comes with its tag.
          next hraw =>
          rw [List.foldl_cons, List.foldl_nil, Assembly.add, ofText?_writtenText hvalid, hback,
            Fragment.joined_rawEscaped (hchildren hraw)]
          rfl
        · -- The children are assembled inside the element, which its end tag closes.
          rw [List.foldl_cons, Assembly.add_opening hvalid hnames (Bool.eq_false_iff.mpr hvoid),
            List.foldl_append, Fragment.foldl_add_tokens h, Assembly.foldl_put,
            ← reverse_foldl_push]
          exact Assembly.add_closing tag.normalized a.nodes _ a.enclosing
    · exact Fragment.foldl_add_tokens h a
  | .text s, _, a => by
    rw [Node.tokens, Assembly.foldl_textToken, Node.spliced, String.ofList_toList]
    rfl
  | .comment s, _, a => by
    rw [Node.tokens, Node.spliced]
    rfl
  | .doctype s, _, a => by
    rw [Node.tokens, Node.spliced, List.foldl_cons, Assembly.add, String.ofList_toList]
    rfl

/-- The tokens of a fragment assemble to what it is read back as. -/
theorem Fragment.foldl_add_tokens : ∀ {f : List Node} (_ : Fragment.Each Node.IsRestorable f)
    (a : Assembly),
    (Fragment.tokens f).foldl Assembly.add a = (Fragment.spliced f).foldl Assembly.put a
  | [], _, _ => by
    rw [Fragment.tokens, Fragment.spliced]
    rfl
  | n :: f, h, a => by
    rw [Fragment.each_cons] at h
    rw [Fragment.tokens, Fragment.spliced, List.foldl_append, List.foldl_append,
      Node.foldl_add_tokens h.1, Fragment.foldl_add_tokens h.2]

end

/-- The tokens of a faithful fragment assemble to what it is read back as. -/
theorem Fragment.foldl_tokens {f : List Node} (h : Fragment.Each Node.IsFaithful f)
    (a : Assembly) :
    (Fragment.tokens f).foldl Assembly.add a = (Fragment.spliced f).foldl Assembly.put a :=
  Fragment.foldl_add_tokens (h.imp fun _ => Node.IsFaithful.isRestorable) a

/-- Parsing the written form of a restorable fragment gives its normal form if no byte-order mark is
passed over in it. -/
theorem parse_toHtml_of_readsOn {f : Fragment} (h : Fragment.Each Node.IsRestorable f)
    (hmark : (passMark (Fragment.written f)).1 = false) (hon : Fragment.ReadsOn false f []) :
    parse (Fragment.toHtml f) = .ok (Fragment.normalized f) := by
  have hread := read_written_of_readsOn (h.imp fun _ => Node.IsRestorable.isReadable) hmark hon
  rw [← String.toList_ofList (l := Fragment.written f)] at hread
  rw [Fragment.toHtml, parse_of_read hread, Fragment.foldl_add_tokens h, Assembly.foldl_put,
    Assembly.finish, List.foldl_nil, reverse_foldl_push]
  rfl

/-- Parsing the written form of a faithful fragment gives its normal form. -/
theorem parse_toHtml {f : Fragment} (h : Fragment.Each Node.IsFaithful f) :
    parse (Fragment.toHtml f) = .ok (Fragment.normalized f) := by
  have hread := read_written (h.imp fun _ => Node.IsFaithful.isReadable)
    (h.imp fun _ => Node.IsFaithful.isUnmarked)
  rw [← String.toList_ofList (l := Fragment.written f)] at hread
  rw [Fragment.toHtml, parse_of_read hread, Fragment.foldl_tokens h, Assembly.foldl_put,
    Assembly.finish, List.foldl_nil, reverse_foldl_push]
  rfl

/-- A text that meets what is left of an element without a valid name, a comment with an end mark, a
void element with attributes and a child, and raw text with an end tag. -/
theorem parse_toHtml_mixed :
    parse (Fragment.toHtml
        [.text "a", .element ⟨"B C", []⟩ [.text "&", .comment "-->"],
          .element ⟨"br", [⟨"ID", "\"<"⟩, ⟨"x y", "1"⟩]⟩ [.text "t"],
          .element ⟨"script", []⟩ [.text "</script>"]]) =
      .ok [.text "a&", .comment "--&gt;", .element ⟨"br", [⟨"id", "\"<"⟩]⟩ [],
        .element ⟨"script", []⟩ [.text "<\\/script>"]] := by
  refine (parse_toHtml ?_).trans ?_
  · simp [Node.Each, Node.IsFaithful, isRawText, rawTextNames, lowercase, byteOrderMark]
  · rfl

end BoundMarkup.Markup
