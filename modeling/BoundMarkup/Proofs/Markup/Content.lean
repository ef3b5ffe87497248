import BoundMarkup.Markup.Parse
import BoundMarkup.Proofs.Markup.Assembly
import Mathlib.Data.List.Chain

/-!
# Nothing is lost, repeated or moved

A tree under construction grows at its end only. What is added stands, in document order, behind all
that is there, and an end tag closes elements without moving anything. So whatever is opened, added
and closed, and in whatever order, the finished tree has just what was added, in the order in which
it was added.

Texts that meet are joined and empty ones are left out, so a text may not be found again as a node.
What is kept are its characters: a tree is compared with what was added piece by piece, where a
piece is a node that is no text or a character of a text.

## Main definitions

* `Fragment.entries`: the nodes of a fragment in document order, without their depths;
* `otherNodes`, `textsBetween`: the nodes that are no texts, and what is written between them;
* `Fragment.pieces`, `Assembly.pieces`: the pieces of a fragment and of a tree under construction;
* `Operation`, `assembled`: what is done to a tree under construction, and the tree that results;
* `Fragment.IsJoined`: siblings of which no text is empty and no two texts meet.

## Main results

* `Assembly.pieces_finish`, `Assembly.pieces_close`: closing moves no piece;
* `otherNodes_assembled`: for any operations, the tree has what was added, in the same order, and no
  element in it has an empty text or two texts that meet;
* `isJoinedThroughout_parse`: no element of a parsed tree has an empty text or two texts that meet.
-/

namespace BoundMarkup.Markup

/-! ### Entries -/

namespace Entry

/-- Whether a node is a text. -/
def isText : Entry → Bool
  | text _ => true
  | _ => false

/-- The text of a text; any other node has none of its own. -/
def ownText : Entry → String
  | text s => s
  | _ => ""

/-- The pieces of a node without its children: the characters of a text, or the node itself. -/
def pieces : Entry → List (Entry ⊕ Char)
  | text s => s.toList.map .inr
  | e => [.inl e]

end Entry

/-- The nodes that are no texts. -/
def otherNodes (entries : List Entry) : List Entry := entries.filter (!·.isText)

/-- The texts in front of the first node that is no text, between one and the next, and behind the
last one, joined in each of these places. -/
def textsBetween (entries : List Entry) : List String :=
  (entries.splitOnP (!·.isText)).map fun texts => String.join (texts.map Entry.ownText)

/-- The nodes that are no texts among pieces. -/
theorem otherNodes_eq_filterMap (entries : List Entry) :
    otherNodes entries = (entries.flatMap Entry.pieces).filterMap Sum.getLeft? := by
  induction entries with
  | nil => rfl
  | cons e entries ih =>
    rw [List.flatMap_cons, List.filterMap_append, ← ih]
    cases e <;> simp [otherNodes, Entry.isText, Entry.pieces]

/-- Characters in front of pieces belong to what stands in front of the first node. -/
private theorem splitOnP_map_inr (s : List Char) (pieces : List (Entry ⊕ Char)) :
    (s.map Sum.inr ++ pieces).splitOnP Sum.isLeft =
      (pieces.splitOnP Sum.isLeft).modifyHead (s.map Sum.inr ++ ·) := by
  induction s with
  | nil =>
    simp only [List.map_nil, List.nil_append]
    cases pieces.splitOnP Sum.isLeft <;> rfl
  | cons c s ih =>
    rw [List.map_cons, List.cons_append, List.splitOnP_cons_eq_if_modifyHead, ih]
    simp [List.modifyHead_modifyHead, Function.comp_def]

/-- The texts between the nodes are the characters between them. -/
theorem textsBetween_eq_map (entries : List Entry) :
    textsBetween entries = ((entries.flatMap Entry.pieces).splitOnP Sum.isLeft).map fun pieces =>
      String.ofList (pieces.filterMap Sum.getRight?) := by
  induction entries with
  | nil => rfl
  | cons e entries ih =>
    rw [textsBetween] at ih ⊢
    rw [List.splitOnP_cons_eq_if_modifyHead, List.flatMap_cons]
    cases e with
    | text s =>
      rw [Entry.pieces, splitOnP_map_inr, if_neg (by simp [Entry.isText])]
      -- The text is added to the first of the texts on both sides.
      generalize entries.splitOnP (!·.isText) = texts at ih
      generalize (entries.flatMap Entry.pieces).splitOnP Sum.isLeft = groups at ih
      cases texts <;> cases groups <;>
        simp_all [Entry.ownText, List.filterMap_map, Function.comp_def]
    | _ => simpa [Entry.isText, Entry.pieces, List.splitOnP_cons_eq_if_modifyHead] using ih

/-! ### Pieces of fragments -/

mutual

/-- The entries of a node do not depend on its depth. -/
private theorem Node.map_snd_listing (d d' : Nat) : ∀ n : Node,
    (n.listing d).map (·.2) = (n.listing d').map (·.2)
  | .element tag children => by
    rw [Node.listing, Node.listing, List.map_cons, List.map_cons,
      Fragment.map_snd_listing (d + 1) (d' + 1) children]
  | .text s => by simp [Node.listing]
  | .comment s => by simp [Node.listing]
  | .doctype s => by simp [Node.listing]

/-- The entries of sibling nodes do not depend on their depth. -/
private theorem Fragment.map_snd_listing (d d' : Nat) : ∀ f : List Node,
    (Fragment.listing d f).map (·.2) = (Fragment.listing d' f).map (·.2)
  | [] => by simp [Fragment.listing]
  | n :: f => by
    rw [Fragment.listing, Fragment.listing, List.map_append, List.map_append,
      Node.map_snd_listing d d' n, Fragment.map_snd_listing d d' f]

end

namespace Fragment

/-- The nodes of a fragment in document order, parents before children. -/
def entries (f : Fragment) : List Entry := (Fragment.listing 0 f).map (·.2)

/-- The pieces of a fragment in document order. -/
def pieces (f : Fragment) : List (Entry ⊕ Char) := (entries f).flatMap Entry.pieces

theorem entries_cons (n : Node) (f : List Node) :
    entries (n :: f) = (n.listing 0).map (·.2) ++ entries f := by
  rw [entries, Fragment.listing, List.map_append, entries]

@[simp]
theorem pieces_nil : pieces [] = [] := by
  simp [pieces, entries, Fragment.listing]

@[simp]
theorem pieces_element (tag : Tag) (children f : List Node) :
    pieces (.element tag children :: f) =
      .inl (.element tag) :: (pieces children ++ pieces f) := by
  rw [pieces, entries_cons, Node.listing, List.map_cons, map_snd_listing _ 0]
  simp [pieces, entries, Entry.pieces]

@[simp]
theorem pieces_text (s : String) (f : List Node) :
    pieces (.text s :: f) = s.toList.map .inr ++ pieces f := by
  simp [pieces, entries_cons, Node.listing, Entry.pieces]

@[simp]
theorem pieces_comment (s : String) (f : List Node) :
    pieces (.comment s :: f) = .inl (.comment s) :: pieces f := by
  simp [pieces, entries_cons, Node.listing, Entry.pieces]

@[simp]
theorem pieces_doctype (s : String) (f : List Node) :
    pieces (.doctype s :: f) = .inl (.doctype s) :: pieces f := by
  simp [pieces, entries_cons, Node.listing, Entry.pieces]

@[simp]
theorem pieces_append (f g : List Node) : pieces (f ++ g) = pieces f ++ pieces g := by
  induction f with
  | nil => simp
  | cons n f ih =>
    rw [List.cons_append, pieces, entries_cons, pieces, entries_cons, List.flatMap_append,
      List.flatMap_append, List.append_assoc, ← pieces, ← pieces, ih]

@[simp]
theorem pieces_textChildren (s : String) : pieces (textChildren s) = s.toList.map .inr := by
  unfold textChildren
  split
  · next hs =>
    rw [String.isEmpty_iff] at hs
    simp [hs]
  · rw [pieces_text, pieces_nil, List.append_nil]

end Fragment

/-! ### Assembling -/

/-- The pieces in front of an open element on its level, and the element. -/
def OpenElement.pieces (o : OpenElement) : List (Entry ⊕ Char) :=
  Fragment.pieces o.before.reverse ++ [.inl (.element o.tag)]

/-- The pieces of a tree under construction, in document order: those of the outer levels come
first. -/
def Assembly.pieces (a : Assembly) : List (Entry ⊕ Char) :=
  a.enclosing.reverse.flatMap OpenElement.pieces ++ Fragment.pieces a.nodes.reverse

namespace Assembly

theorem pieces_append (a : Assembly) (n : Node) :
    (a.append n).pieces = a.pieces ++ Fragment.pieces [n] := by
  simp [Assembly.pieces, append]

/-- Text adds its characters, whether it is joined to another text or not. -/
theorem pieces_appendText (a : Assembly) (s : String) :
    (a.appendText s).pieces = a.pieces ++ s.toList.map .inr := by
  unfold appendText
  split
  · next hs =>
    rw [String.isEmpty_iff] at hs
    simp [hs]
  · split
    · next t rest hnodes => simp [Assembly.pieces, hnodes]
    · simp [Assembly.pieces]

theorem pieces_openElement (a : Assembly) (tag : Tag) :
    (a.openElement tag).pieces = a.pieces ++ [.inl (.element tag)] := by
  simp [Assembly.pieces, OpenElement.pieces, openElement]

/-- An element that is closed stays between what was in front of it and what is in it. -/
theorem pieces_closed (o : OpenElement) (nodes : List Node) :
    Fragment.pieces (o.closed nodes).reverse = o.pieces ++ Fragment.pieces nodes.reverse := by
  simp [OpenElement.closed, OpenElement.pieces]

theorem pieces_foldl_closed (enclosing : List OpenElement) (nodes : List Node) :
    Fragment.pieces (enclosing.foldl (fun nodes o => o.closed nodes) nodes).reverse =
      Assembly.pieces { nodes, enclosing } := by
  -- The nodes grow with every level that is closed, so they are general.
  induction enclosing generalizing nodes with
  | nil => simp [Assembly.pieces]
  | cons o outer ih =>
    rw [List.foldl_cons, ih]
    simp [Assembly.pieces, pieces_closed]

/-- Closing all that is open moves nothing. -/
theorem pieces_finish (a : Assembly) : Fragment.pieces a.finish = a.pieces :=
  pieces_foldl_closed a.enclosing a.nodes

/-- An end tag moves nothing, whatever it closes. -/
theorem pieces_close (a : Assembly) (name : String) : (a.close name).pieces = a.pieces := by
  rw [← pieces_finish, finish_close, pieces_finish]

end Assembly

/-! ### Joined texts -/

/-- Whether a node is a text. -/
def Node.isText : Node → Bool
  | .text _ => true
  | _ => false

/-- Sibling nodes among which no text is empty and no two texts meet. -/
structure Fragment.IsJoined (f : List Node) : Prop where
  /-- No text is empty. -/
  not_mem : Node.text "" ∉ f
  /-- No text stands behind another one. -/
  isChain : f.IsChain fun n m => ¬(n.isText = true ∧ m.isText = true)

/-- A node that is no element, or an element with joined children. -/
def Node.HasJoined : Node → Prop
  | .element _ children => Fragment.IsJoined children
  | .text _ => True
  | .comment _ => True
  | .doctype _ => True

/-- Sibling nodes that are joined, and so are the children of every element in them. -/
def Fragment.IsJoinedThroughout (f : List Node) : Prop :=
  Fragment.IsJoined f ∧ Fragment.Each Node.HasJoined f

namespace Fragment

variable {f : List Node}

theorem isJoinedThroughout_nil : IsJoinedThroughout [] :=
  ⟨⟨List.not_mem_nil, .nil⟩, each_nil⟩

theorem isJoined_reverse : IsJoined f.reverse ↔ IsJoined f := by
  have hchain : f.reverse.IsChain (fun n m => ¬(n.isText = true ∧ m.isText = true)) ↔
      f.IsChain fun n m => ¬(n.isText = true ∧ m.isText = true) := by
    simp only [List.isChain_reverse, and_comm]
  exact ⟨fun h => ⟨fun hmem => h.not_mem (List.mem_reverse.mpr hmem), hchain.mp h.isChain⟩,
    fun h => ⟨fun hmem => h.not_mem (List.mem_reverse.mp hmem), hchain.mpr h.isChain⟩⟩

theorem isJoined_cons {n : Node} : IsJoined (n :: f) ↔
    n ≠ .text "" ∧ (∀ m ∈ f.head?, ¬(n.isText = true ∧ m.isText = true)) ∧ IsJoined f := by
  constructor
  · rintro ⟨hmem, hchain⟩
    obtain ⟨hn, hf⟩ := List.ne_and_not_mem_of_not_mem_cons hmem
    obtain ⟨hhead, hchain⟩ := List.isChain_cons.mp hchain
    exact ⟨hn.symm, hhead, hf, hchain⟩
  · rintro ⟨hn, hhead, hf, hchain⟩
    exact ⟨List.not_mem_cons_of_ne_of_not_mem hn.symm hf, List.isChain_cons.mpr ⟨hhead, hchain⟩⟩

/-- The children that show a text are that text alone, if it is not empty. -/
theorem isJoinedThroughout_textChildren (s : String) : IsJoinedThroughout (textChildren s) := by
  unfold textChildren
  split
  · exact isJoinedThroughout_nil
  · next hs =>
    rw [String.isEmpty_iff] at hs
    refine ⟨isJoined_cons.mpr ⟨?_, nofun, isJoinedThroughout_nil.1⟩, each_text.mpr trivial⟩
    simpa using hs

/-- A node that is no text meets no text. -/
theorem IsJoinedThroughout.cons (h : IsJoinedThroughout f) {n : Node} (hn : n.isText = false)
    (heach : n.Each Node.HasJoined) : IsJoinedThroughout (n :: f) := by
  refine ⟨isJoined_cons.mpr ⟨?_, ?_, h.1⟩, each_cons.mpr ⟨heach, h.2⟩⟩
  · rintro rfl
    cases hn
  · rintro m - ⟨htext, -⟩
    exact Bool.noConfusion (hn.symm.trans htext)

end Fragment

namespace Assembly

/-- A tree under construction in which texts are joined on every level. -/
def IsJoined (a : Assembly) : Prop :=
  Fragment.IsJoinedThroughout a.nodes ∧
    ∀ o ∈ a.enclosing, Fragment.IsJoinedThroughout o.before

namespace IsJoined

variable {a : Assembly}

theorem append (h : a.IsJoined) {n : Node} (hn : n.isText = false)
    (heach : n.Each Node.HasJoined) : (a.append n).IsJoined := ⟨h.1.cons hn heach, h.2⟩

theorem appendElement (h : a.IsJoined) (tag : Tag) {children : List Node}
    (hchildren : Fragment.IsJoinedThroughout children) :
    (a.append (.element tag children)).IsJoined := by
  refine h.append rfl ?_
  rw [Node.Each]
  exact hchildren

theorem appendComment (h : a.IsJoined) (s : String) : (a.append (.comment s)).IsJoined := by
  refine h.append rfl ?_
  rw [Node.Each]
  trivial

theorem appendDoctype (h : a.IsJoined) (s : String) : (a.append (.doctype s)).IsJoined := by
  refine h.append rfl ?_
  rw [Node.Each]
  trivial

/-- Text that is added is joined to the text in front of it. -/
theorem appendText (h : a.IsJoined) (s : String) : (a.appendText s).IsJoined := by
  have heach (t : String) : (Node.text t).Each Node.HasJoined := by
    rw [Node.Each]
    trivial
  unfold Assembly.appendText
  split
  · exact h
  · next hs =>
    rw [String.isEmpty_iff] at hs
    split
    · next t rest hnodes =>
      obtain ⟨⟨hjoined, hall⟩, hbefore⟩ := h
      rw [hnodes] at hjoined hall
      obtain ⟨-, hhead, hrest⟩ := Fragment.isJoined_cons.mp hjoined
      refine ⟨⟨Fragment.isJoined_cons.mpr ⟨?_, hhead, hrest⟩, ?_⟩, hbefore⟩
      · simp [hs]
      · exact Fragment.each_cons.mpr ⟨heach _, (Fragment.each_cons.mp hall).2⟩
    · next hnodes =>
      refine ⟨⟨Fragment.isJoined_cons.mpr ⟨?_, ?_, h.1.1⟩, ?_⟩, h.2⟩
      · simp [hs]
      · -- The text would have been joined to a text in front of it.
        rintro m hm ⟨-, htext⟩
        cases m with
        | text t =>
          obtain ⟨rest, hrest⟩ := List.head?_eq_some_iff.mp hm
          exact hnodes t rest hrest
        | _ => cases htext
      · exact Fragment.each_cons.mpr ⟨heach _, h.1.2⟩

theorem openElement (h : a.IsJoined) (tag : Tag) : (a.openElement tag).IsJoined :=
  ⟨Fragment.isJoinedThroughout_nil, List.forall_mem_cons.mpr h⟩

/-- An element that is closed has joined children and is no text itself. -/
theorem closed {nodes : List Node} {o : OpenElement} {outer : List OpenElement}
    (h : IsJoined { nodes, enclosing := o :: outer }) :
    IsJoined { nodes := o.closed nodes, enclosing := outer } := by
  obtain ⟨⟨hnodes, heach⟩, henclosing⟩ := h
  obtain ⟨hbefore, houter⟩ := List.forall_mem_cons.mp henclosing
  have helement : (Node.element o.tag nodes.reverse).Each Node.HasJoined := by
    rw [Node.Each]
    exact ⟨Fragment.isJoined_reverse.mpr hnodes, Fragment.each_reverse.mpr heach⟩
  exact ⟨hbefore.cons rfl helement, houter⟩

theorem of_closed? {name : String} {nodes : List Node} {enclosing : List OpenElement}
    (h : IsJoined { nodes, enclosing }) {b : Assembly}
    (hb : closed? name nodes enclosing = some b) : b.IsJoined := by
  induction enclosing generalizing nodes with
  | nil => cases hb
  | cons o outer ih =>
    rw [closed?] at hb
    split at hb
    · cases hb
      exact h.closed
    · exact ih h.closed hb

theorem close (h : a.IsJoined) (name : String) : (a.close name).IsJoined := by
  unfold Assembly.close
  cases hb : closed? name a.nodes a.enclosing with
  | none => exact h
  | some b => exact h.of_closed? hb

theorem foldl_closed {nodes : List Node} {enclosing : List OpenElement}
    (h : IsJoined { nodes, enclosing }) :
    Fragment.IsJoinedThroughout (enclosing.foldl (fun nodes o => o.closed nodes) nodes) := by
  induction enclosing generalizing nodes with
  | nil => exact h.1
  | cons o outer ih => exact ih h.closed

theorem finish (h : a.IsJoined) : Fragment.IsJoinedThroughout a.finish := by
  obtain ⟨hjoined, heach⟩ := h.foldl_closed
  exact ⟨Fragment.isJoined_reverse.mpr hjoined, Fragment.each_reverse.mpr heach⟩

end IsJoined

end Assembly

/-! ### Operations -/

/-- What is done to a tree under construction. -/
inductive Operation where
  /-- An element is opened. -/
  | openElement (tag : Tag)
  /-- An element without children is added. -/
  | appendElement (tag : Tag)
  /-- A comment is added. -/
  | appendComment (text : String)
  /-- A document type declaration is added. -/
  | appendDoctype (text : String)
  /-- Text is added. -/
  | appendText (text : String)
  /-- The innermost open element of a name is closed. -/
  | close (name : String)
deriving DecidableEq, Repr

/-- What an operation adds. -/
def Operation.added : Operation → List Entry
  | openElement tag => [.element tag]
  | appendElement tag => [.element tag]
  | appendComment text => [.comment text]
  | appendDoctype text => [.doctype text]
  | appendText text => [.text text]
  | close _ => []

/-- The tree under construction after an operation. -/
def Assembly.perform (a : Assembly) : Operation → Assembly
  | .openElement tag => a.openElement tag
  | .appendElement tag => a.append (.element tag [])
  | .appendComment text => a.append (.comment text)
  | .appendDoctype text => a.append (.doctype text)
  | .appendText text => a.appendText text
  | .close name => a.close name

/-- The tree that results from operations, when all that is still open is closed. -/
def assembled (operations : List Operation) : Fragment :=
  (operations.foldl Assembly.perform {}).finish

namespace Assembly

/-- An operation adds its pieces behind all the others. -/
theorem pieces_perform (a : Assembly) (o : Operation) :
    (a.perform o).pieces = a.pieces ++ o.added.flatMap Entry.pieces := by
  cases o with
  | openElement tag => simp [perform, Operation.added, Entry.pieces, pieces_openElement]
  | appendElement tag => simp [perform, Operation.added, Entry.pieces, pieces_append]
  | appendComment text => simp [perform, Operation.added, Entry.pieces, pieces_append]
  | appendDoctype text => simp [perform, Operation.added, Entry.pieces, pieces_append]
  | appendText text => simp [perform, Operation.added, Entry.pieces, pieces_appendText]
  | close name => simp [perform, Operation.added, pieces_close]

theorem pieces_foldl_perform (operations : List Operation) (a : Assembly) :
    (operations.foldl perform a).pieces =
      a.pieces ++ (operations.flatMap Operation.added).flatMap Entry.pieces := by
  induction operations generalizing a with
  | nil => simp
  | cons o operations ih =>
    rw [List.foldl_cons, ih, pieces_perform, List.flatMap_cons, List.flatMap_append,
      List.append_assoc]

theorem IsJoined.perform {a : Assembly} (h : a.IsJoined) (o : Operation) :
    (a.perform o).IsJoined := by
  cases o with
  | openElement tag => exact h.openElement tag
  | appendElement tag => exact h.appendElement tag Fragment.isJoinedThroughout_nil
  | appendComment text => exact h.appendComment text
  | appendDoctype text => exact h.appendDoctype text
  | appendText text => exact h.appendText text
  | close name => exact h.close name

theorem IsJoined.foldl_perform (operations : List Operation) {a : Assembly} (h : a.IsJoined) :
    (operations.foldl Assembly.perform a).IsJoined := by
  induction operations generalizing a with
  | nil => exact h
  | cons o operations ih => exact ih (h.perform o)

end Assembly

/-- The pieces of an assembled tree are those that were added, in the same order. -/
theorem pieces_assembled (operations : List Operation) :
    Fragment.pieces (assembled operations) =
      (operations.flatMap Operation.added).flatMap Entry.pieces := by
  rw [assembled, Assembly.pieces_finish, Assembly.pieces_foldl_perform]
  simp [Assembly.pieces]

/-- Whatever is opened, added and closed, and in whatever order: in the tree that results, the nodes
that are no texts are those that were opened or added, each once and in the same order; what is
written in front of them, between one and the next and behind them is what was added there; and
neither in the tree itself nor in any element is there an empty text or a text behind a text. -/
theorem otherNodes_assembled (operations : List Operation) :
    otherNodes (Fragment.entries (assembled operations)) =
        otherNodes (operations.flatMap Operation.added) ∧
      textsBetween (Fragment.entries (assembled operations)) =
        textsBetween (operations.flatMap Operation.added) ∧
      Fragment.IsJoined (assembled operations) ∧
      Fragment.Each Node.HasJoined (assembled operations) := by
  have hpieces : (Fragment.entries (assembled operations)).flatMap Entry.pieces =
      (operations.flatMap Operation.added).flatMap Entry.pieces := pieces_assembled operations
  have hnone : Assembly.IsJoined {} := ⟨Fragment.isJoinedThroughout_nil, nofun⟩
  refine ⟨?_, ?_, (hnone.foldl_perform operations).finish⟩
  · rw [otherNodes_eq_filterMap, otherNodes_eq_filterMap, hpieces]
  · rw [textsBetween_eq_map, textsBetween_eq_map, hpieces]

/-- An end tag that crosses another element closes that one, too, and a stray one is ignored. -/
example :
    assembled [.openElement { name := "b" }, .openElement { name := "i" }, .appendText "x",
      .close "b", .appendText "y", .close "i", .appendText "z"] =
      [.element { name := "b" } [.element { name := "i" } [.text "x"]], .text "yz"] := by
  rfl

/-! ### Parsing -/

/-- The raw text that comes with a tag. -/
def TagForm.rawText : TagForm → List Char
  | raw text => text
  | _ => []

/-- The pieces of what a token stands for. -/
def Token.pieces : Token → List (Entry ⊕ Char)
  | .character c => [.inr c]
  | .reference name => (decodeReference name).map .inr
  | .literal text => text.map .inr
  | .tag form content =>
    (Tag.ofText? content).elim ((tagAsText form content).toList.map .inr) fun tag =>
      .inl (.element tag) :: form.rawText.map .inr
  | .closing _ => []
  | .comment text => [.inl (.comment (String.ofList text))]
  | .doctype text => [.inl (.doctype (String.ofList text))]
  | .instruction _ => []

/-- The pieces of what a reading stands for. -/
def Reading.pieces (r : Reading) : List (Entry ⊕ Char) := r.tokens.flatMap Token.pieces

namespace Assembly

/-- A tag is added behind all that is there, whether its element is left open or complete. -/
theorem pieces_appendTag (a : Assembly) (form : TagForm) (tag : Tag) :
    (a.appendTag form tag).pieces =
      a.pieces ++ .inl (.element tag) :: form.rawText.map .inr := by
  unfold appendTag
  split
  · split
    · -- A void element is complete with its start tag.
      simp [pieces_append, TagForm.rawText]
    · exact pieces_openElement a tag
  · simp [pieces_append, TagForm.rawText]
  · simp [pieces_append, TagForm.rawText]

/-- A token adds its pieces behind all the others. -/
theorem pieces_add (a : Assembly) (t : Token) : (a.add t).pieces = a.pieces ++ t.pieces := by
  unfold add
  split
  · simp [pieces_appendText, Token.pieces]
  · simp [pieces_appendText, Token.pieces]
  · simp [pieces_appendText, Token.pieces]
  · next form content =>
    -- A tag that is not valid stays text.
    split
    · next tag hof => simp [pieces_appendTag, Token.pieces, hof]
    · next hof => simp [pieces_appendText, Token.pieces, hof]
  · simp [pieces_close, Token.pieces]
  · simp [pieces_append, Token.pieces]
  · simp [pieces_append, Token.pieces]
  · simp [Token.pieces]

theorem pieces_foldl_add (tokens : List Token) (a : Assembly) :
    (tokens.foldl add a).pieces = a.pieces ++ tokens.flatMap Token.pieces := by
  induction tokens generalizing a with
  | nil => simp
  | cons t tokens ih =>
    rw [List.foldl_cons, ih, pieces_add, List.flatMap_cons, List.append_assoc]

/-- A token that has no pieces leaves no trace in the finished tree. -/
theorem finish_add_of_pieces_eq_nil {t : Token} (h : t.pieces = []) (a : Assembly) :
    (a.add t).finish = a.finish := by
  cases t with
  | character c => cases h
  | reference name =>
    have hname : decodeReference name = [] := List.map_eq_nil_iff.mp h
    rw [add, hname]
    rfl
  | literal text =>
    have htext : text = [] := List.map_eq_nil_iff.mp h
    rw [add, htext]
    rfl
  | tag form content =>
    rw [Token.pieces] at h
    cases hof : Tag.ofText? content with
    | some tag =>
      rw [hof] at h
      cases h
    | none =>
      rw [hof] at h
      simp [tagAsText] at h
  | closing name => exact finish_close a _
  | comment text => cases h
  | doctype text => cases h
  | instruction text => rfl

theorem finish_foldl_add_of_pieces_eq_nil {tokens : List Token}
    (h : tokens.flatMap Token.pieces = []) (a : Assembly) :
    (tokens.foldl add a).finish = a.finish := by
  induction tokens generalizing a with
  | nil => rfl
  | cons t tokens ih =>
    rw [List.flatMap_cons, List.append_eq_nil_iff] at h
    rw [List.foldl_cons, ih h.2, finish_add_of_pieces_eq_nil h.1]

end Assembly

namespace Assembly.IsJoined

variable {a : Assembly}

/-- The only child of a raw-text element is a text that is not empty. -/
theorem appendTag (h : a.IsJoined) (form : TagForm) (tag : Tag) :
    (a.appendTag form tag).IsJoined := by
  unfold Assembly.appendTag
  split
  · split
    · exact h.appendElement tag Fragment.isJoinedThroughout_nil
    · exact h.openElement tag
  · exact h.appendElement tag Fragment.isJoinedThroughout_nil
  · exact h.appendElement tag (Fragment.isJoinedThroughout_textChildren _)

theorem add (h : a.IsJoined) (t : Token) : (a.add t).IsJoined := by
  unfold Assembly.add
  split
  · exact h.appendText _
  · exact h.appendText _
  · exact h.appendText _
  · -- A tag that is not valid stays text.
    split
    · exact h.appendTag _ _
    · exact h.appendText _
  · exact h.close _
  · exact h.appendComment _
  · exact h.appendDoctype _
  · exact h

theorem foldl_add (tokens : List Token) (h : a.IsJoined) :
    (tokens.foldl Assembly.add a).IsJoined := by
  induction tokens generalizing a with
  | nil => exact h
  | cons t tokens ih => exact ih (h.add t)

end Assembly.IsJoined

/-- In a parsed tree no text is empty and no text stands behind a text, on any level. -/
theorem isJoinedThroughout_parse {markup : String} {f : Fragment} (h : parse markup = .ok f) :
    Fragment.IsJoinedThroughout f := by
  have hnone : Assembly.IsJoined {} := ⟨Fragment.isJoinedThroughout_nil, nofun⟩
  obtain ⟨a, ha, rfl⟩ := exists_addReading_of_parse h
  obtain ⟨-, rfl⟩ := Assembly.addReading_eq_ok_iff.mp ha
  exact (hnone.foldl_add _).finish

end BoundMarkup.Markup
