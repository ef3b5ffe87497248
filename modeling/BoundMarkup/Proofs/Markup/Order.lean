import BoundMarkup.Proofs.Markup.Content

/-!
# The order of elements

A tree is assembled in document order: what a start tag adds stands behind all that was there
before, and an end tag moves nothing. So the elements of a parsed tree, in document order, are the
elements of the tag tokens, in the order in which they are read. All of this is what the pieces of
a tree say of those among them that are elements.

## Main definitions

* `Fragment.tags`: the tags of a fragment in document order;
* `Reading.tags`: the tags that a reading stands for;
* `Assembly.tags`: the tags so far, those of open elements included.

## Main results

* `tags_add`: a token adds its tag behind the others;
* `tags_finish`: closing what is open moves no tag;
* `tags_parse`: the tags of a parsed tree are those that are read.
-/

namespace BoundMarkup.Markup

/-- The tags of the elements of a fragment, in document order. -/
def Fragment.tags (f : Fragment) : List Tag := (Fragment.elements f).map (·.tag)

/-- The tag of the element that a token stands for, if it stands for one. -/
def Token.tags : Token → List Tag
  | .tag _ content => (Tag.ofText? content).toList
  | _ => []

/-- The tags of the elements that a reading stands for, in order. -/
def Reading.tags (r : Reading) : List Tag := r.tokens.flatMap Token.tags

/-! ### Fragments -/

namespace Fragment

theorem elements_append (f g : List Node) :
    Fragment.elements (f ++ g) = Fragment.elements f ++ Fragment.elements g := by
  induction f with
  | nil => simp [Fragment.elements]
  | cons n f ih => simp [Fragment.elements, ih]

@[simp]
theorem tags_nil : Fragment.tags [] = [] := by
  simp [Fragment.tags, Fragment.elements]

@[simp]
theorem tags_append (f g : List Node) :
    Fragment.tags (f ++ g) = Fragment.tags f ++ Fragment.tags g := by
  simp [Fragment.tags, elements_append]

@[simp]
theorem tags_element (tag : Tag) (children f : List Node) :
    Fragment.tags (.element tag children :: f) =
      tag :: (Fragment.tags children ++ Fragment.tags f) := by
  simp [Fragment.tags, Fragment.elements, Node.elements]

@[simp]
theorem tags_text (s : String) (f : List Node) :
    Fragment.tags (.text s :: f) = Fragment.tags f := by
  simp [Fragment.tags, Fragment.elements, Node.elements]

@[simp]
theorem tags_comment (s : String) (f : List Node) :
    Fragment.tags (.comment s :: f) = Fragment.tags f := by
  simp [Fragment.tags, Fragment.elements, Node.elements]

@[simp]
theorem tags_doctype (s : String) (f : List Node) :
    Fragment.tags (.doctype s :: f) = Fragment.tags f := by
  simp [Fragment.tags, Fragment.elements, Node.elements]

end Fragment

/-- The tag of a piece that is an element. -/
def pieceTag? : Entry ⊕ Char → Option Tag
  | .inl (.element tag) => some tag
  | _ => none

@[simp]
theorem pieceTag?_inr (c : Char) : pieceTag? (.inr c) = none := rfl

mutual

/-- The tags of a node are those of its pieces. -/
private theorem Node.tags_eq_filterMap : ∀ n : Node,
    Fragment.tags [n] = (Fragment.pieces [n]).filterMap pieceTag?
  | .element tag children => by
    simp [pieceTag?, Fragment.tags_eq_filterMap children]
  | .text s => by simp
  | .comment s => by simp [pieceTag?]
  | .doctype s => by simp [pieceTag?]

/-- The tags of a fragment are those of its pieces. -/
theorem Fragment.tags_eq_filterMap : ∀ f : List Node,
    Fragment.tags f = (Fragment.pieces f).filterMap pieceTag?
  | [] => by simp
  | n :: f => by
    have hcons : n :: f = [n] ++ f := rfl
    rw [hcons, Fragment.tags_append, Fragment.pieces_append, List.filterMap_append,
      Node.tags_eq_filterMap n, Fragment.tags_eq_filterMap f]

end

/-- The tags of a token are those of its pieces. -/
theorem Token.tags_eq_filterMap (t : Token) : t.tags = t.pieces.filterMap pieceTag? := by
  cases t with
  | tag form content =>
    cases hof : Tag.ofText? content <;>
      simp [Token.tags, Token.pieces, hof, pieceTag?]
  | character c => rfl
  | reference name => simp [Token.tags, Token.pieces]
  | literal text => simp [Token.tags, Token.pieces]
  | closing name => rfl
  | comment text => rfl
  | doctype text => rfl
  | instruction text => rfl

/-! ### Assembling -/

/-- The tags in front of an open element on its level, and its own. -/
def OpenElement.tags (o : OpenElement) : List Tag := Fragment.tags o.before.reverse ++ [o.tag]

/-- The tags of a tree under construction, in document order: those of the outer levels come
first. -/
def Assembly.tags (a : Assembly) : List Tag :=
  a.enclosing.reverse.flatMap OpenElement.tags ++ Fragment.tags a.nodes.reverse

namespace Assembly

/-- The tags of a tree under construction are those of its pieces. -/
theorem tags_eq_filterMap (a : Assembly) : a.tags = a.pieces.filterMap pieceTag? := by
  have hopen : OpenElement.tags = fun o => o.pieces.filterMap pieceTag? := by
    funext o
    simp [OpenElement.tags, OpenElement.pieces, Fragment.tags_eq_filterMap, pieceTag?]
  simp [Assembly.tags, Assembly.pieces, Fragment.tags_eq_filterMap, hopen, List.filterMap_flatMap]

/-- Closing all that is open moves no tag. -/
theorem tags_finish (a : Assembly) : Fragment.tags a.finish = a.tags := by
  rw [Fragment.tags_eq_filterMap, pieces_finish, tags_eq_filterMap]

/-- A token adds its tag behind the others. -/
theorem tags_add (a : Assembly) (t : Token) : (a.add t).tags = a.tags ++ t.tags := by
  rw [tags_eq_filterMap, pieces_add, List.filterMap_append, ← tags_eq_filterMap,
    ← Token.tags_eq_filterMap]

theorem tags_addReading {a b : Assembly} {r : Reading} (h : a.addReading r = .ok b) :
    b.tags = a.tags ++ r.tags := by
  induction r generalizing a with
  | done =>
    cases h
    simp [Reading.tags, Reading.tokens]
  | failed e => cases h
  | next t r ih =>
    rw [addReading] at h
    rw [ih h, tags_add]
    simp [Reading.tags, Reading.tokens]

end Assembly

/-- The tags of a parsed tree, in document order, are those that are read. -/
theorem tags_parse {markup : String} {f : Fragment} (h : parse markup = .ok f) :
    Fragment.tags f = (read markup.toList).tags := by
  obtain ⟨a, ha, rfl⟩ := exists_addReading_of_parse h
  rw [Assembly.tags_finish, Assembly.tags_addReading ha]
  simp [Assembly.tags]

end BoundMarkup.Markup
