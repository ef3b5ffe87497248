import BoundMarkup.Binding.Bind

/-!
# Binding in one pass

Binding goes over a fragment five times, and a later pass reads what the earlier ones have written:
an attribute map may write directives, and the element whose text was replaced may still get markup.
Yet the five passes do no more than one pass would that finishes each element before it goes on.

For an element all five passes are known from its tag: what the attribute pass makes of the tag is
what the last three read, and only the text pass reads the tag as it was.

## Main definitions

* `Node.boundOnce`, `Fragment.boundOnce`: binding in one pass.

## Main results

* `bound_append`: sibling nodes are bound one by one;
* `bound_element`: how an element is bound;
* `bound_eq_flatMap_boundOnce`: the five passes are the one pass.
-/

namespace BoundMarkup

open Json Markup Binding

/-- Whether an element with that tag stays: neither of its two conditions removes it. -/
def Binding.keeps (item : Value) (tag : Tag) : Bool := keepsIf item tag && keepsUnless item tag

namespace Markup

mutual

/-- Binds a node in one pass. The tag of an element is bound first. If it has a markup directive
then, the element's content is clean markup; if the tag had a text directive before, it is text; and
if neither is so, the children are bound. The conditions are those of the new tag. -/
def Node.boundOnce (item : Value) : Node → List Node
  | .element tag children =>
    if keeps item (bindAttributes item tag) then
      [.element (bindAttributes item tag) <|
        match (bindAttributes item tag).attr? DirectiveKind.markup.marker with
        | some path => clean (contentOf item path)
        | none =>
          match tag.attr? DirectiveKind.text.marker with
          | some path => textChildren (contentOf item path)
          | none => Fragment.boundOnce item children]
    else []
  | .text s => [.text s]
  | .comment s => [.comment s]
  | .doctype s => [.doctype s]

/-- Binds sibling nodes in one pass. -/
def Fragment.boundOnce (item : Value) : List Node → List Node
  | [] => []
  | n :: rest => n.boundOnce item ++ Fragment.boundOnce item rest

end

theorem Fragment.boundOnce_eq_flatMap (item : Value) (f : List Node) :
    Fragment.boundOnce item f = f.flatMap (·.boundOnce item) := by
  induction f with
  | nil => rw [Fragment.boundOnce, List.flatMap_nil]
  | cons n f ih => rw [Fragment.boundOnce, ih, List.flatMap_cons]

/-! ### Siblings -/

theorem Fragment.edit_append (h : Tag → Tag × Option Fragment) (f g : List Node) :
    Fragment.edit h (f ++ g) = Fragment.edit h f ++ Fragment.edit h g := by
  induction f with
  | nil => simp [Fragment.edit]
  | cons n f ih => simp [Fragment.edit, ih]

theorem Fragment.retain_append (keep enter : Tag → Bool) (f g : List Node) :
    Fragment.retain keep enter (f ++ g) =
      Fragment.retain keep enter f ++ Fragment.retain keep enter g := by
  induction f with
  | nil => simp [Fragment.retain]
  | cons n f ih => simp [Fragment.retain, ih]

end Markup

/-- Sibling nodes are bound one by one. -/
theorem bound_append (f g : Fragment) (item : Value) :
    bound (f ++ g) item = bound f item ++ bound g item := by
  simp only [bound, textPass, attributePass, markupPass, removalPass, Fragment.edit_append,
    Fragment.retain_append]

theorem bound_nil (item : Value) : bound [] item = [] := by
  simp [bound, textPass, attributePass, markupPass, removalPass, Fragment.edit, Fragment.retain]

theorem bound_cons (n : Node) (f : Fragment) (item : Value) :
    bound (n :: f) item = bound [n] item ++ bound f item := bound_append [n] f item

/-! ### Single nodes -/

theorem bound_text (s : String) (item : Value) : bound [.text s] item = [.text s] := by
  simp [bound, textPass, attributePass, markupPass, removalPass, Fragment.edit, Fragment.retain,
    Node.edit, Node.retain]

theorem bound_comment (s : String) (item : Value) : bound [.comment s] item = [.comment s] := by
  simp [bound, textPass, attributePass, markupPass, removalPass, Fragment.edit, Fragment.retain,
    Node.edit, Node.retain]

theorem bound_doctype (s : String) (item : Value) : bound [.doctype s] item = [.doctype s] := by
  simp [bound, textPass, attributePass, markupPass, removalPass, Fragment.edit, Fragment.retain,
    Node.edit, Node.retain]

/-- The children that show a text are bound to themselves. -/
theorem bound_textChildren (s : String) (item : Value) :
    bound (textChildren s) item = textChildren s := by
  unfold textChildren
  split
  · exact bound_nil item
  · exact bound_text s item

namespace Binding

variable (item : Value) (tag : Tag) (children : Fragment)

theorem textPass_element :
    textPass item [.element tag children] =
      [.element tag <|
        match tag.attr? DirectiveKind.text.marker with
        | some path => textChildren (contentOf item path)
        | none => textPass item children] := by
  cases h : tag.attr? DirectiveKind.text.marker <;>
    simp [textPass, Fragment.edit, Node.edit, bindText, h]

theorem attributePass_element :
    attributePass item [.element tag children] =
      [.element (bindAttributes item tag) (attributePass item children)] := by
  simp [attributePass, Fragment.edit, Node.edit]

theorem markupPass_element :
    markupPass item [.element tag children] =
      [.element tag <|
        match tag.attr? DirectiveKind.markup.marker with
        | some path => clean (contentOf item path)
        | none => markupPass item children] := by
  cases h : tag.attr? DirectiveKind.markup.marker <;>
    simp [markupPass, Fragment.edit, Node.edit, bindMarkup, h]

theorem removalPass_element (keep : Tag → Bool) :
    removalPass keep [.element tag children] =
      if keep tag then
        [.element tag (if hasMarkup tag then children else removalPass keep children)]
      else [] := by
  cases hkeep : keep tag <;> cases hmarkup : hasMarkup tag <;>
    simp [removalPass, Fragment.retain, Node.retain, hkeep, hmarkup]

theorem removalPass_nil (keep : Tag → Bool) : removalPass keep [] = [] := by
  simp [removalPass, Fragment.retain]

/-- Removal twice is removal once of what either removes. -/
theorem removalPass_removalPass_element (keep keep' : Tag → Bool) :
    removalPass keep' (removalPass keep [.element tag children]) =
      if keep tag && keep' tag then
        [.element tag <|
          if hasMarkup tag then children else removalPass keep' (removalPass keep children)]
      else [] := by
  rw [removalPass_element]
  cases hkeep : keep tag with
  | false => simp [removalPass_nil]
  | true =>
    cases hmarkup : hasMarkup tag <;> simp [removalPass_element, hmarkup]

end Binding

/-- An element is bound by binding its tag and giving it its content, unless a condition of the new
tag removes it. -/
theorem bound_element (tag : Tag) (children : Fragment) (item : Value) :
    bound [.element tag children] item =
      if keeps item (bindAttributes item tag) then
        [.element (bindAttributes item tag) <|
          match (bindAttributes item tag).attr? DirectiveKind.markup.marker with
          | some path => clean (contentOf item path)
          | none =>
            match tag.attr? DirectiveKind.text.marker with
            | some path => textChildren (contentOf item path)
            | none => bound children item]
      else [] := by
  rw [bound, textPass_element, attributePass_element, markupPass_element,
    removalPass_removalPass_element, keeps]
  cases hmarkup : (bindAttributes item tag).attr? DirectiveKind.markup.marker with
  | some path =>
    -- No removal looks into markup from the item.
    have hhas : hasMarkup (bindAttributes item tag) = true := by
      rw [hasMarkup, Tag.hasAttr, hmarkup, Option.isSome_some]
    simp only [hhas, if_true]
  | none =>
    have hhas : hasMarkup (bindAttributes item tag) = false := by
      rw [hasMarkup, Tag.hasAttr, hmarkup, Option.isSome_none]
    simp only [hhas, Bool.false_eq_true, if_false]
    cases htext : tag.attr? DirectiveKind.text.marker with
    | some path =>
      -- The passes behind the text pass leave the text alone, as all five do.
      have hpasses := bound_textChildren (contentOf item path) item
      have htextPass : textPass item (textChildren (contentOf item path)) =
          textChildren (contentOf item path) := by
        unfold textChildren
        split <;> simp [textPass, Fragment.edit, Node.edit]
      rw [bound, htextPass] at hpasses
      simp only [hpasses]
    | none => rfl

/-! ### Fragments -/

mutual

/-- The five passes on a node are the one pass. -/
theorem bound_node_eq_boundOnce (item : Value) : ∀ n : Node, bound [n] item = n.boundOnce item
  | .element tag children => by
    rw [bound_element, Node.boundOnce, bound_fragment_eq_boundOnce item children]
  | .text s => by rw [bound_text, Node.boundOnce]
  | .comment s => by rw [bound_comment, Node.boundOnce]
  | .doctype s => by rw [bound_doctype, Node.boundOnce]

/-- The five passes on a fragment are the one pass. -/
theorem bound_fragment_eq_boundOnce (item : Value) :
    ∀ f : List Node, bound f item = Fragment.boundOnce item f
  | [] => by rw [bound_nil, Fragment.boundOnce]
  | n :: f => by
    rw [bound_cons, bound_node_eq_boundOnce item n, bound_fragment_eq_boundOnce item f,
      Fragment.boundOnce]

end

/-- Binding a fragment in five passes is binding each of its nodes in one pass. So an element stays
or goes by its own tag; what it has in it is clean markup as it comes from the item, the text that is
shown, or its children, which are bound as they would be without it; and what stands in front of it
or behind it makes no difference. -/
theorem bound_eq_flatMap_boundOnce (f : Fragment) (item : Value) :
    bound f item = f.flatMap (·.boundOnce item) ∧
      (∀ tag, bound [.element tag f] item =
        if keepsIf item (bindAttributes item tag) && keepsUnless item (bindAttributes item tag) then
          [.element (bindAttributes item tag) <|
            match (bindAttributes item tag).attr? DirectiveKind.markup.marker with
            | some path => clean (contentOf item path)
            | none =>
              match tag.attr? DirectiveKind.text.marker with
              | some path => textChildren (contentOf item path)
              | none => bound f item]
        else []) ∧
      ∀ before behind,
        bound (before ++ f ++ behind) item = bound before item ++ bound f item ++ bound behind item := by
  refine ⟨?_, fun tag => bound_element tag f item, fun before behind => ?_⟩
  · rw [bound_fragment_eq_boundOnce, Fragment.boundOnce_eq_flatMap]
  · rw [bound_append, bound_append]

end BoundMarkup
