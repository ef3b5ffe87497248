import BoundMarkup.Proofs.Binding.Clean
import BoundMarkup.Proofs.Binding.OnePass
import BoundMarkup.Proofs.Markup.Attribute
import BoundMarkup.Proofs.Markup.Reread

/-!
# Items add no element

When a parsed fragment is bound to an item, written and read again, no element is read that the
bound fragment does not have, whatever the item holds. For this the bound fragment has to be one
that can be read again: what a binding writes into a tag must be the name of an attribute, and what
is inside an element that holds raw text must not end it.

The text directive gives such an element one text, in which the beginnings of end tags are disarmed.
The markup directive may give it several nodes, and each is escaped by itself; what they say
together is not. So it has to be asked of them that they do not form an end tag.

## Main definitions

* `Node.IsFilled`: an element of a bound fragment, before anything is known of clean markup in it.

## Main results

* `isNormal_bindAttributes`: the attribute pass keeps a tag normal;
* `each_isFilled_bound`: what the elements of a bound fragment are like;
* `tags_parse_toHtml_bound`: no element is read back that the bound fragment does not have.
-/

namespace BoundMarkup

open Markup Text
open Json (Value)

/-! ### Attribute maps -/

/-- A name that may be bound can be written as the name of an attribute. -/
theorem validAttributeName_of_validName {name : List Char}
    (h : AttributeBinding.validName name = true) :
    validAttributeName (String.ofList name) = true := by
  have hchar : ∀ c, AttributeBinding.isNameChar c = true → endsAttributeName c = false := by
    intro c hc
    rcases AttributeBinding.isNameChar_cases hc with h | h | h | rfl | rfl | rfl | rfl
    · exact endsAttributeName_alphanumeric (.inl h)
    · exact endsAttributeName_alphanumeric (.inr (.inl h))
    · exact endsAttributeName_alphanumeric (.inr (.inr h))
    all_goals decide
  obtain ⟨hne, hall⟩ := AttributeBinding.isNameChar_of_validName h
  refine validAttributeName_iff.mpr ⟨?_, ?_⟩
  · simpa using hne
  · rw [String.toList_ofList]
    exact fun c hc => hchar c (hall c hc)

/-- The attribute pass keeps a tag normal: it writes attributes whose names can be read again. -/
theorem isNormal_bindAttributes {tag : Tag} (item : Value) (htag : tag.IsNormal) :
    (Binding.bindAttributes item tag).IsNormal := by
  refine bindAttributes_induction htag fun list tag b hb htag => ?_
  obtain ⟨name, hname, -, htarget⟩ := exists_of_mem_bindingsOf hb
  have hlower : b.target = lowercase (String.ofList name) := by
    rw [htarget, lowercase, String.toList_ofList]
  have hvalid : validAttributeName b.target = true := by
    rw [hlower, validAttributeName_lowercase]
    exact validAttributeName_of_validName hname
  have hfixed : lowercase b.target = b.target := by
    simp [hlower, lowercase]
  unfold Binding.applyBinding
  split
  · exact htag
  · split
    · exact htag
    · exact isNormal_setAttr _ htag hvalid hfixed

/-! ### Bound fragments -/

namespace Markup

/-- A sound node that is no element, or an element with a normal tag that has one text at most if
it holds raw text and has no markup directive. -/
def Node.IsFilled : Node → Prop
  | .element tag children =>
    tag.IsNormal ∧
      (isRawText tag.name = true → Binding.hasMarkup tag = false →
        ∃ s, children = textChildren s)
  | .text _ => True
  | .comment _ => True
  | .doctype s => IsDeclaration s.toList

theorem Node.IsFilled.isSound {n : Node} (h : n.IsFilled) : n.IsSound := by
  cases n with
  | element tag children => exact h.1
  | text s => trivial
  | comment s => trivial
  | doctype s => exact h

end Markup

/-- Clean markup is filled, since it holds no raw text. -/
theorem each_isFilled_clean (markup : String) : Fragment.Each Node.IsFilled (clean markup) := by
  rw [clean]
  split
  · next f hf =>
    refine Fragment.each_cleaned_of (fun tag _ content hdenied h => ?_) (fun _ => trivial)
      (each_isSound_parse hf)
    -- Elements that hold raw text are denied.
    refine ⟨isNormal_cleaned h, fun hraw => ?_⟩
    rw [Tag.cleaned, isRawText_eq_false hdenied] at hraw
    cases hraw
  · exact Fragment.each_text.mpr trivial

mutual

/-- The elements that a sound and plain node is bound to are filled. -/
theorem each_isFilled_bound_node (item : Value) : ∀ {n : Node}, n.Each Node.IsSound →
    n.Each Node.IsPlain → Fragment.Each Node.IsFilled (bound [n] item)
  | .element tag children, hsound, hplain => by
    rw [Node.Each, Node.IsSound] at hsound
    rw [Node.Each, Node.IsPlain] at hplain
    have hnormal := isNormal_bindAttributes item hsound.1
    have hname := name_bindAttributes item tag
    rw [bound_element]
    split
    · refine Fragment.each_cons.mpr ⟨?_, Fragment.each_nil⟩
      cases hmarkup : (Binding.bindAttributes item tag).attr? DirectiveKind.markup.marker with
      | some path =>
        -- Nothing is claimed of an element that has its content from the markup directive.
        rw [Node.Each]
        refine ⟨⟨hnormal, fun _ hhas => ?_⟩, each_isFilled_clean _⟩
        rw [Binding.hasMarkup, Tag.hasAttr, hmarkup] at hhas
        cases hhas
      | none =>
        cases htext : tag.attr? DirectiveKind.text.marker with
        | some path =>
          rw [Node.Each]
          exact ⟨⟨hnormal, fun _ _ => ⟨_, rfl⟩⟩, Fragment.each_textChildren (fun _ => trivial) _⟩
        | none =>
          rw [Node.Each]
          refine ⟨⟨hnormal, fun hraw _ => ?_⟩, each_isFilled_bound item hsound.2 hplain.2⟩
          -- Raw text of the fragment itself is one text, which is bound to itself.
          obtain ⟨s, hs⟩ := hplain.1 (hname ▸ hraw)
          exact ⟨s, by rw [hs, bound_textChildren]⟩
    · exact Fragment.each_nil
  | .text s, _, _ => by
    rw [bound_text]
    exact Fragment.each_text.mpr trivial
  | .comment s, _, _ => by
    rw [bound_comment, Fragment.each_cons, Node.Each]
    exact ⟨trivial, Fragment.each_nil⟩
  | .doctype s, hsound, _ => by
    rw [Node.Each] at hsound
    rw [bound_doctype, Fragment.each_cons, Node.Each]
    exact ⟨hsound, Fragment.each_nil⟩

/-- The elements that a sound and plain fragment is bound to are filled. -/
theorem each_isFilled_bound (item : Value) : ∀ {f : List Node}, Fragment.Each Node.IsSound f →
    Fragment.Each Node.IsPlain f → Fragment.Each Node.IsFilled (bound f item)
  | [], _, _ => by
    rw [bound_nil]
    exact Fragment.each_nil
  | n :: f, hsound, hplain => by
    rw [Fragment.each_cons] at hsound hplain
    rw [bound_cons, Fragment.each_append]
    exact ⟨each_isFilled_bound_node item hsound.1 hplain.1,
      each_isFilled_bound item hsound.2 hplain.2⟩

end

/-- One text that is written as raw text has no end tag in it. -/
theorem cutCaseless_rawWritten_textChildren (name : List Char) (s : String) :
    cutCaseless ('<' :: '/' :: name) (Fragment.rawWritten (textChildren s)) = none := by
  rw [Fragment.rawWritten_textChildren]
  exact cutCaseless_escapeRawText name s.toList

/-- A parsed fragment that is bound to an item, written and parsed again shows no element that the
bound fragment does not have, and those that it shows come with the same name, the same attributes
and in the same order. This asks only of an element that holds raw text and has its content from the
markup directive that this content, as it is written, has no end tag of the element in it. -/
theorem tags_parse_toHtml_bound {markup : String} {f g : Fragment} {item : Value}
    (hf : parse markup = .ok f) (hg : parse (Fragment.toHtml (bound f item)) = .ok g)
    (hsealed : ∀ e ∈ Fragment.elements (bound f item), isRawText e.tag.name = true →
      Binding.hasMarkup e.tag = true →
        cutCaseless ('<' :: '/' :: e.tag.name.toList) (Fragment.rawWritten e.children) = none) :
    (Fragment.tags g).Sublist (Fragment.tags (bound f item)) := by
  have hfilled := each_isFilled_bound item (each_isSound_parse hf) (each_isPlain_parse hf)
  refine tags_sublist_of_parse_toHtml (hfilled.imp fun _ h => h.isSound) ?_ hg
  refine Fragment.each_of_elements (fun n hn => ?_) fun e he hraw => ?_
  · cases n with
    | element tag children => rw [Node.elements] at hn; cases hn
    | _ => trivial
  · by_cases hmarkup : Binding.hasMarkup e.tag = true
    · exact hsealed e he hraw hmarkup
    · obtain ⟨-, hplain⟩ := Fragment.of_mem_elements hfilled he
      obtain ⟨s, hs⟩ := hplain hraw (Bool.eq_false_iff.mpr hmarkup)
      rw [hs]
      exact cutCaseless_rawWritten_textChildren _ s

/-- A text of which something is known that can be computed from its tree has a tree. -/
private theorem exists_parse_eq_ok {α : Type} {markup : String} {view : Fragment → α} {a : α}
    (h : (parse markup).toOption.map view = some a) :
    ∃ f, parse markup = .ok f ∧ view f = a := by
  cases hf : parse markup with
  | error e =>
    rw [hf] at h
    cases h
  | ok f =>
    rw [hf] at h
    exact ⟨f, rfl, Option.some.inj h⟩

/-- An item with a text that would end a style sheet, and with markup that is put into a script. -/
theorem tags_parse_toHtml_bound_hostile :
    ∃ f g, parse "<style field=t></style><script field-html=m></script>" = .ok f ∧
      parse (Fragment.toHtml (bound f
        (.object [("t", .string "</style><br>"), ("m", .string "a<b>c</b>")]))) = .ok g ∧
      (Fragment.tags g).Sublist (Fragment.tags (bound f
        (.object [("t", .string "</style><br>"), ("m", .string "a<b>c</b>")]))) := by
  have hf : parse "<style field=t></style><script field-html=m></script>" =
      .ok [.element ⟨"style", [⟨"field", "t"⟩]⟩ [],
        .element ⟨"script", [⟨"field-html", "m"⟩]⟩ []] := by
    with_unfolding_all rfl
  have hread : (parse (Fragment.toHtml (bound
      [.element ⟨"style", [⟨"field", "t"⟩]⟩ [], .element ⟨"script", [⟨"field-html", "m"⟩]⟩ []]
      (.object [("t", .string "</style><br>"), ("m", .string "a<b>c</b>")])))).toOption.map
        Fragment.tags =
      some [⟨"style", [⟨"field", "t"⟩]⟩, ⟨"script", [⟨"field-html", "m"⟩]⟩] := by
    decide +kernel
  obtain ⟨g, hg, -⟩ := exists_parse_eq_ok hread
  exact ⟨_, g, hf, hg, tags_parse_toHtml_bound hf hg (by decide +kernel)⟩

/-- Markup in a style sheet that is cleaned to two texts, neither of which is an end tag, while the
two together begin with one: the image behind it is read, with its event handler. -/
theorem tags_parse_toHtml_bound_split :
    ∃ f g, parse "<style field-html=m></style>" = .ok f ∧
      parse (Fragment.toHtml (bound f (.object
        [("m", .string "&lt;<!-- -->/style>&lt;img src=x onerror=alert(1)>")]))) = .ok g ∧
      Fragment.tags (bound f (.object
        [("m", .string "&lt;<!-- -->/style>&lt;img src=x onerror=alert(1)>")])) =
          [⟨"style", [⟨"field-html", "m"⟩]⟩] ∧
      Fragment.tags g =
        [⟨"style", [⟨"field-html", "m"⟩]⟩, ⟨"img", [⟨"src", "x"⟩, ⟨"onerror", "alert(1)"⟩]⟩] ∧
      ¬(Fragment.tags g).Sublist (Fragment.tags (bound f (.object
        [("m", .string "&lt;<!-- -->/style>&lt;img src=x onerror=alert(1)>")]))) := by
  have hf : parse "<style field-html=m></style>" =
      .ok [.element ⟨"style", [⟨"field-html", "m"⟩]⟩ []] := by
    with_unfolding_all rfl
  have hread : (parse (Fragment.toHtml (bound [.element ⟨"style", [⟨"field-html", "m"⟩]⟩ []]
      (.object [("m", .string "&lt;<!-- -->/style>&lt;img src=x onerror=alert(1)>")])))).toOption.map
        Fragment.tags =
      some [⟨"style", [⟨"field-html", "m"⟩]⟩,
        ⟨"img", [⟨"src", "x"⟩, ⟨"onerror", "alert(1)"⟩]⟩] := by
    decide +kernel
  have hbound : Fragment.tags (bound [.element ⟨"style", [⟨"field-html", "m"⟩]⟩ []]
      (.object [("m", .string "&lt;<!-- -->/style>&lt;img src=x onerror=alert(1)>")])) =
        [⟨"style", [⟨"field-html", "m"⟩]⟩] := by
    decide +kernel
  obtain ⟨g, hg, hshown⟩ := exists_parse_eq_ok hread
  refine ⟨_, g, hf, hg, hbound, hshown, fun hsub => ?_⟩
  -- Two elements are read, and there is only one.
  have hlength := hsub.length_le
  rw [hbound, hshown] at hlength
  exact absurd hlength (by decide)

end BoundMarkup
