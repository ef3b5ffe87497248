import BoundMarkup.Markup.Clean
import BoundMarkup.Proofs.Markup.Name
import BoundMarkup.Proofs.Markup.TagText
import BoundMarkup.Proofs.Markup.Tree

/-!
# Clean trees

A node that may stay is a text or an element that is not denied; it is clean if moreover all its
attributes are. Cleaning makes every node clean and leaves alone a fragment all of whose nodes are,
so the fragments that cleaning fixes are the clean ones.

Whether an attribute is clean does not depend on the case of its name.

## Main definitions

* `Tag.IsClean`: a tag with clean attributes only;
* `Node.IsKept`: a node that cleaning does not remove;
* `Node.IsClean`: a node that cleaning leaves as it is.

## Main results

* `each_cleaned`: every node of a cleaned fragment is clean;
* `cleaned_eq_self_iff`: cleaning fixes exactly the clean fragments;
* `each_clean`: every node of the clean tree of a text is clean.
-/

namespace BoundMarkup.Markup

open Text

/-! ### Attributes -/

/-- The name of an event handler is one in every case. -/
@[simp]
theorem isEventHandler_lowercase (name : String) :
    isEventHandler (lowercase name) = isEventHandler name := by
  simp [isEventHandler, ← lower_take]

/-- The name of a URL attribute is one in every case. -/
@[simp]
theorem isUrlAttribute_lowercase (name : String) :
    isUrlAttribute (lowercase name) = isUrlAttribute name := by
  simp [isUrlAttribute, caseless]

/-- An attribute is clean if and only if it is with its name in lowercase. -/
@[simp]
theorem Attribute.isClean_lowercased (a : Attribute) : a.lowercased.isClean = a.isClean := by
  simp [Attribute.isClean, Attribute.lowercased]

/-- An element that holds raw text is denied. -/
theorem isRawText_eq_false {name : String} (h : isDenied name = false) :
    isRawText name = false := by
  refine Bool.eq_false_iff.mpr fun hraw => ?_
  rcases isRawText_iff.mp hraw with rfl | rfl
  · exact Bool.noConfusion (h.symm.trans (by decide : isDenied "script" = true))
  · exact Bool.noConfusion (h.symm.trans (by decide : isDenied "style" = true))

/-! ### Nodes -/

namespace Tag

/-- A tag with clean attributes only. -/
def IsClean (tag : Tag) : Prop := ∀ a ∈ tag.attributes, a.isClean = true

theorem isClean_cleaned (tag : Tag) : tag.cleaned.IsClean :=
  fun _ ha => (List.mem_filter.mp ha).2

/-- Cleaning leaves a clean tag alone. -/
theorem cleaned_eq_self {tag : Tag} (h : tag.IsClean) : tag.cleaned = tag :=
  congrArg (Tag.mk tag.name) (List.filter_eq_self.mpr h)

end Tag

namespace Node

/-- A node that cleaning does not remove. -/
def IsKept : Node → Prop
  | element tag _ => isDenied tag.name = false
  | text _ => True
  | comment _ => False
  | doctype _ => False

/-- A node that cleaning leaves as it is: a text, or an element that is not denied and has a clean
tag. -/
def IsClean : Node → Prop
  | element tag _ => isDenied tag.name = false ∧ tag.IsClean
  | text _ => True
  | comment _ => False
  | doctype _ => False

theorem ignoresChildren_isClean : IgnoresChildren IsClean := by
  intro tag children content h
  rwa [IsClean] at h ⊢

theorem IsClean.isKept {n : Node} (h : n.IsClean) : n.IsKept := by
  cases n with
  | element tag children =>
    rw [IsClean] at h
    exact h.1
  | text s => trivial
  | comment s => exact h
  | doctype s => exact h

end Node

section

variable {p q : Node → Prop}

mutual

/-- What cleaning leaves of a node has a property that all texts have and cleaning gives tags. -/
theorem Node.each_cleaned_of
    (helement : ∀ tag children content, isDenied tag.name = false → p (.element tag children) →
      q (.element tag.cleaned content)) (htext : ∀ s, q (.text s)) :
    ∀ {n : Node}, n.Each p → Fragment.Each q n.cleaned.toList
  | .element tag children, h => by
    rw [Node.Each] at h
    rw [Node.cleaned]
    split
    · exact Fragment.each_nil
    · next hdenied =>
      rw [Option.toList_some, Fragment.each_cons, Node.Each]
      exact ⟨⟨helement _ _ _ (Bool.eq_false_iff.mpr hdenied) h.1,
        Fragment.each_cleaned_of helement htext h.2⟩, Fragment.each_nil⟩
  | .text s, _ => by
    rw [Node.cleaned, Option.toList_some]
    exact Fragment.each_text.mpr (htext s)
  | .comment s, _ => by
    rw [Node.cleaned]
    exact Fragment.each_nil
  | .doctype s, _ => by
    rw [Node.cleaned]
    exact Fragment.each_nil

/-- What cleaning leaves of a fragment has a property that all texts have and cleaning gives
tags. -/
theorem Fragment.each_cleaned_of
    (helement : ∀ tag children content, isDenied tag.name = false → p (.element tag children) →
      q (.element tag.cleaned content)) (htext : ∀ s, q (.text s)) :
    ∀ {f : List Node}, Fragment.Each p f → Fragment.Each q (Fragment.cleaned f)
  | [], _ => by
    rw [Fragment.cleaned]
    exact Fragment.each_nil
  | n :: rest, h => by
    rw [Fragment.each_cons] at h
    rw [Fragment.cleaned, Fragment.each_append]
    exact ⟨Node.each_cleaned_of helement htext h.1, Fragment.each_cleaned_of helement htext h.2⟩

end

end

/-- Every node of a cleaned fragment is clean. -/
theorem Fragment.each_cleaned (f : List Node) : Fragment.Each Node.IsClean (Fragment.cleaned f) :=
  Fragment.each_cleaned_of (p := fun _ => True) (fun tag _ _ h _ => ⟨h, tag.isClean_cleaned⟩)
    (fun _ => trivial) (Fragment.each_of_forall (fun _ => trivial) f)

mutual

/-- Cleaning leaves a clean node as it is. -/
theorem Node.cleaned_eq_self : ∀ {n : Node}, n.Each Node.IsClean → n.cleaned = some n
  | .element tag children, h => by
    rw [Node.Each, Node.IsClean] at h
    obtain ⟨⟨hdenied, hclean⟩, hchildren⟩ := h
    rw [Node.cleaned, if_neg (Bool.eq_false_iff.mp hdenied), Tag.cleaned_eq_self hclean,
      Fragment.cleaned_eq_self hchildren]
  | .text s, _ => by rw [Node.cleaned]
  | .comment s, h => by
    rw [Node.Each] at h
    exact h.elim
  | .doctype s, h => by
    rw [Node.Each] at h
    exact h.elim

/-- Cleaning leaves a clean fragment as it is. -/
theorem Fragment.cleaned_eq_self :
    ∀ {f : List Node}, Fragment.Each Node.IsClean f → Fragment.cleaned f = f
  | [], _ => by rw [Fragment.cleaned]
  | n :: rest, h => by
    rw [Fragment.each_cons] at h
    rw [Fragment.cleaned, Node.cleaned_eq_self h.1, Fragment.cleaned_eq_self h.2]
    rfl

end

/-- Cleaning fixes exactly the clean fragments. -/
theorem Fragment.cleaned_eq_self_iff {f : List Node} :
    Fragment.cleaned f = f ↔ Fragment.Each Node.IsClean f := by
  refine ⟨fun h => ?_, Fragment.cleaned_eq_self⟩
  rw [← h]
  exact Fragment.each_cleaned f

/-- Every node of the clean tree of a text is clean, also if the text is not markup. -/
theorem each_clean (markup : String) : Fragment.Each Node.IsClean (clean markup) := by
  rw [clean]
  split
  · next f _ => exact Fragment.each_cleaned f
  · exact Fragment.each_text.mpr trivial

end BoundMarkup.Markup
