import BoundMarkup.Markup.Clean
import BoundMarkup.Proofs.Markup.Parsed

/-!
# Setting and removing attributes

Attributes are looked up, set and removed by a name whose case does not matter, so what is done
under one name cannot be seen under another. A normal tag has at most one attribute of a name, so
one that was removed is gone, and it stays normal through all of this.

## Main results

* `attr?_setAttr_self`, `attr?_setAttr_of_ne`: what is found behind a setting;
* `attr?_removeAttr_self`, `attr?_removeAttr_of_ne`: what is found behind a removal;
* `setAttr_eq_self`, `removeAttr_eq_self`: what is there already changes nothing;
* `names_setAttr`, `nodup_setAttr`: the names behind a setting, which stay distinct up to case;
* `isNormal_setAttr`, `isNormal_removeAttr`, `isNormal_cleaned`: what keeps a tag normal.
-/

namespace BoundMarkup.Markup

open Text

/-! ### Lookup -/

private theorem caseless_of_caseless {a b c : String} (hab : caseless a b = true)
    (hbc : caseless b c = false) : caseless a c = false := by
  refine Bool.eq_false_iff.mpr fun hac => ?_
  rw [caseless_iff] at hab hac
  rw [caseless_iff.mpr (hab.symm.trans hac)] at hbc
  cases hbc

namespace Tag

variable {tag : Tag} {name other : String}

/-- Lookup stops at the first attribute of that name. -/
private theorem attr?_cons (element : String) (a : Attribute) (l : List Attribute)
    (name : String) :
    attr? { name := element, attributes := a :: l } name =
      if caseless a.name name = true then some a.value
      else attr? { name := element, attributes := l } name := by
  by_cases h : caseless a.name name = true
  · simp [attr?, h]
  · simp [attr?, h]

/-- A removal takes out the first attribute of that name. -/
private theorem removeAttr_cons (element : String) (a : Attribute) (l : List Attribute)
    (name : String) :
    removeAttr { name := element, attributes := a :: l } name =
      if caseless a.name name = true then { name := element, attributes := l }
      else
        { name := element,
          attributes := a :: (removeAttr { name := element, attributes := l } name).attributes } := by
  by_cases h : caseless a.name name = true
  · simp [removeAttr, h]
  · simp [removeAttr, h]

/-- An attribute that is set has the value that it was given. -/
@[simp]
theorem attr?_setAttr_self (tag : Tag) (name value : String) :
    (tag.setAttr name value).attr? name = some value := by
  obtain ⟨element, l⟩ := tag
  rw [setAttr]
  induction l with
  | nil =>
    have hnew : caseless (lowercase name) name = true := by simp [caseless]
    rw [assign, attr?_cons, if_pos hnew]
  | cons a l ih =>
    rw [assign]
    split
    · next hfound => rw [attr?_cons, if_pos hfound]
    · next hne =>
      rw [attr?_cons, if_neg hne]
      exact ih

/-- Setting an attribute changes no attribute of another name. -/
theorem attr?_setAttr_of_ne (tag : Tag) (h : caseless name other = false) (value : String) :
    (tag.setAttr name value).attr? other = tag.attr? other := by
  obtain ⟨element, l⟩ := tag
  rw [setAttr]
  induction l with
  | nil =>
    have hnew : caseless (lowercase name) name = true := by simp [caseless]
    rw [assign, attr?_cons, if_neg (by simp [caseless_of_caseless hnew h])]
  | cons a l ih =>
    rw [assign]
    split
    · next hfound =>
      -- What is set in place is not what is looked up.
      have hne : ¬caseless a.name other = true := by simp [caseless_of_caseless hfound h]
      rw [attr?_cons, attr?_cons, if_neg hne, if_neg hne]
    · rw [attr?_cons, attr?_cons, ih]

/-- Removing an attribute changes no attribute of another name. -/
theorem attr?_removeAttr_of_ne (tag : Tag) (h : caseless name other = false) :
    (tag.removeAttr name).attr? other = tag.attr? other := by
  obtain ⟨element, l⟩ := tag
  induction l with
  | nil => rfl
  | cons a l ih =>
    rw [removeAttr_cons]
    split
    · next hfound => rw [attr?_cons, if_neg (by simp [caseless_of_caseless hfound h])]
    · rw [attr?_cons, attr?_cons, ← ih]
      rfl

/-- A tag lacks an attribute if no name of an attribute is equal to its name up to case. -/
theorem attr?_eq_none_iff :
    tag.attr? name = none ↔ ∀ a ∈ tag.attributes, caseless a.name name = false := by
  simp [attr?]

/-- A normal tag lacks an attribute that was removed. -/
theorem attr?_removeAttr_self (h : tag.IsNormal) (name : String) :
    (tag.removeAttr name).attr? name = none := by
  obtain ⟨element, l⟩ := tag
  have hnodup : (l.map (·.name)).Nodup := h.nodup
  have hlower : ∀ a ∈ l, lowercase a.name = a.name := h.lower
  clear h
  rw [attr?_eq_none_iff]
  induction l with
  | nil => exact nofun
  | cons a l ih =>
    rw [List.map_cons, List.nodup_cons] at hnodup
    obtain ⟨ha, hl⟩ := List.forall_mem_cons.mp hlower
    rw [removeAttr_cons]
    split
    · next hfound =>
      intro b hb
      -- A second attribute of that name would have the same name in lowercase.
      refine Bool.eq_false_iff.mpr fun hsame => hnodup.1 ?_
      rw [caseless_iff] at hfound hsame
      rw [← ha, hfound, ← hsame, hl b hb]
      exact List.mem_map_of_mem hb
    · next hne =>
      exact List.forall_mem_cons.mpr ⟨Bool.eq_false_iff.mpr hne, ih hnodup.2 hl⟩

/-- Setting an attribute to the value that it has changes nothing. -/
theorem setAttr_eq_self {value : String} (h : tag.attr? name = some value) :
    tag.setAttr name value = tag := by
  obtain ⟨element, l⟩ := tag
  refine congrArg (Tag.mk element) ?_
  induction l with
  | nil => cases h
  | cons a l ih =>
    rw [attr?_cons] at h
    rw [assign]
    split at h
    · next hfound =>
      cases h
      rw [if_pos hfound]
    · next hne => rw [if_neg hne, ih h]

/-- Removing an attribute that a tag lacks changes nothing. -/
theorem removeAttr_eq_self (h : tag.attr? name = none) : tag.removeAttr name = tag := by
  refine congrArg (Tag.mk tag.name) (List.eraseP_of_forall_not fun a ha => ?_)
  rw [attr?_eq_none_iff.mp h a ha]
  exact Bool.false_ne_true

end Tag

/-! ### Names -/

namespace Tag

variable {tag : Tag} {name : String}

theorem hasAttr_eq_any (tag : Tag) (name : String) :
    tag.hasAttr name = tag.attributes.any fun a => caseless a.name name := by
  rw [hasAttr, attr?, Option.isSome_map, Bool.eq_iff_iff, List.find?_isSome, List.any_eq_true]

/-- Setting an attribute keeps the names of the attributes, and puts the name in lowercase behind
them if it was not there. -/
theorem names_setAttr (tag : Tag) (name value : String) :
    (tag.setAttr name value).attributes.map (·.name) =
      tag.attributes.map (·.name) ++ if tag.hasAttr name then [] else [lowercase name] := by
  obtain ⟨element, l⟩ := tag
  rw [setAttr, hasAttr_eq_any]
  induction l with
  | nil => rfl
  | cons a l ih =>
    rw [assign, List.any_cons]
    split
    · next hfound => simp [hfound]
    · next hne =>
      rw [List.map_cons, ih, Bool.eq_false_iff.mpr hne, Bool.false_or]
      rfl

/-- The name of an attribute that is not there is, in lowercase, no name of one. -/
theorem lowercase_notMem_names (h : tag.hasAttr name = false) :
    lowercase name ∉ tag.attributes.map fun a => lowercase a.name := by
  intro hmem
  obtain ⟨a, ha, heq⟩ := List.mem_map.mp hmem
  rw [hasAttr_eq_any, List.any_eq_false] at h
  exact h a ha (caseless_iff.mpr heq)

/-- Setting an attribute keeps names distinct that are so up to case. -/
theorem nodup_setAttr (h : (tag.attributes.map fun a => lowercase a.name).Nodup)
    (name value : String) :
    ((tag.setAttr name value).attributes.map fun a => lowercase a.name).Nodup := by
  have hnames := congrArg (List.map lowercase) (names_setAttr tag name value)
  rw [List.map_append, List.map_map, List.map_map, Function.comp_def] at hnames
  rw [hnames]
  split
  · rwa [List.map_nil, List.append_nil]
  · next hnew =>
    have hfresh := lowercase_notMem_names (Bool.eq_false_iff.mpr hnew)
    rw [List.map_singleton, List.nodup_append]
    refine ⟨h, by simp, fun n hn m hm heq => hfresh ?_⟩
    have hm : m = lowercase name := by simpa [lowercase] using hm
    exact hm ▸ heq ▸ hn

end Tag

/-! ### Normal tags -/

/-- Setting an attribute with a valid name in lowercase keeps a tag normal. -/
theorem isNormal_setAttr {tag : Tag} {name : String} (value : String) (htag : tag.IsNormal)
    (hvalid : validAttributeName name = true) (hlower : lowercase name = name) :
    (tag.setAttr name value).IsNormal := by
  have hmem : ∀ a ∈ (tag.setAttr name value).attributes,
      validAttributeName a.name = true ∧ lowercase a.name = a.name := by
    intro a ha
    have ha := List.mem_map_of_mem (f := (·.name)) ha
    -- Its name was there before, or it is the one that was set.
    have hcases : a.name ∈ tag.attributes.map (·.name) ∨ a.name = name := by
      rw [Tag.names_setAttr, hlower, List.mem_append] at ha
      refine ha.imp_right fun ha => ?_
      split at ha
      · cases ha
      · exact List.mem_singleton.mp ha
    rcases hcases with hold | rfl
    · obtain ⟨b, hb, heq⟩ := List.mem_map.mp hold
      rw [← heq]
      exact ⟨htag.valid b hb, htag.lower b hb⟩
    · exact ⟨hvalid, hlower⟩
  refine {
    name := htag.name
    valid := fun a ha => (hmem a ha).1
    lower := fun a ha => (hmem a ha).2
    nodup := ?_ }
  -- In a normal tag the names are what they are in lowercase.
  have hsame := List.map_congr_left fun a ha => (hmem a ha).2
  have hold := List.map_congr_left htag.lower
  rw [← hsame]
  apply Tag.nodup_setAttr
  rw [hold]
  exact htag.nodup

/-- A tag with some of its attributes only is normal if the tag is. -/
theorem isNormal_of_sublist {tag : Tag} (h : tag.IsNormal) {l : List Attribute}
    (hl : l.Sublist tag.attributes) : Tag.IsNormal { tag with attributes := l } where
  name := h.name
  valid := fun a ha => h.valid a (hl.subset ha)
  lower := fun a ha => h.lower a (hl.subset ha)
  nodup := h.nodup.sublist (hl.map _)

theorem isNormal_removeAttr {tag : Tag} (h : tag.IsNormal) (name : String) :
    (tag.removeAttr name).IsNormal := isNormal_of_sublist h List.eraseP_sublist

theorem isNormal_cleaned {tag : Tag} (h : tag.IsNormal) : tag.cleaned.IsNormal :=
  isNormal_of_sublist h List.filter_sublist

end BoundMarkup.Markup
