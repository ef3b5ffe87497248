import BoundMarkup.Markup.Writer
import BoundMarkup.Proofs.Binding.Clean
import BoundMarkup.Proofs.Binding.OnePass
import BoundMarkup.Proofs.Markup.Attribute

/-!
# What binding discloses of an item

Whatever is taken from an item is taken by a path that a directive of the fragment names. What an
item puts into a fragment is never read as a directive: texts and markup are not looked into again,
and the attribute pass writes no directive unless a map names one for its target. So two items that
cannot be told apart by the paths of a fragment give the same when it is bound to them.

For one element this is a matter of its tag. The attribute pass makes the same of it for both items,
and what it makes has the directives of the tag as it was, so the other passes look up what they
would have looked up before it.

## Main definitions

* `Binding.namedPaths`: the paths that the directives in a fragment name;
* `Binding.WritesNoDirective`: no attribute map in a fragment has a directive for its target;
* `Binding.AgreesOn`: two items are the same as far as a tag is concerned.

## Main results

* `Binding.AgreesOn.bindAttributes_eq`: the attribute pass makes the same of such a tag;
* `Binding.AgreesOn.bound_element_eq`: such an element is bound to the same;
* `bound_eq_of_agree`: so is a fragment with such elements only.
-/

namespace BoundMarkup

open Json Markup Text

namespace Binding

/-- The bindings of the attribute map on a tag. -/
def bindingsOn (tag : Tag) : List AttributeBinding :=
  ((tag.attr? DirectiveKind.attributeMap.marker).map bindingsOf).getD []

/-- The paths that one kind of directive on a tag names. -/
def pathsOn (kind : DirectiveKind) (tag : Tag) : List String :=
  match kind with
  | .attributeMap => (bindingsOn tag).map (·.path.source)
  | kind => (tag.attr? kind.marker).toList

/-- The paths that the directives in a fragment name, in document order. -/
def namedPaths (f : Fragment) : List String :=
  (Fragment.elements f).flatMap fun e => DirectiveKind.all.flatMap (pathsOn · e.tag)

/-- No attribute map in a fragment has a directive for its target. -/
def WritesNoDirective (f : Fragment) : Prop :=
  ∀ e ∈ Fragment.elements f, ∀ b ∈ bindingsOn e.tag, ∀ kind ∈ DirectiveKind.all,
    b.target ≠ kind.marker

instance (f : Fragment) : Decidable (WritesNoDirective f) :=
  inferInstanceAs (Decidable (∀ e ∈ Fragment.elements f, ∀ b ∈ bindingsOn e.tag,
    ∀ kind ∈ DirectiveKind.all, b.target ≠ kind.marker))

/-- No directive on a tag tells two items apart, and its attribute map writes no directive. -/
structure AgreesOn (v w : Value) (tag : Tag) : Prop where
  /-- The attribute map writes no directive. -/
  target_ne : ∀ b ∈ bindingsOn tag, ∀ kind : DirectiveKind, b.target ≠ kind.marker
  /-- The paths of the tag lead to the same. -/
  tryResolve_eq : ∀ kind, ∀ path ∈ pathsOn kind tag, tryResolve v path = tryResolve w path

variable {v w : Value} {tag : Tag} {b : AttributeBinding} {kind : DirectiveKind}

theorem mem_all (kind : DirectiveKind) : kind ∈ DirectiveKind.all := by
  cases kind <;> decide

/-! ### Attribute maps -/

theorem bindAttributes_eq_foldl (item : Value) (tag : Tag) :
    bindAttributes item tag = (bindingsOn tag).foldl (applyBinding item) tag := by
  rw [bindAttributes, bindingsOn]
  cases tag.attr? DirectiveKind.attributeMap.marker with
  | none => rfl
  | some list => rfl

theorem exists_of_mem_bindingsOn (h : b ∈ bindingsOn tag) : ∃ list, b ∈ bindingsOf list := by
  rw [bindingsOn] at h
  cases hmap : tag.attr? DirectiveKind.attributeMap.marker with
  | none =>
    rw [hmap] at h
    cases h
  | some list =>
    rw [hmap] at h
    exact ⟨list, h⟩

/-- The path of a binding is the one that its text is read as. -/
theorem parse_source_of_mem_bindingsOn (h : b ∈ bindingsOn tag) :
    Path.parse b.path.source = .ok b.path := by
  obtain ⟨list, hlist⟩ := exists_of_mem_bindingsOn h
  obtain ⟨entry, hentry⟩ := exists_ofEntry_of_mem_bindingsOf hlist
  obtain ⟨name, path, -, -, -, hparse, -⟩ := AttributeBinding.ofEntry_eq_ok_iff.mp hentry
  have hsource := (Path.parse_eq_ok_iff.mp hparse).1
  rwa [← hsource] at hparse

/-- The target of a binding is in lowercase. -/
theorem lowercase_target_of_mem_bindingsOn (h : b ∈ bindingsOn tag) :
    lowercase b.target = b.target := by
  obtain ⟨list, hlist⟩ := exists_of_mem_bindingsOn h
  obtain ⟨name, -, -, htarget⟩ := exists_of_mem_bindingsOf hlist
  simp [htarget, lowercase]

/-- A binding with another target leaves a directive as it is. -/
theorem attr?_applyBinding (item : Value) (hlower : lowercase b.target = b.target)
    (hne : b.target ≠ kind.marker) (tag : Tag) :
    (applyBinding item tag b).attr? kind.marker = tag.attr? kind.marker := by
  have hmarker : lowercase kind.marker = kind.marker := by
    cases kind <;> decide
  have hother : caseless b.target kind.marker = false := by
    rw [Bool.eq_false_iff, ne_eq, caseless_iff, hlower, hmarker]
    exact hne
  rw [applyBinding]
  split
  · rfl
  · split
    · rfl
    · exact Tag.attr?_setAttr_of_ne tag hother _

/-- After the attribute pass a directive is as it was, or one of the bindings has written it. -/
theorem attr?_bindAttributes_cases (item : Value) (tag : Tag) (kind : DirectiveKind) :
    (bindAttributes item tag).attr? kind.marker = tag.attr? kind.marker ∨
      ∃ b ∈ bindingsOn tag, ∃ v, b.target = kind.marker ∧ b.path.lookup item = some v ∧
        (bindAttributes item tag).attr? kind.marker = some (displayText v) := by
  rw [bindAttributes_eq_foldl]
  refine List.foldlRecOn (motive := fun t : Tag => t.attr? kind.marker = tag.attr? kind.marker ∨
    ∃ b ∈ bindingsOn tag, ∃ v, b.target = kind.marker ∧ b.path.lookup item = some v ∧
      t.attr? kind.marker = some (displayText v)) _ _ (.inl rfl) ?_
  intro t ht b hb
  by_cases htarget : b.target = kind.marker
  · -- A binding that would write the directive may find nothing, or be refused.
    rw [applyBinding]
    split
    · exact ht
    · next v hlookup =>
      split
      · exact ht
      · rw [htarget, Tag.attr?_setAttr_self]
        exact .inr ⟨b, hb, v, htarget, hlookup, rfl⟩
  · rw [attr?_applyBinding item (lowercase_target_of_mem_bindingsOn hb) htarget]
    exact ht

/-- The attribute pass leaves the directives of a tag as they are. -/
theorem attr?_bindAttributes (item : Value)
    (h : ∀ b ∈ bindingsOn tag, ∀ kind : DirectiveKind, b.target ≠ kind.marker)
    (kind : DirectiveKind) :
    (bindAttributes item tag).attr? kind.marker = tag.attr? kind.marker := by
  rcases attr?_bindAttributes_cases item tag kind with hsame | ⟨b, hb, -, htarget, -⟩
  · exact hsame
  · exact absurd htarget (h b hb kind)

namespace AgreesOn

variable (h : AgreesOn v w tag)

include h

/-- The attribute pass makes the same of the tag. -/
theorem bindAttributes_eq : bindAttributes v tag = bindAttributes w tag := by
  rw [bindAttributes_eq_foldl, bindAttributes_eq_foldl]
  -- Each binding by itself does the same to any tag.
  refine List.foldl_ext _ _ _ fun t b hb => ?_
  have hparse := parse_source_of_mem_bindingsOn hb
  have hagree := h.tryResolve_eq .attributeMap b.path.source (List.mem_map_of_mem hb)
  rw [tryResolve, tryResolve, hparse] at hagree
  have hlookup : b.path.lookup v = b.path.lookup w := Except.ok.inj hagree
  rw [applyBinding, applyBinding, hlookup]

/-- A directive other than an attribute map takes the same from both items. -/
theorem resolve_eq {path : String} (hkind : kind ≠ .attributeMap)
    (hpath : tag.attr? kind.marker = some path) : resolve v path = resolve w path := by
  have hmem : path ∈ pathsOn kind tag := by
    rw [pathsOn.eq_def]
    split
    · exact absurd rfl hkind
    · rw [hpath]
      exact List.mem_singleton_self path
  rw [resolve, resolve, h.tryResolve_eq kind path hmem]

/-- The conditions of the tag that the attribute pass makes hold for both items or for none. -/
theorem keeps_eq : keeps v (bindAttributes v tag) = keeps w (bindAttributes w tag) := by
  have hif : keepsIf v (bindAttributes v tag) = keepsIf w (bindAttributes w tag) := by
    rw [keepsIf, keepsIf, attr?_bindAttributes v h.target_ne, attr?_bindAttributes w h.target_ne]
    cases hpath : tag.attr? DirectiveKind.showIf.marker with
    | none => rfl
    | some path => exact congrArg isTruthy (h.resolve_eq (by decide) hpath)
  have hunless : keepsUnless v (bindAttributes v tag) = keepsUnless w (bindAttributes w tag) := by
    rw [keepsUnless, keepsUnless, attr?_bindAttributes v h.target_ne,
      attr?_bindAttributes w h.target_ne]
    cases hpath : tag.attr? DirectiveKind.showUnless.marker with
    | none => rfl
    | some path => exact congrArg (!isTruthy ·) (h.resolve_eq (by decide) hpath)
  rw [keeps, keeps, hif, hunless]

/-- Such an element is bound to the same if its children are. -/
theorem bound_element_eq {children : Fragment} (hchildren : bound children v = bound children w) :
    bound [.element tag children] v = bound [.element tag children] w := by
  -- The directives that are read behind the attribute pass are those of the tag as it was.
  rw [bound_element, bound_element, h.keeps_eq, attr?_bindAttributes v h.target_ne,
    attr?_bindAttributes w h.target_ne, h.bindAttributes_eq]
  cases hmarkup : tag.attr? DirectiveKind.markup.marker with
  | some path =>
    have hcontent : contentOf v path = contentOf w path :=
      congrArg textOf (h.resolve_eq (by decide) hmarkup)
    simp only [hcontent]
  | none =>
    cases htext : tag.attr? DirectiveKind.text.marker with
    | some path =>
      have hcontent : contentOf v path = contentOf w path :=
        congrArg textOf (h.resolve_eq (by decide) htext)
      simp only [hcontent]
    | none => simp only [hchildren]

end AgreesOn

/-! ### Fragments -/

/-- No directive on a node tells two items apart. -/
def NodeAgreesOn (v w : Value) : Node → Prop
  | .element tag _ => AgreesOn v w tag
  | _ => True

mutual

theorem bound_node_eq_of_agree : ∀ n : Node, n.Each (NodeAgreesOn v w) → bound [n] v = bound [n] w
  | .element tag children, h => by
    rw [Node.Each] at h
    exact h.1.bound_element_eq (bound_fragment_eq_of_agree children h.2)
  | .text s, _ => by rw [bound_text, bound_text]
  | .comment s, _ => by rw [bound_comment, bound_comment]
  | .doctype s, _ => by rw [bound_doctype, bound_doctype]

theorem bound_fragment_eq_of_agree :
    ∀ f : List Node, Fragment.Each (NodeAgreesOn v w) f → bound f v = bound f w
  | [], _ => by rw [bound_nil, bound_nil]
  | n :: f, h => by
    rw [Fragment.each_cons] at h
    rw [bound_cons, bound_cons n f w, bound_node_eq_of_agree n h.1,
      bound_fragment_eq_of_agree f h.2]

end

end Binding

open Binding

/-- A fragment discloses of an item only what its directives name: if its attribute maps write no
directive, and two items give the same for every path that a directive of it names, then it is bound
to the same for both, and written the same. -/
theorem bound_eq_of_agree {f : Fragment} {v w : Value} (hwrites : WritesNoDirective f)
    (hagree : ∀ path ∈ namedPaths f, tryResolve v path = tryResolve w path) :
    bound f v = bound f w ∧ Fragment.toHtml (bound f v) = Fragment.toHtml (bound f w) := by
  have heach : Fragment.Each (NodeAgreesOn v w) f := by
    refine Fragment.each_of_elements ?_ fun e he => ?_
    · -- Nodes that are no elements have no directives.
      intro n hn
      cases n with
      | element tag children => simp [Node.elements] at hn
      | _ => trivial
    · refine ⟨fun b hb kind => hwrites e he b hb kind (mem_all kind), fun kind path hpath => ?_⟩
      apply hagree
      exact List.mem_flatMap.mpr ⟨e, he, List.mem_flatMap.mpr ⟨kind, mem_all kind, hpath⟩⟩
  have hbound := bound_fragment_eq_of_agree f heach
  exact ⟨hbound, congrArg Fragment.toHtml hbound⟩

/-- Two items that differ in a member which no directive of the fragment names; that there is one in
the markup of the item makes no difference. -/
theorem bound_eq_of_agree_unnamed :
    let f : Fragment := [.element ⟨"p", [⟨"field-attr", "title: a"⟩]⟩
      [.element ⟨"b", [⟨"field-html", "b"⟩]⟩ []]]
    let item (secret : String) : Value :=
      .object [("a", .string "t"), ("b", .string "<i field=c>"), ("c", .string secret)]
    bound f (item "x") = bound f (item "y") ∧
      Fragment.toHtml (bound f (item "x")) = Fragment.toHtml (bound f (item "y")) := by
  intro f item
  have hpaths : namedPaths f = ["a", "b"] := by decide +kernel
  have ha : Path.parse "a" = .ok { source := "a", segments := [.key "a"] } := by decide +kernel
  have hb : Path.parse "b" = .ok { source := "b", segments := [.key "b"] } := by decide +kernel
  refine bound_eq_of_agree (by decide +kernel) ?_
  rw [hpaths, List.forall_mem_cons, List.forall_mem_singleton]
  refine ⟨?_, ?_⟩
  · rw [tryResolve, tryResolve, ha]
    rfl
  · rw [tryResolve, tryResolve, hb]
    rfl

end BoundMarkup
