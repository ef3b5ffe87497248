import BoundMarkup.Proofs.Binding.AttributeMap
import BoundMarkup.Proofs.Markup.Clean

/-!
# Binding keeps a fragment clean

Whatever an item holds, it reaches a fragment as text, as the value of an attribute or as markup.
Text is clean, markup is cleaned, and an attribute map names no event handler and gives no URL
attribute an executable value. The name that an attribute map writes may be there already in
another case; then the spelling stays and the value changes, so what makes an attribute clean must
be the same for both spellings.

## Main results

* `isClean_setAttr`: setting a clean attribute keeps a tag clean;
* `isClean_bindAttributes`: the attribute pass keeps a tag clean;
* `cleaned_bound`: a fragment that cleaning leaves as it is stays one when it is bound.
-/

namespace BoundMarkup

open Json Markup Text

/-! ### Setting an attribute -/

/-- A name and its other spellings are equally clean. -/
theorem isClean_congr {a b : Attribute} (hname : caseless a.name b.name = true)
    (hvalue : a.value = b.value) : a.isClean = b.isClean := by
  have heq : a.lowercased = b.lowercased := by
    rw [Attribute.lowercased, Attribute.lowercased, caseless_iff.mp hname, hvalue]
  rw [← Attribute.isClean_lowercased, heq, Attribute.isClean_lowercased]

/-- An attribute that is there after another one was set was there before, or it is the one that
was set, in the spelling that was found. -/
theorem mem_assign {name value : String} {l : List Attribute} {a : Attribute}
    (h : a ∈ Tag.assign name value l) : a ∈ l ∨ (caseless a.name name = true ∧ a.value = value) := by
  induction l with
  | nil =>
    rw [Tag.assign, List.mem_singleton] at h
    subst h
    exact .inr ⟨by simp [caseless], rfl⟩
  | cons b l ih =>
    rw [Tag.assign] at h
    split at h
    · next hb =>
      rcases List.mem_cons.mp h with rfl | h
      · exact .inr ⟨hb, rfl⟩
      · exact .inl (List.mem_cons_of_mem b h)
    · rcases List.mem_cons.mp h with rfl | h
      · exact .inl List.mem_cons_self
      · exact (ih h).imp_left (List.mem_cons_of_mem b)

/-- Setting a clean attribute keeps a tag clean. -/
theorem isClean_setAttr {tag : Tag} {name value : String} (htag : tag.IsClean)
    (h : Attribute.isClean { name, value } = true) : (tag.setAttr name value).IsClean := by
  intro a ha
  rcases mem_assign ha with ha | ⟨hname, hvalue⟩
  · exact htag a ha
  · rw [isClean_congr (b := { name, value }) hname hvalue, h]

/-! ### Attribute maps -/

/-- A binding of an attribute map stands in an entry that is accepted. -/
theorem exists_ofEntry_of_mem_bindingsOf {list : String} {b : AttributeBinding}
    (h : b ∈ Binding.bindingsOf list) : ∃ entry, AttributeBinding.ofEntry entry = .ok b := by
  obtain ⟨result, hmem, hok⟩ := List.mem_filterMap.mp h
  obtain ⟨entry, -, rfl⟩ := List.mem_map.mp hmem
  cases hentry : AttributeBinding.ofEntry entry with
  | error issue =>
    rw [hentry] at hok
    cases hok
  | ok b' =>
    rw [hentry] at hok
    cases hok
    exact ⟨entry, hentry⟩

/-- A binding of an attribute map has a name that may be bound and handles no event, and the target
is that name in lowercase. -/
theorem exists_of_mem_bindingsOf {list : String} {b : AttributeBinding}
    (h : b ∈ Binding.bindingsOf list) :
    ∃ name, AttributeBinding.validName name = true ∧
      isEventHandler (String.ofList name) = false ∧ b.target = String.ofList (lower name) := by
  obtain ⟨entry, hentry⟩ := exists_ofEntry_of_mem_bindingsOf h
  obtain ⟨name, path, -, hvalid, hhandler, -, htarget⟩ :=
    AttributeBinding.ofEntry_eq_ok_iff.mp hentry
  exact ⟨trim name, hvalid, hhandler, htarget⟩

/-- No binding of an attribute map names an event handler. -/
theorem not_isEventHandler_of_mem_bindingsOf {list : String} {b : AttributeBinding}
    (h : b ∈ Binding.bindingsOf list) : isEventHandler b.target = false := by
  obtain ⟨name, -, hhandler, htarget⟩ := exists_of_mem_bindingsOf h
  -- The handler test was on the name as it stands, the target is in lowercase.
  have hlower : String.ofList (lower name) = lowercase (String.ofList name) := by
    simp [lowercase]
  rw [htarget, hlower, isEventHandler_lowercase]
  exact hhandler

/-- A binding that names no event handler keeps a tag clean, whatever the item holds. -/
theorem isClean_applyBinding {tag : Tag} {b : AttributeBinding} (item : Value)
    (htag : tag.IsClean) (hb : isEventHandler b.target = false) :
    (Binding.applyBinding item tag b).IsClean := by
  unfold Binding.applyBinding
  split
  · exact htag
  · next v _ =>
    split
    · exact htag
    · -- What is not refused is no URL attribute with an executable value.
      next hrefused =>
      refine isClean_setAttr htag ?_
      rw [Attribute.isClean, hb, Bool.not_false, Bool.true_and, Bool.not_eq_true']
      exact Bool.eq_false_iff.mpr hrefused

/-- What no binding of an attribute map breaks, the whole map does not break either: its bindings are
applied one after another. -/
theorem bindAttributes_induction {p : Tag → Prop} {item : Value} {tag : Tag} (htag : p tag)
    (hstep : ∀ list tag, ∀ b ∈ Binding.bindingsOf list, p tag →
      p (Binding.applyBinding item tag b)) : p (Binding.bindAttributes item tag) := by
  unfold Binding.bindAttributes
  split
  · exact htag
  · next list _ =>
    exact List.foldlRecOn _ _ htag fun tag ht b hb => hstep list tag b hb ht

/-- The attribute pass keeps a tag clean. -/
theorem isClean_bindAttributes {tag : Tag} (item : Value) (htag : tag.IsClean) :
    (Binding.bindAttributes item tag).IsClean :=
  bindAttributes_induction htag fun _ _ _ hb ht =>
    isClean_applyBinding item ht (not_isEventHandler_of_mem_bindingsOf hb)

/-- The attribute pass keeps the name of a tag. -/
theorem name_bindAttributes (item : Value) (tag : Tag) :
    (Binding.bindAttributes item tag).name = tag.name := by
  refine bindAttributes_induction (p := fun t => t.name = tag.name) rfl fun _ t b _ ht => ?_
  unfold Binding.applyBinding
  split
  · exact ht
  · split
    · exact ht
    · exact ht

/-! ### The passes -/

/-- A pass that keeps tags clean and gives elements clean content keeps a fragment clean. -/
theorem each_isClean_edit {f : Tag → Tag × Option Fragment} {g : Fragment}
    (hname : ∀ tag, (f tag).1.name = tag.name) (htag : ∀ tag, tag.IsClean → (f tag).1.IsClean)
    (hcontent : ∀ tag content, (f tag).2 = some content → Fragment.Each Node.IsClean content)
    (hg : Fragment.Each Node.IsClean g) : Fragment.Each Node.IsClean (Fragment.edit f g) := by
  refine Fragment.each_edit (fun tag children content h => ?_) hcontent hg
  rw [Node.IsClean] at h ⊢
  exact ⟨(congrArg isDenied (hname tag)).trans h.1, htag tag h.2⟩

theorem each_textPass {f : Fragment} (item : Value) (hf : Fragment.Each Node.IsClean f) :
    Fragment.Each Node.IsClean (Binding.textPass item f) := by
  refine each_isClean_edit (fun _ => rfl) (fun _ h => h) (fun tag content h => ?_) hf
  obtain ⟨path, -, rfl⟩ := Option.map_eq_some_iff.mp h
  exact Fragment.each_textChildren (fun _ => trivial) _

theorem each_attributePass {f : Fragment} (item : Value) (hf : Fragment.Each Node.IsClean f) :
    Fragment.Each Node.IsClean (Binding.attributePass item f) :=
  each_isClean_edit (name_bindAttributes item) (fun _ h => isClean_bindAttributes item h)
    (fun _ _ h => nomatch h) hf

theorem each_markupPass {f : Fragment} (item : Value) (hf : Fragment.Each Node.IsClean f) :
    Fragment.Each Node.IsClean (Binding.markupPass item f) := by
  refine each_isClean_edit (fun _ => rfl) (fun _ h => h) (fun tag content h => ?_) hf
  obtain ⟨path, -, rfl⟩ := Option.map_eq_some_iff.mp h
  exact each_clean _

theorem each_removalPass {f : Fragment} (keep : Tag → Bool) (hf : Fragment.Each Node.IsClean f) :
    Fragment.Each Node.IsClean (Binding.removalPass keep f) :=
  Fragment.each_retain Node.ignoresChildren_isClean _ _ hf

/-- Every node of a clean fragment that is bound to an item is clean. -/
theorem each_bound {f : Fragment} (item : Value) (hf : Fragment.Each Node.IsClean f) :
    Fragment.Each Node.IsClean (bound f item) :=
  each_removalPass _ (each_removalPass _ (each_markupPass item
    (each_attributePass item (each_textPass item hf))))

/-- A fragment that cleaning leaves as it is stays one when it is bound, whatever its directives are
and whatever the item holds. -/
theorem cleaned_bound {f : Fragment} (h : Fragment.cleaned f = f) (item : Value) :
    Fragment.cleaned (bound f item) = bound f item :=
  Fragment.cleaned_eq_self (each_bound item (Fragment.cleaned_eq_self_iff.mp h))

/-- An element with a URL in capitals, an attribute map that names an event handler and that URL, and
markup, bound to an item all of whose strings would run code. -/
theorem cleaned_bound_hostile :
    Fragment.cleaned
        (bound
          [.element ⟨"a", [⟨"HREF", "/"⟩, ⟨"field-attr", "onclick: x, href: x, title: x"⟩,
            ⟨"field-html", "m"⟩]⟩ []]
          (.object [("x", .string "javascript:f()"), ("m", .string "<p onclick=x>t</p>")])) =
      bound
        [.element ⟨"a", [⟨"HREF", "/"⟩, ⟨"field-attr", "onclick: x, href: x, title: x"⟩,
          ⟨"field-html", "m"⟩]⟩ []]
        (.object [("x", .string "javascript:f()"), ("m", .string "<p onclick=x>t</p>")]) :=
  cleaned_bound (by rfl) _

end BoundMarkup
