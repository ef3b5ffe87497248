import BoundMarkup.Proofs.Binding.Outcome
import BoundMarkup.Proofs.Binding.Rerender

/-!
# What a host shows

A projected host says what its controller is about and shows the items that it has. After any calls
on the controller the indicators are those of its phase, whatever the host carried before, since a
tag that was read has each of them once at most; all else about the tag is as it was. The children
are those of the host until some call has come to items that are shown. From then on they are the
template and the blueprint bound to each of the items.

## Main definitions

* `Host.isIndicator`: the names of the two indicators;
* `Controller.HasShown`: some call has come to items.

## Main results

* `filter_attributes_projectedTag`: the attributes that are no indicators;
* `hasRendered_afterAll_iff`: items were rendered if some call has come to items;
* `project_afterAll`: what a host shows after any calls on its controller.
-/

namespace BoundMarkup

open Markup Text Host

/-! ### Attributes that are no indicators -/

namespace Markup

variable {q : Attribute → Bool} {name : String}

/-- Setting an attribute leaves those of other names as they are and in their order. -/
theorem Tag.filter_assign (hq : ∀ a : Attribute, caseless a.name name = true → q a = false)
    (value : String) (l : List Attribute) : (Tag.assign name value l).filter q = l.filter q := by
  induction l with
  | nil =>
    have hnew : q { name := lowercase name, value } = false := hq _ (by simp [caseless])
    rw [Tag.assign, List.filter_cons_of_neg (by simp [hnew])]
  | cons a l ih =>
    rw [Tag.assign]
    split
    · next hfound =>
      -- The value changes, and with either of them it is not looked at.
      have hold : q a = false := hq a hfound
      have hnew : q { a with value } = false := hq _ hfound
      rw [List.filter_cons_of_neg (Bool.eq_false_iff.mp hnew),
        List.filter_cons_of_neg (Bool.eq_false_iff.mp hold)]
    · rw [List.filter_cons, List.filter_cons, ih]

/-- Removing an attribute leaves those of other names as they are and in their order. -/
theorem Tag.filter_removeAttr (hq : ∀ a : Attribute, caseless a.name name = true → q a = false)
    (tag : Tag) : (tag.removeAttr name).attributes.filter q = tag.attributes.filter q := by
  show (tag.attributes.eraseP fun a => caseless a.name name).filter q = _
  rcases List.exists_or_eq_self_of_eraseP (fun a => caseless a.name name) tag.attributes with
    hself | ⟨a, before, behind, -, hfound, hlist, herased⟩
  · rw [hself]
  · have hgone : q a = false := hq a hfound
    rw [herased, hlist, List.filter_append, List.filter_append,
      List.filter_cons_of_neg (by simp [hgone])]

/-- An indicator has no effect on attributes of other names. -/
theorem Tag.filter_indicate (hq : ∀ a : Attribute, caseless a.name name = true → q a = false)
    (tag : Tag) (value : Option String) :
    (tag.indicate name value).attributes.filter q = tag.attributes.filter q := by
  cases value with
  | some value => exact Tag.filter_assign hq value tag.attributes
  | none => exact Tag.filter_removeAttr hq tag

end Markup

/-- Whether an attribute is an indicator, whatever the case of its name. -/
def Host.isIndicator (name : String) : Bool :=
  caseless name loadingAttribute || caseless name errorAttribute

/-- The attributes of a host that are no indicators stay as they are and in their order. -/
theorem filter_attributes_projectedTag (tag : Tag) (phase : Phase) (error : Option LoadError) :
    (projectedTag tag phase error).attributes.filter (!isIndicator ·.name) =
      tag.attributes.filter (!isIndicator ·.name) := by
  rw [projectedTag_eq_indicate, Tag.filter_indicate, Tag.filter_indicate]
  · intro a ha
    simp [isIndicator, ha]
  · intro a ha
    simp [isIndicator, ha]

/-! ### Whether items were rendered -/

namespace Controller

/-- Some of the calls has come to items, and they were rendered. -/
def HasShown (c : Controller) (calls : List Call) : Prop :=
  ∃ earlier call items, earlier ++ [call] <+: calls ∧
    (c.afterAll earlier).outcome call = .shown items

variable {c : Controller}

/-- Once items were rendered, this stays so. -/
theorem hasRendered_after (h : c.hasRendered = true) (call : Call) :
    (c.after call).hasRendered = true := by
  rw [after_eq_settled]
  cases c.outcome call with
  | ignored => exact h
  | waiting locator => exact h
  | refused e => exact h
  | shown items => rfl

theorem hasRendered_afterAll (h : c.hasRendered = true) (calls : List Call) :
    (c.afterAll calls).hasRendered = true := by
  induction calls generalizing c with
  | nil => exact h
  | cons call calls ih => exact ih (hasRendered_after h call)

/-- Items were rendered if and only if some call has come to items, or there were some before. -/
theorem hasRendered_afterAll_iff (c : Controller) (calls : List Call) :
    (c.afterAll calls).hasRendered = true ↔ c.hasRendered = true ∨ c.HasShown calls := by
  constructor
  · intro hrendered
    by_contra hnone
    rw [not_or] at hnone
    -- Calls that come to no items leave alone what is displayed, and whether there is something.
    have hdisplay : c.DisplaysLike (c.afterAll calls) := by
      apply displaysLike_afterAll
      intro earlier call hprefix items hshown
      exact hnone.2 ⟨earlier, call, items, hprefix, hshown⟩
    rw [hdisplay] at hrendered
    exact hnone.1 hrendered
  · rintro (hrendered | ⟨earlier, call, items, ⟨later, rfl⟩, hshown⟩)
    · exact hasRendered_afterAll hrendered calls
    · have hfirst : ((c.afterAll earlier).after call).hasRendered = true := by
        rw [after_eq_settled, hshown]
        rfl
      rw [afterAll, List.foldl_append, List.foldl_append]
      exact hasRendered_afterAll hfirst later

end Controller

/-! ### Hosts -/

/-- The indicator of an error is that of the error, if there is one exactly in the phase of
errors. -/
theorem errorMark_eq_map {phase : Phase} {error : Option LoadError}
    (h : error.isSome = true ↔ phase = .errored) :
    errorMark phase error = error.map LoadError.message := by
  cases error with
  | none => cases phase <;> rfl
  | some e =>
    rw [h.mp rfl]
    rfl

theorem isSome_loadingMark_iff (phase : Phase) :
    (loadingMark phase).isSome = true ↔ phase = .loading := by
  cases phase <;> simp [loadingMark]

section

variable {host template : Element} {c : Controller}

/-- Until items were rendered a host has its own children. -/
theorem projectedChildren_of_not_hasRendered (h : c.hasRendered = false) (host : Element) :
    projectedChildren host c = host.children := by
  rw [projectedChildren, h]
  rfl

/-- From then on it has its template and the instances. -/
theorem projectedChildren_of_hasRendered (h : c.hasRendered = true)
    (htemplate : host.child? templateName = some template) :
    projectedChildren host c = template.toNode :: c.instances.flatMap (·.nodes) := by
  rw [projectedChildren, h, htemplate]
  rfl

end

/-- After any calls on the controller of a host that was read, the host says that items are being
fetched exactly if they are, and that there is an error exactly if there is one, and which; its name
and its other attributes stay as they are and in their order. As long as no call has come to items,
its children are its own. From then on they are the template and the instances, which are the
blueprint bound to each of the items. -/
theorem project_afterAll {source : String} {page : Fragment} (hpage : parse source = .ok page)
    {host : Element} (hhost : host ∈ Fragment.elements page) {options : HostOptions}
    {c : Controller} (hmount : mount host options = .ok c) (calls : List Call) :
    ((project host (c.afterAll calls)).tag.hasAttr loadingAttribute = true ↔
        (c.afterAll calls).phase = .loading) ∧
      ((project host (c.afterAll calls)).tag.hasAttr errorAttribute = true ↔
        (c.afterAll calls).phase = .errored) ∧
      (project host (c.afterAll calls)).tag.attr? errorAttribute =
        (c.afterAll calls).error.map LoadError.message ∧
      (project host (c.afterAll calls)).tag.name = host.tag.name ∧
      (project host (c.afterAll calls)).tag.attributes.filter (!isIndicator ·.name) =
        host.tag.attributes.filter (!isIndicator ·.name) ∧
      (¬c.HasShown calls → (project host (c.afterAll calls)).children = host.children) ∧
      (c.HasShown calls → ∃ template, host.child? templateName = some template ∧
        (project host (c.afterAll calls)).children =
          template.toNode :: (c.afterAll calls).instances.flatMap (·.nodes) ∧
        (c.afterAll calls).instances.map (·.nodes) =
          (c.afterAll calls).items.map (bound template.children)) := by
  obtain ⟨template, htemplate, rfl⟩ := exists_template_of_mount hmount
  have hnormal : host.tag.IsNormal := isNormal_of_mem_elements hpage hhost
  have hconsistent := Controller.isConsistent_foldl
    (Controller.isConsistent_fresh { fragment := template.children } (identityKeyOf host options))
    calls
  have hrendered := Controller.hasRendered_afterAll_iff
    (.fresh { fragment := template.children } (identityKeyOf host options)) calls
  generalize hd : (Controller.fresh { fragment := template.children }
    (identityKeyOf host options)).afterAll calls = d at hconsistent hrendered ⊢
  have hloading := attr?_loading_projectedTag hnormal d.phase d.error
  have herror := attr?_error_projectedTag hnormal d.phase d.error
  rw [errorMark_eq_map hconsistent.error_iff] at herror
  refine ⟨?_, ?_, herror, name_projectedTag _ _ _, filter_attributes_projectedTag _ _ _, ?_, ?_⟩
  · rw [project, Tag.hasAttr, hloading, isSome_loadingMark_iff]
  · rw [project, Tag.hasAttr, herror, Option.isSome_map, hconsistent.error_iff]
  · intro hnone
    refine projectedChildren_of_not_hasRendered (Bool.eq_false_iff.mpr fun h => ?_) host
    rcases hrendered.mp h with hfresh | hshown
    · cases hfresh
    · exact hnone hshown
  · intro hshown
    have h : d.hasRendered = true := hrendered.mpr (.inr hshown)
    refine ⟨template, htemplate, projectedChildren_of_hasRendered h htemplate, ?_⟩
    rw [hconsistent.instances_eq h, List.map_map]
    rfl

/-- A host that carries both indicators, one of them in capitals, after items were set and then a
locator was configured. -/
theorem project_afterAll_loading :
    ∃ page host c,
      parse "<p><t LOADING=x data-x=1 error=old><template><b field=a></b></template>y</t></p>" =
        .ok page ∧
      host ∈ Fragment.elements page ∧ mount host {} = .ok c ∧
      let d := c.afterAll
        [.setItems [.object [("a", .string "1")], .null], .configure (.remote "u")]
      (project host d).tag.hasAttr "loading" = true ∧ (project host d).tag.hasAttr "error" = false ∧
        (project host d).tag.attributes.filter (!isIndicator ·.name) = [⟨"data-x", "1"⟩] ∧
        (project host d).children =
          [.element ⟨"template", []⟩ [.element ⟨"b", [⟨"field", "a"⟩]⟩ []],
            .element ⟨"b", [⟨"field", "a"⟩]⟩ [.text "1"],
            .element ⟨"b", [⟨"field", "a"⟩]⟩ []] := by
  have hpage :
      parse "<p><t LOADING=x data-x=1 error=old><template><b field=a></b></template>y</t></p>" =
        .ok [.element ⟨"p", []⟩
          [.element ⟨"t", [⟨"loading", "x"⟩, ⟨"data-x", "1"⟩, ⟨"error", "old"⟩]⟩
            [.element ⟨"template", []⟩ [.element ⟨"b", [⟨"field", "a"⟩]⟩ []], .text "y"]]] := by
    with_unfolding_all rfl
  let host : Element :=
    { tag := ⟨"t", [⟨"loading", "x"⟩, ⟨"data-x", "1"⟩, ⟨"error", "old"⟩]⟩
      children := [.element ⟨"template", []⟩ [.element ⟨"b", [⟨"field", "a"⟩]⟩ []], .text "y"] }
  have hhost : host ∈ Fragment.elements [.element ⟨"p", []⟩ [host.toNode]] :=
    List.mem_cons_of_mem _ List.mem_cons_self
  have hmount : mount host {} =
      .ok (.fresh { fragment := [.element ⟨"b", [⟨"field", "a"⟩]⟩ []] } "id") := by
    rfl
  refine ⟨_, host, _, hpage, hhost, hmount, ?_⟩
  intro d
  obtain ⟨hloading, herror, -, -, hothers, -, hshown⟩ :=
    project_afterAll hpage hhost hmount
      [.setItems [.object [("a", .string "1")], .null], .configure (.remote "u")]
  have hphase : d.phase = .loading := by
    rfl
  obtain ⟨template, htemplate, hchildren, hinstances⟩ :=
    hshown ⟨[], _, _, ⟨[.configure (.remote "u")], rfl⟩, rfl⟩
  cases htemplate
  refine ⟨hloading.mpr hphase, Bool.eq_false_iff.mpr fun h => ?_, hothers.trans ?_, ?_⟩
  · cases hphase.symm.trans (herror.mp h)
  · decide +kernel
  · refine hchildren.trans ?_
    rw [List.flatMap_def, hinstances]
    with_unfolding_all rfl

end BoundMarkup
