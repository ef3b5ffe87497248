import BoundMarkup.Proofs.Binding.Hosts
import BoundMarkup.Proofs.Markup.Attribute

/-!
# Rendering a rendered page

A page that was rendered is rendered as it is. What becomes of a host depends on its template, on
the key and the source that it declares, and on its name; a projection keeps all of these, since it
puts the template first and touches no attributes but the two indicators. So the same controller
comes of the projected host, and projecting it once more finds everything in place.

That an indicator is gone after it was removed rests on the tag having it once only, which is so for
tags that were read.

## Main definitions

* `Tag.indicate`: an attribute set to a value, or removed for want of one;
* `Host.loadingMark`, `Host.errorMark`: the values of the two indicators.

## Main results

* `Fragment.named_eq_flatMap_topmost`: the elements of a name by the topmost ones;
* `Fragment.mapTopmost_mapTopmost`: replacing topmost elements twice is replacing each of them
  twice;
* `project_project`: projecting a controller twice is projecting it once;
* `controller?_projection`: the same controller comes of what becomes of a host;
* `renderTree_renderTree`: rendering a rendered page changes nothing.
-/

namespace BoundMarkup

open Markup Text Host

/-! ### Topmost elements -/

namespace Markup

variable {name : String} {h k : Element → Element}

mutual

/-- Where the topmost elements of a node keep their name, they are found again. -/
theorem Node.topmost_mapTopmost (hk : ∀ e, (k e).tag.name = e.tag.name) :
    ∀ n : Node, (n.mapTopmost name k).topmost name = (n.topmost name).map k
  | .element tag children => by
    rw [Node.mapTopmost, Node.topmost]
    split
    · next hname =>
      have hkeep : (k { tag, children }).tag.name = name := (hk _).trans hname
      rw [Element.toNode, Node.topmost, if_pos hkeep]
      rfl
    · next hname =>
      rw [Node.topmost, if_neg hname]
      exact Fragment.topmost_mapTopmost hk children
  | .text s => by simp [Node.mapTopmost, Node.topmost]
  | .comment s => by simp [Node.mapTopmost, Node.topmost]
  | .doctype s => by simp [Node.mapTopmost, Node.topmost]

/-- Where the topmost elements keep their name, they are found again. -/
theorem Fragment.topmost_mapTopmost (hk : ∀ e, (k e).tag.name = e.tag.name) :
    ∀ f : List Node,
      Fragment.topmost name (Fragment.mapTopmost name k f) = (Fragment.topmost name f).map k
  | [] => by simp [Fragment.mapTopmost, Fragment.topmost]
  | n :: f => by
    rw [Fragment.mapTopmost, Fragment.topmost, Fragment.topmost, List.map_append,
      Node.topmost_mapTopmost hk n, Fragment.topmost_mapTopmost hk f]

end

mutual

/-- The topmost elements of a node are replaced a second time where they keep their name. -/
theorem Node.mapTopmost_mapTopmost (hk : ∀ e, (k e).tag.name = e.tag.name) :
    ∀ n : Node, (n.mapTopmost name k).mapTopmost name h = n.mapTopmost name (h ∘ k)
  | .element tag children => by
    rw [Node.mapTopmost, Node.mapTopmost]
    split
    · next hname =>
      have hkeep : (k { tag, children }).tag.name = name := (hk _).trans hname
      rw [Element.toNode, Node.mapTopmost, if_pos hkeep]
      rfl
    · next hname =>
      rw [Node.mapTopmost, if_neg hname, Fragment.mapTopmost_mapTopmost hk children]
  | .text s => by simp [Node.mapTopmost]
  | .comment s => by simp [Node.mapTopmost]
  | .doctype s => by simp [Node.mapTopmost]

/-- Replacing the topmost elements twice is replacing each of them twice, if they keep their
name. -/
theorem Fragment.mapTopmost_mapTopmost (hk : ∀ e, (k e).tag.name = e.tag.name) :
    ∀ f : List Node,
      Fragment.mapTopmost name h (Fragment.mapTopmost name k f) =
        Fragment.mapTopmost name (h ∘ k) f
  | [] => by simp [Fragment.mapTopmost]
  | n :: f => by
    rw [Fragment.mapTopmost, Fragment.mapTopmost, Fragment.mapTopmost,
      Node.mapTopmost_mapTopmost hk n, Fragment.mapTopmost_mapTopmost hk f]

end

mutual

/-- What the topmost elements of a node are replaced by depends on their images only. -/
theorem Node.mapTopmost_congr :
    ∀ {n : Node}, (∀ e ∈ n.topmost name, h e = k e) → n.mapTopmost name h = n.mapTopmost name k
  | .element tag children, heq => by
    rw [Node.topmost] at heq
    rw [Node.mapTopmost, Node.mapTopmost]
    split
    · next hname =>
      rw [if_pos hname] at heq
      rw [heq _ List.mem_cons_self]
    · next hname =>
      rw [if_neg hname] at heq
      rw [Fragment.mapTopmost_congr heq]
  | .text s, _ => by rw [Node.mapTopmost, Node.mapTopmost]
  | .comment s, _ => by rw [Node.mapTopmost, Node.mapTopmost]
  | .doctype s, _ => by rw [Node.mapTopmost, Node.mapTopmost]

/-- What the topmost elements are replaced by depends on their images only. -/
theorem Fragment.mapTopmost_congr :
    ∀ {f : List Node}, (∀ e ∈ Fragment.topmost name f, h e = k e) →
      Fragment.mapTopmost name h f = Fragment.mapTopmost name k f
  | [], _ => by rw [Fragment.mapTopmost, Fragment.mapTopmost]
  | n :: f, heq => by
    rw [Fragment.topmost, List.forall_mem_append] at heq
    rw [Fragment.mapTopmost, Fragment.mapTopmost, Node.mapTopmost_congr heq.1,
      Fragment.mapTopmost_congr heq.2]

end

mutual

private theorem Node.named_eq_flatMap_topmost : ∀ n : Node,
    n.elements.filter (·.tag.name = name) =
      (n.topmost name).flatMap fun e => e :: Fragment.named name e.children
  | .element tag children => by
    rw [Node.elements, Node.topmost]
    split
    · next hname =>
      rw [List.filter_cons_of_pos (by simpa using hname), List.flatMap_singleton, Fragment.named]
    · next hname =>
      rw [List.filter_cons_of_neg (by simpa using hname)]
      exact Fragment.named_eq_flatMap_topmost children
  | .text _ => by simp [Node.elements, Node.topmost]
  | .comment _ => by simp [Node.elements, Node.topmost]
  | .doctype _ => by simp [Node.elements, Node.topmost]

/-- The elements of a name are the topmost ones, each followed by those inside of it. -/
theorem Fragment.named_eq_flatMap_topmost : ∀ f : List Node,
    Fragment.named name f =
      (Fragment.topmost name f).flatMap fun e => e :: Fragment.named name e.children
  | [] => by simp [Fragment.named, Fragment.elements, Fragment.topmost]
  | n :: f => by
    rw [Fragment.named, Fragment.elements, List.filter_append, Fragment.topmost,
      List.flatMap_append, Node.named_eq_flatMap_topmost n, ← Fragment.named_eq_flatMap_topmost f,
      Fragment.named]

end

/-- The topmost elements of a name are among all elements of that name. -/
theorem Fragment.mem_named_of_mem_topmost {e : Element} {f : List Node}
    (h : e ∈ Fragment.topmost name f) : e ∈ Fragment.named name f := by
  rw [Fragment.named_eq_flatMap_topmost]
  exact List.mem_flatMap.mpr ⟨e, h, List.mem_cons_self⟩

/-- A topmost element of a fragment is an element of it. -/
theorem Fragment.topmost_subset (f : List Node) :
    Fragment.topmost name f ⊆ Fragment.elements f := fun _ h =>
  (List.mem_filter.mp (Fragment.mem_named_of_mem_topmost h)).1

/-! ### Indicators -/

namespace Tag

/-- The tag with an attribute set to a value, or without it if there is none. -/
def indicate (tag : Tag) (name : String) : Option String → Tag
  | some value => tag.setAttr name value
  | none => tag.removeAttr name

variable {tag : Tag} {name other : String}

/-- An indicator of a normal tag is what it was set to. -/
theorem attr?_indicate_self (h : tag.IsNormal) (name : String) (value : Option String) :
    (tag.indicate name value).attr? name = value := by
  cases value with
  | some value => exact attr?_setAttr_self tag name value
  | none => exact attr?_removeAttr_self h name

theorem attr?_indicate_of_ne (tag : Tag) (h : caseless name other = false)
    (value : Option String) : (tag.indicate name value).attr? other = tag.attr? other := by
  cases value with
  | some value => exact attr?_setAttr_of_ne tag h value
  | none => exact attr?_removeAttr_of_ne tag h

/-- An indicator that is as it should be changes nothing. -/
theorem indicate_eq_self {value : Option String} (h : tag.attr? name = value) :
    tag.indicate name value = tag := by
  cases value with
  | some value => exact setAttr_eq_self h
  | none => exact removeAttr_eq_self h

theorem isNormal_indicate (h : tag.IsNormal) (hvalid : validAttributeName name = true)
    (hlower : lowercase name = name) (value : Option String) :
    (tag.indicate name value).IsNormal := by
  cases value with
  | some value => exact isNormal_setAttr value h hvalid hlower
  | none => exact isNormal_removeAttr h name

@[simp]
theorem name_indicate (tag : Tag) (name : String) (value : Option String) :
    (tag.indicate name value).name = tag.name := by
  cases value <;> rfl

end Tag

end Markup

namespace Host

/-- What the indicator of loading is set to. -/
def loadingMark : Phase → Option String
  | .loading => some ""
  | _ => none

/-- What the indicator of an error is set to. -/
def errorMark : Phase → Option LoadError → Option String
  | .errored, some e => some e.message
  | _, _ => none

end Host

/-- Projecting the tag of a host sets its two indicators. -/
theorem projectedTag_eq_indicate (tag : Tag) (phase : Phase) (error : Option LoadError) :
    projectedTag tag phase error =
      (tag.indicate loadingAttribute (loadingMark phase)).indicate errorAttribute
        (errorMark phase error) := by
  cases phase <;> cases error <;> rfl

/-- What is no indicator stays as it is. -/
theorem attr?_projectedTag (tag : Tag) (phase : Phase) (error : Option LoadError) {name : String}
    (hloading : caseless loadingAttribute name = false)
    (herror : caseless errorAttribute name = false) :
    (projectedTag tag phase error).attr? name = tag.attr? name := by
  rw [projectedTag_eq_indicate, Tag.attr?_indicate_of_ne _ herror,
    Tag.attr?_indicate_of_ne _ hloading]

@[simp]
theorem name_projectedTag (tag : Tag) (phase : Phase) (error : Option LoadError) :
    (projectedTag tag phase error).name = tag.name := by
  rw [projectedTag_eq_indicate, Tag.name_indicate, Tag.name_indicate]

section

variable {tag : Tag} (h : tag.IsNormal) (phase : Phase) (error : Option LoadError)

include h

/-- A normal tag says whether items are being fetched, whatever it said before. -/
theorem attr?_loading_projectedTag :
    (projectedTag tag phase error).attr? loadingAttribute = loadingMark phase := by
  rw [projectedTag_eq_indicate, Tag.attr?_indicate_of_ne _ (by decide), Tag.attr?_indicate_self h]

/-- A normal tag says why there are no new items, whatever it said before. -/
theorem attr?_error_projectedTag :
    (projectedTag tag phase error).attr? errorAttribute = errorMark phase error := by
  have hnormal : (tag.indicate loadingAttribute (loadingMark phase)).IsNormal :=
    Tag.isNormal_indicate h (by decide) (by decide) _
  rw [projectedTag_eq_indicate, Tag.attr?_indicate_self hnormal]

/-- The indicators of a normal tag are set once and for all. -/
theorem projectedTag_projectedTag :
    projectedTag (projectedTag tag phase error) phase error = projectedTag tag phase error := by
  rw [projectedTag_eq_indicate (projectedTag tag phase error),
    Tag.indicate_eq_self (attr?_loading_projectedTag h phase error),
    Tag.indicate_eq_self (attr?_error_projectedTag h phase error)]

end

/-! ### Projections -/

/-- A child that is found by its name is a child of that name. -/
theorem of_child? {e child : Element} {name : String} (h : e.child? name = some child) :
    child.toNode ∈ e.children ∧ child.tag.name = name := by
  obtain ⟨n, hmem, hn⟩ := List.exists_of_findSome?_eq_some h
  cases n with
  | element tag children =>
    dsimp only at hn
    split at hn
    · next hname =>
      cases hn
      exact ⟨hmem, hname⟩
    · cases hn
  | _ => cases hn

/-- The first child of an element is found by its name. -/
theorem child?_of_children_eq {e child : Element} {rest : List Node}
    (h : e.children = child.toNode :: rest) : e.child? child.tag.name = some child := by
  rw [Element.child?, h, Element.toNode]
  simp

section

variable {host template : Element} {options : HostOptions}

/-- The template of a host stays its template. -/
theorem child?_project (h : host.child? templateName = some template) (c : Controller) :
    (project host c).child? templateName = some template := by
  rw [project, projectedChildren, h]
  split
  · -- It is the first child of what shows items, whatever the instances are.
    have hname : Element.child?
        { tag := projectedTag host.tag c.phase c.error
          children := template.toNode :: c.instances.flatMap (·.nodes) } template.tag.name =
          some template := child?_of_children_eq rfl
    rwa [(of_child? h).2] at hname
  · exact h

/-- A projected host declares the source that the host declares. -/
theorem sourceOf_project (host : Element) (c : Controller) :
    sourceOf (project host c) = sourceOf host := by
  rw [sourceOf, sourceOf, project, attr?_projectedTag _ _ _ (by decide) (by decide),
    attr?_projectedTag _ _ _ (by decide) (by decide)]

theorem identityKeyOf_project (host : Element) (c : Controller) (options : HostOptions) :
    identityKeyOf (project host c) options = identityKeyOf host options := by
  rw [identityKeyOf, identityKeyOf, project, attr?_projectedTag _ _ _ (by decide) (by decide)]

/-- A projected host is mounted as the host is. -/
theorem mount_project (h : host.child? templateName = some template) (c : Controller) :
    mount (project host c) options = mount host options := by
  rw [mount, mount, child?_project h, h, identityKeyOf_project]

/-- Projecting a controller onto a host twice is projecting it once. -/
theorem project_project (hnormal : host.tag.IsNormal)
    (h : host.child? templateName = some template) (c : Controller) :
    project (project host c) c = project host c := by
  have hchildren : projectedChildren (project host c) c = projectedChildren host c := by
    rw [projectedChildren, child?_project h, project, projectedChildren, h]
    split <;> rfl
  have htag := projectedTag_projectedTag hnormal c.phase c.error
  rw [project, hchildren]
  exact congrArg (Element.mk · _) htag

end

/-! ### Hosts -/

variable (options : HostOptions) (answer : String → Except FetchError String)

/-- What is no host stays as it is, and a host is projected. -/
theorem projection_cases (host : Element) :
    (controller? options answer host = none ∧ projection options answer host = host) ∨
      ∃ template c, host.child? templateName = some template ∧
        controller? options answer host = some c ∧
          projection options answer host = project host c := by
  cases hchild : host.child? templateName with
  | none =>
    have hnone : controller? options answer host = none := by
      rw [controller?, mount, hchild]
      rfl
    exact .inl ⟨hnone, by rw [projection, hnone]⟩
  | some template =>
    obtain ⟨c, hc⟩ := (exists_mount_iff host options).mpr (by rw [hchild, Option.isSome_some])
    have hsome : controller? options answer host = some (loaded answer host c) := by
      rw [controller?, hc]
      rfl
    exact .inr ⟨template, _, rfl, hsome, by rw [projection, hsome]⟩

/-- What becomes of a host has its name. -/
theorem name_projection (host : Element) :
    (projection options answer host).tag.name = host.tag.name := by
  rcases projection_cases options answer host with ⟨-, heq⟩ | ⟨template, c, -, -, heq⟩
  · rw [heq]
  · rw [heq, project, name_projectedTag]

/-- A host and what becomes of it are mounted alike and declare the same source. -/
theorem mount_projection (host : Element) :
    mount (projection options answer host) options = mount host options ∧
      sourceOf (projection options answer host) = sourceOf host := by
  rcases projection_cases options answer host with ⟨-, heq⟩ | ⟨template, c, hchild, -, heq⟩
  · rw [heq]
    exact ⟨rfl, rfl⟩
  · rw [heq]
    exact ⟨mount_project hchild c, sourceOf_project host c⟩

/-- The same controller comes of what becomes of a host. -/
theorem controller?_projection (host : Element) :
    controller? options answer (projection options answer host) =
      controller? options answer host := by
  obtain ⟨hmount, hsource⟩ := mount_projection options answer host
  have hloaded : loaded answer (projection options answer host) = loaded answer host := by
    funext c
    rw [loaded, loaded, hsource]
  rw [controller?, controller?, hmount, hloaded]

/-- The same notices come of what becomes of a host. -/
theorem notices_renderHost_projection (host : Element) :
    (Id.run (renderHost options answer (projection options answer host))).notices =
      (Id.run (renderHost options answer host)).notices := by
  obtain ⟨hmount, hsource⟩ := mount_projection options answer host
  rw [renderHost, renderHost, hmount, hsource, name_projection]
  cases mount host options with
  | error e => rfl
  | ok c =>
    cases sourceOf host with
    | none => rfl
    | some source => rfl

/-- What becomes of a host stays as it is. -/
theorem projection_projection {host : Element} (h : host.tag.IsNormal) :
    projection options answer (projection options answer host) =
      projection options answer host := by
  have hagain := controller?_projection options answer host
  rcases projection_cases options answer host with ⟨hnone, heq⟩ | ⟨template, c, hchild, hc, heq⟩
  · rw [heq, heq]
  · rw [hc] at hagain
    rw [projection, hagain, heq]
    exact project_project h hchild c

/-! ### The page -/

/-- The elements of a tree that was read have normal tags. -/
theorem isNormal_of_mem_elements {source : String} {page : Fragment} (h : parse source = .ok page)
    {e : Element} (he : e ∈ Fragment.elements page) : e.tag.IsNormal :=
  Fragment.of_mem_elements (each_isSound_parse h) he

/-- A tree that was read and rendered is rendered as it is, with the same summary and the same
notices, if the fetcher answers by the locator only. And projecting what comes of any of its
elements with a template, loaded from the source that it declares, twice is projecting it once. -/
theorem renderTree_renderTree {m : Type → Type} [Monad m] [LawfulMonad m] {source : String}
    {page : Fragment} (hpage : parse source = .ok page) (name : String) :
    (∃ r, renderTree name options (fun locator => (pure (answer locator) : m _)) page = pure r ∧
        renderTree name options (fun locator => (pure (answer locator) : m _)) r.page = pure r) ∧
      ∀ host ∈ Fragment.elements page, ∀ c, mount host options = .ok c →
        project (project host (loaded answer host c)) (loaded answer host c) =
          project host (loaded answer host c) := by
  have hkeep := name_projection options answer
  refine ⟨⟨_, renderTree_pure options answer name page, ?_⟩, fun host hhost c hc => ?_⟩
  · have htopmost :
        Fragment.topmost name (Fragment.mapTopmost name (projection options answer) page) =
          (Fragment.topmost name page).map (projection options answer) :=
      Fragment.topmost_mapTopmost hkeep page
    have hmap : Fragment.mapTopmost name (projection options answer)
        (Fragment.mapTopmost name (projection options answer) page) =
          Fragment.mapTopmost name (projection options answer) page := by
      rw [Fragment.mapTopmost_mapTopmost hkeep]
      refine Fragment.mapTopmost_congr fun host hhost => ?_
      exact projection_projection options answer
        (isNormal_of_mem_elements hpage (Fragment.topmost_subset page hhost))
    rw [renderTree_pure]
    simp only [htopmost, hmap, List.filterMap_map, List.flatMap_map, Function.comp_def,
      controller?_projection, notices_renderHost_projection]
  · obtain ⟨template, htemplate⟩ :=
      Option.isSome_iff_exists.mp ((exists_mount_iff host options).mp ⟨c, hc⟩)
    exact project_project (isNormal_of_mem_elements hpage hhost) htemplate _

set_option maxRecDepth 4000 in
/-- A host with both indicators that shows its items and has a further host in them, an element
without a template, and a host whose items cannot be fetched. -/
theorem renderTree_renderTree_three :
    ∃ page r,
      parse ("<t loading data='[1]' error=old><template>x<t></t></template>y</t><t></t>" ++
        "<t src=u><template/></t>") = .ok page ∧
      Fragment.toHtml r.page =
        "<t data=\"[1]\"><template>x<t></t></template>x<t></t></t><t></t>" ++
          "<t src=\"u\" error=\"Failed to load u: HTTP 404 from u\"><template></template></t>" ∧
      r.summary = { hosts := 2, instances := 1, errors := 1 } ∧
      renderTree "t" {} (fun locator => (pure (.error (.status locator 404)) : Id _)) page =
        pure r ∧
      renderTree "t" {} (fun locator => (pure (.error (.status locator 404)) : Id _)) r.page =
        pure r := by
  have hpage : parse ("<t loading data='[1]' error=old><template>x<t></t></template>y</t><t></t>" ++
      "<t src=u><template/></t>") =
        .ok [
          .element ⟨"t", [⟨"loading", ""⟩, ⟨"data", "[1]"⟩, ⟨"error", "old"⟩]⟩ [
            .element ⟨"template", []⟩ [.text "x", .element ⟨"t", []⟩ []], .text "y"],
          .element ⟨"t", []⟩ [],
          .element ⟨"t", [⟨"src", "u"⟩]⟩ [.element ⟨"template", []⟩ []]] := by
    with_unfolding_all rfl
  obtain ⟨⟨r, hfirst, hsecond⟩, -⟩ :=
    renderTree_renderTree {} (fun locator => .error (.status locator 404)) (m := Id) hpage "t"
  refine ⟨_, r, hpage, ?_, ?_, hfirst, hsecond⟩
  · rw [← show Id.run (pure r) = r from rfl, ← hfirst]
    with_unfolding_all rfl
  · rw [← show Id.run (pure r) = r from rfl, ← hfirst]
    with_unfolding_all rfl

end BoundMarkup
