import BoundMarkup.Binding.Page
import BoundMarkup.Proofs.Binding.Lifecycle

/-!
# Hosts are rendered one by one

A page is rendered by collecting its hosts, rendering them in order, and putting the results in
their places on a second walk. Both walks meet the same elements, so each host is replaced by what
becomes of it alone: with a fetcher that answers by the locator only, no host has anything to do
with another.

## Main definitions

* `Fragment.mapTopmost`: the topmost elements of a name replaced, each by its own image;
* `Host.controller?`: the controller of a host, after it was loaded;
* `Host.projection`: what becomes of a host.

## Main results

* `Fragment.replaceTopmost_map`: replacing what was collected is replacing each by its image;
* `renderHost_pure`: what becomes of one host;
* `outcome_renderPage`: what becomes of a page.
-/

namespace BoundMarkup

open Markup

/-! ### Collecting and replacing -/

namespace Markup

mutual

/-- Replaces the topmost elements of one node. -/
def Node.mapTopmost (name : String) (h : Element → Element) : Node → Node
  | .element tag children =>
    if tag.name = name then (h { tag, children }).toNode
    else .element tag (Fragment.mapTopmost name h children)
  | .text s => .text s
  | .comment s => .comment s
  | .doctype s => .doctype s

/-- Replaces each element of that name which has no ancestor of that name by its image. All other
nodes stay as they are and where they are. -/
def Fragment.mapTopmost (name : String) (h : Element → Element) : List Node → List Node
  | [] => []
  | n :: rest => n.mapTopmost name h :: Fragment.mapTopmost name h rest

end

mutual

/-- Replacing the topmost elements of a node by the images of what was collected is replacing each
by its image. -/
theorem Node.replaceTopmost_map (name : String) (h : Element → Element) :
    ∀ (n : Node) (news : List Element),
      n.replaceTopmost name ((n.topmost name).map h ++ news) = (n.mapTopmost name h, news)
  | .element tag children, news => by
    by_cases hname : tag.name = name
    · -- The element is the first that was collected, and the first that is put in place.
      simp [Node.topmost, Node.replaceTopmost, Node.mapTopmost, hname]
    · have hchildren := Fragment.replaceTopmost_map name h children news
      simp [Node.topmost, Node.replaceTopmost, Node.mapTopmost, hname, hchildren]
  | .text s, news => by simp [Node.topmost, Node.replaceTopmost, Node.mapTopmost]
  | .comment s, news => by simp [Node.topmost, Node.replaceTopmost, Node.mapTopmost]
  | .doctype s, news => by simp [Node.topmost, Node.replaceTopmost, Node.mapTopmost]

/-- Replacing the topmost elements of a fragment by the images of what was collected is replacing
each by its image; what was not collected here is left for what comes behind. -/
theorem Fragment.replaceTopmost_map (name : String) (h : Element → Element) :
    ∀ (f : List Node) (news : List Element),
      Fragment.replaceTopmost name ((Fragment.topmost name f).map h ++ news) f =
        (Fragment.mapTopmost name h f, news)
  | [], news => by rw [Fragment.topmost, Fragment.replaceTopmost, Fragment.mapTopmost]; rfl
  | n :: rest, news => by
    rw [Fragment.topmost, Fragment.replaceTopmost, Fragment.mapTopmost, List.map_append,
      List.append_assoc, Node.replaceTopmost_map name h n]
    simp only [Fragment.replaceTopmost_map name h rest news]

end

end Markup

/-! ### One host -/

namespace Host

/-- A controller after it was loaded from the source that a host declares, if it declares one. -/
def loaded (answer : String → Except FetchError String) (host : Element) (c : Controller) :
    Controller :=
  match sourceOf host with
  | none => c
  | some source => (Id.run (c.load source answer)).controller

/-- The controller of a host after it was loaded. An element that is no host has none. -/
def controller? (options : HostOptions) (answer : String → Except FetchError String)
    (host : Element) : Option Controller :=
  (mount host options).toOption.map (loaded answer host)

/-- What becomes of a host: it shows its controller. An element that is no host stays as it is. -/
def projection (options : HostOptions) (answer : String → Except FetchError String)
    (host : Element) : Element :=
  match controller? options answer host with
  | none => host
  | some c => project host c

end Host

open Host

/-- An element is a host exactly if it has a template. -/
theorem exists_mount_iff (host : Element) (options : HostOptions) :
    (∃ c, mount host options = .ok c) ↔ (host.child? templateName).isSome = true := by
  rw [mount]
  cases host.child? templateName with
  | none => simp
  | some template => simp

/-- The controller of a host is a new one, with the content of the template for its blueprint. -/
theorem exists_template_of_mount {host : Element} {options : HostOptions} {c : Controller}
    (h : mount host options = .ok c) :
    ∃ template, host.child? templateName = some template ∧
      c = .fresh { fragment := template.children } (identityKeyOf host options) := by
  rw [mount] at h
  cases hchild : host.child? templateName with
  | none =>
    rw [hchild] at h
    cases h
  | some template =>
    rw [hchild] at h
    exact ⟨template, rfl, (Except.ok.inj h).symm⟩

section

variable {m : Type → Type} [Monad m] [LawfulMonad m]
  (answer : String → Except FetchError String)

/-- A fetcher that answers by the locator only loads the same in every monad. -/
theorem load_pure (c : Controller) (source : Source) :
    c.load source (fun locator => (pure (answer locator) : m _)) =
      pure (Id.run (c.load source answer)) := by
  cases source with
  | inline json =>
    have hrun := Controller.load_inline (m := Id) c json answer
    rw [Controller.load_inline, hrun]
    rfl
  | remote locator =>
    rw [Controller.load_remote, map_pure]
    rfl

/-- With such a fetcher a host is rendered the same in every monad. -/
theorem renderHost_pure (options : HostOptions) (host : Element) :
    renderHost options (fun locator => (pure (answer locator) : m _)) host =
      pure (Id.run (renderHost options answer host)) := by
  rw [renderHost, renderHost]
  cases mount host options with
  | error e => rfl
  | ok c =>
    cases sourceOf host with
    | none => rfl
    | some source =>
      simp only [load_pure, pure_bind]
      rfl

end

variable (options : HostOptions) (answer : String → Except FetchError String)

/-- What takes the place of a host is what becomes of it. -/
theorem element_renderHost (host : Element) :
    (Id.run (renderHost options answer host)).element = projection options answer host := by
  rw [renderHost, projection, controller?]
  cases mount host options with
  | error e => rfl
  | ok c =>
    simp only [Except.toOption, Option.map_some, loaded]
    cases sourceOf host with
    | none => rfl
    | some source => rfl

/-- A host adds the counts of its controller to the summary, and what is no host adds nothing. -/
theorem summary_renderHost (host : Element) :
    (Id.run (renderHost options answer host)).summary =
      ((controller? options answer host).map RenderSummary.ofController).getD {} := by
  rw [renderHost, controller?]
  cases mount host options with
  | error e => rfl
  | ok c =>
    simp only [Except.toOption, Option.map_some, Option.getD_some, loaded]
    cases sourceOf host with
    | none => rfl
    | some source => rfl

/-! ### The page -/

/-- The summary of several controllers. -/
def RenderSummary.ofControllers (cs : List Controller) : RenderSummary where
  hosts := cs.length
  instances := (cs.flatMap (·.instances)).length
  errors := cs.countP (·.phase = .errored)

/-- Adding up the summaries of hosts counts those that have a controller. -/
private theorem foldl_add_summary (hosts : List Element) (a : RenderSummary) :
    (hosts.map fun host => (Id.run (renderHost options answer host)).summary).foldl
        RenderSummary.add a =
      a.add (RenderSummary.ofControllers (hosts.filterMap (controller? options answer))) := by
  induction hosts generalizing a with
  | nil => rfl
  | cons host hosts ih =>
    rw [List.map_cons, List.foldl_cons, ih, summary_renderHost]
    cases hc : controller? options answer host with
    | none =>
      rw [List.filterMap_cons_none hc]
      rfl
    | some c =>
      rw [List.filterMap_cons_some hc]
      by_cases herror : c.phase = .errored <;>
        simp [RenderSummary.add, RenderSummary.ofController, RenderSummary.ofControllers,
          herror, Nat.add_assoc, Nat.add_comm 1]

/-- The summary of a page is that of the controllers of its hosts. -/
theorem foldl_add_eq_ofControllers (hosts : List Element) :
    (hosts.map fun host => (Id.run (renderHost options answer host)).summary).foldl
        RenderSummary.add {} =
      RenderSummary.ofControllers (hosts.filterMap (controller? options answer)) := by
  rw [foldl_add_summary]
  simp [RenderSummary.add]

/-- With a fetcher that answers by the locator only, a tree is rendered by replacing each of its
hosts by what becomes of it. -/
theorem renderTree_pure {m : Type → Type} [Monad m] [LawfulMonad m] (name : String)
    (page : Fragment) :
    renderTree name options (fun locator => (pure (answer locator) : m _)) page =
      pure {
        page := Fragment.mapTopmost name (projection options answer) page
        summary := RenderSummary.ofControllers
          ((Fragment.topmost name page).filterMap (controller? options answer))
        notices := (Fragment.topmost name page).flatMap fun host =>
          (Id.run (renderHost options answer host)).notices } := by
  have hrendered : (Fragment.topmost name page).mapM
      (renderHost options fun locator => (pure (answer locator) : m _)) =
        pure ((Fragment.topmost name page).map fun host =>
          Id.run (renderHost options answer host)) := by
    rw [← List.mapM_pure]
    exact congrArg (List.mapM · _) (funext fun host => renderHost_pure answer options host)
  have helements : ((Fragment.topmost name page).map fun host =>
      (Id.run (renderHost options answer host)).element) =
        (Fragment.topmost name page).map (projection options answer) :=
    List.map_congr_left fun host _ => element_renderHost options answer host
  have hpage := Fragment.replaceTopmost_map name (projection options answer) page []
  rw [List.append_nil] at hpage
  rw [renderTree, hrendered, pure_bind]
  simp only [List.map_map, Function.comp_def, List.flatMap_map, helements, hpage,
    foldl_add_eq_ofControllers]

/-- With a fetcher that answers by the locator only, the text of a page is rendered by replacing
each topmost element of the name by what becomes of it alone: it stays as it is if it has no
template, and otherwise it shows the controller that was mounted from it and loaded from the source
that it declares. All else stays as it is and where it is. The summary counts the controllers, their
instances, and those that ended with an error. -/
theorem outcome_renderPage {m : Type → Type} [Monad m] [LawfulMonad m] {source : String}
    {page : Fragment} (hpage : parse source = .ok page) (name : String) :
    PageResult.outcome <$>
        renderPage source name options (fun locator => (pure (answer locator) : m _)) =
      pure (.ok
        (Fragment.toHtml (Fragment.mapTopmost name (projection options answer) page),
          { hosts := ((Fragment.topmost name page).filterMap (controller? options answer)).length
            instances := (((Fragment.topmost name page).filterMap
              (controller? options answer)).flatMap (·.instances)).length
            errors := ((Fragment.topmost name page).filterMap
              (controller? options answer)).countP (·.phase = .errored) })) ∧
      (∀ host, host.child? templateName = none → projection options answer host = host) ∧
      ∀ host template, host.child? templateName = some template →
        ∃ c, mount host options = .ok c ∧
          controller? options answer host = some (loaded answer host c) ∧
          projection options answer host = project host (loaded answer host c) := by
  refine ⟨?_, fun host hnone => ?_, fun host template hsome => ?_⟩
  · have htree := renderTree_pure options answer (m := m) name page
    rw [renderPage, hpage]
    simp only [htree, pure_bind, map_pure]
    rfl
  · rw [projection, controller?, mount, hnone]
    rfl
  · have hmount : ∃ c, mount host options = .ok c :=
      (exists_mount_iff host options).mpr (by rw [hsome, Option.isSome_some])
    obtain ⟨c, hc⟩ := hmount
    have hcontroller : controller? options answer host = some (loaded answer host c) := by
      rw [controller?, hc]
      rfl
    refine ⟨c, hc, hcontroller, ?_⟩
    rw [projection, hcontroller]

set_option maxRecDepth 4000 in
/-- An element without a template, a host inside another element whose blueprint holds an element
of the same name, and a host whose items cannot be fetched. -/
theorem outcome_renderPage_three :
    parse "<t></t><p><t data='[1]'><template>x<t></t></template></t></p><t src=u><template/></t>" =
      .ok [
        .element ⟨"t", []⟩ [],
        .element ⟨"p", []⟩ [
          .element ⟨"t", [⟨"data", "[1]"⟩]⟩ [
            .element ⟨"template", []⟩ [.text "x", .element ⟨"t", []⟩ []]]],
        .element ⟨"t", [⟨"src", "u"⟩]⟩ [.element ⟨"template", []⟩ []]] ∧
    (Id.run (renderPage
        "<t></t><p><t data='[1]'><template>x<t></t></template></t></p><t src=u><template/></t>" "t" {}
        fun locator => .error (.status locator 404))).outcome =
      .ok
        ("<t></t><p><t data=\"[1]\"><template>x<t></t></template>x<t></t></t></p>" ++
          "<t src=\"u\" error=\"Failed to load u: HTTP 404 from u\"><template></template></t>",
          { hosts := 2, instances := 1, errors := 1 }) := by
  have hpage : parse
      "<t></t><p><t data='[1]'><template>x<t></t></template></t></p><t src=u><template/></t>" =
        .ok [
          .element ⟨"t", []⟩ [],
          .element ⟨"p", []⟩ [
            .element ⟨"t", [⟨"data", "[1]"⟩]⟩ [
              .element ⟨"template", []⟩ [.text "x", .element ⟨"t", []⟩ []]]],
          .element ⟨"t", [⟨"src", "u"⟩]⟩ [.element ⟨"template", []⟩ []]] := by
    with_unfolding_all rfl
  refine ⟨hpage, ?_⟩
  have houtcome := (outcome_renderPage {} (fun locator => .error (.status locator 404)) (m := Id)
    hpage "t").1
  refine (congrArg Id.run houtcome).trans ?_
  with_unfolding_all rfl

end BoundMarkup
