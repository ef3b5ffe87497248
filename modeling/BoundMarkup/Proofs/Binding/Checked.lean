import BoundMarkup.Proofs.Binding.Outcome
import BoundMarkup.Proofs.Binding.Rerender

/-!
# Pages without issues

A check looks at every element of the name, and so at every host that is rendered: each has a
template, and each JSON text has items. What is left to go wrong in rendering is what a check does
not look at, the fetches.

Nothing is assumed of a fetcher. It may answer differently each time, so the errors cannot be a
function of the locators; they are counted where the answers come, by doing the same fetches in the
same order.

## Main definitions

* `isRefusal`: no items come of what was fetched;
* `Host.isRefused`: whether the fetch that a host declares is one of these.

## Main results

* `issues_of_checkPage`: a page without issues has none in its topmost elements;
* `counts_renderHost`: what a host without issues adds to the summary;
* `counts_mapM_renderHost`: what hosts without issues add to it;
* `renderPage_of_checkPage`: how a page without issues is rendered.
-/

namespace BoundMarkup

open Markup Host

/-! ### Issues -/

/-- A page without issues is read, and it has no issues in its topmost elements. -/
theorem issues_of_checkPage {source name : String} {options : HostOptions}
    (h : checkPage source name options = .ok []) :
    ∃ page, Markup.parse source = .ok page ∧
      ∀ host ∈ Fragment.topmost name page, hostIssues options host = [] := by
  rw [checkPage] at h
  cases hpage : Markup.parse source with
  | error e =>
    rw [hpage] at h
    cases h
  | ok page =>
    rw [hpage] at h
    refine ⟨page, rfl, fun host hhost => ?_⟩
    exact List.flatMap_eq_nil_iff.mp (Except.ok.inj h) host
      (Fragment.mem_named_of_mem_topmost hhost)

/-- An element without issues is mounted as an idle controller, and its JSON text has items. -/
theorem exists_mount_of_issues {options : HostOptions} {host : Element}
    (h : hostIssues options host = []) :
    ∃ c, mount host options = .ok c ∧ c.phase = .idle ∧
      ∀ json, sourceOf host = some (.inline json) → ∃ items, decodeItems json = .ok items := by
  rw [hostIssues, mount] at h
  rw [mount]
  cases hchild : host.child? templateName with
  | none =>
    rw [hchild] at h
    cases h
  | some template =>
    rw [hchild] at h
    refine ⟨_, rfl, rfl, fun json hsource => ?_⟩
    -- The issues of the blueprint stand in front of those of the text, and there are neither.
    have hdata : dataIssues host = [] := (List.append_eq_nil_iff.mp h).2
    rw [dataIssues, hsource] at hdata
    cases hitems : decodeItems json with
    | ok items => exact ⟨items, rfl⟩
    | error e =>
      simp only [hitems] at hdata
      cases hdata

/-! ### Fetches -/

/-- No items come of what was fetched: the fetch has failed, or the text has no items. -/
def isRefusal : Except FetchError String → Bool
  | .error _ => true
  | .ok body =>
    match decodeItems body with
    | .ok _ => false
    | .error _ => true

/-- Does the fetch that a host declares, if it declares one, and says whether it is refused. -/
def Host.isRefused {m : Type → Type} [Monad m] (fetch : Fetcher m) (host : Element) : m Bool :=
  match sourceOf host with
  | some (.remote locator) => isRefusal <$> fetch locator
  | _ => pure false

/-- A load from a locator ends with an error if and only if what was fetched is refused. -/
theorem phase_load_remote (c : Controller) (locator : String) (result : Except FetchError String) :
    (Id.run (c.load (.remote locator) fun _ => pure result)).controller.phase = .errored ↔
      isRefusal result = true := by
  show (c.after (.load (.remote locator) fun _ => result)).phase = .errored ↔ _
  rw [Controller.after_eq_settled, Controller.outcome, Controller.itemsOf]
  cases result with
  | error e => exact iff_of_true rfl rfl
  | ok body =>
    rw [isRefusal]
    dsimp only
    cases decodeItems body with
    | ok items =>
      refine iff_of_false ?_ Bool.false_ne_true
      intro h
      cases h
    | error e => exact iff_of_true rfl rfl

/-- A text with items is rendered by a load, whatever the fetcher is. -/
theorem load_inline_of_ok {m : Type → Type} [Monad m] {json : String} {items : List Json.Value}
    (h : decodeItems json = .ok items) (c : Controller) (fetch : Fetcher m) :
    ∃ t, c.load (.inline json) fetch = pure t ∧ t.controller.phase = .rendered := by
  refine ⟨_, Controller.load_inline c json fetch, ?_⟩
  have hshown : c.outcome (.configure (.inline json)) = .shown items := by
    rw [Controller.outcome, h]
    rfl
  exact (Controller.after_of_shown hshown).1

/-! ### Summaries -/

/-- The hosts that were mounted, and how many of them have no new items. -/
def RenderSummary.counts (s : RenderSummary) : Nat × Nat := (s.hosts, s.errors)

section

variable {m : Type → Type} [Monad m] [LawfulMonad m] {options : HostOptions}

/-- A host without issues counts as mounted, and as an error exactly if its fetch is refused. -/
theorem counts_renderHost {host : Element} (h : hostIssues options host = [])
    (fetch : Fetcher m) :
    (fun r => r.summary.counts) <$> renderHost options fetch host =
      (fun refused => (1, if refused then 1 else 0)) <$> isRefused fetch host := by
  obtain ⟨c, hmount, hidle, hdata⟩ := exists_mount_of_issues h
  rw [renderHost, isRefused, hmount]
  cases hsource : sourceOf host with
  | none =>
    -- Nothing is loaded, so the controller is still idle.
    simp [RenderSummary.ofController, RenderSummary.counts, hidle]
  | some source =>
    cases source with
    | inline json =>
      obtain ⟨items, hitems⟩ := hdata json hsource
      obtain ⟨t, hload, hphase⟩ := load_inline_of_ok hitems c fetch
      simp [hload, RenderSummary.ofController, RenderSummary.counts, hphase]
    | remote locator =>
      have hphase := phase_load_remote c locator
      dsimp only
      -- The load fetches first, so that both sides begin with the same fetch.
      rw [Controller.load_remote]
      simp only [map_bind, bind_map_left, map_pure, Functor.map_map]
      rw [map_eq_pure_bind]
      refine bind_congr fun result => ?_
      simp [RenderSummary.ofController, RenderSummary.counts, hphase]

/-- Where a host without issues matters by its counts alone, only its fetch is left of it. -/
theorem renderHost_bind {α : Type} {host : Element} (h : hostIssues options host = [])
    (fetch : Fetcher m) (k : Nat × Nat → m α) :
    (renderHost options fetch host >>= fun r => k r.summary.counts) =
      isRefused fetch host >>= fun refused => k (1, if refused then 1 else 0) :=
  calc
    _ = ((fun r => r.summary.counts) <$> renderHost options fetch host) >>= k :=
      (bind_map_left _ _ _).symm
    _ = ((fun refused => (1, if refused then 1 else 0)) <$> isRefused fetch host) >>= k := by
      rw [counts_renderHost h]
    _ = _ := bind_map_left _ _ _

/-- Hosts without issues count as mounted, and their refused fetches as errors. -/
theorem counts_mapM_renderHost {hosts : List Element}
    (h : ∀ host ∈ hosts, hostIssues options host = []) (fetch : Fetcher m) (s : RenderSummary) :
    (fun rs => ((rs.map (·.summary)).foldl RenderSummary.add s).counts) <$>
        hosts.mapM (renderHost options fetch) =
      (fun refused => (s.hosts + hosts.length, s.errors + refused.count true)) <$>
        hosts.mapM (isRefused fetch) := by
  induction hosts generalizing s with
  | nil => simp [RenderSummary.counts]
  | cons host hosts ih =>
    have hhosts : ∀ other ∈ hosts, hostIssues options other = [] :=
      fun other hother => h other (List.mem_cons_of_mem host hother)
    -- The hosts after the first one start from its counts, and from nothing else of it.
    have hfirst := renderHost_bind (h host List.mem_cons_self) fetch fun counts =>
      (fun refused =>
          (s.hosts + counts.1 + hosts.length, s.errors + counts.2 + refused.count true)) <$>
        hosts.mapM (isRefused fetch)
    refine Eq.trans ?_ (hfirst.trans ?_)
    · simp only [List.mapM_cons, map_bind, map_pure, List.map_cons, List.foldl_cons]
      refine bind_congr fun r => ?_
      rw [← map_eq_pure_bind, ih hhosts (s.add r.summary)]
      rfl
    · simp only [List.mapM_cons, map_bind, map_pure]
      refine bind_congr fun refused => ?_
      rw [← map_eq_pure_bind]
      refine map_congr fun others => ?_
      simp only [List.count_cons, List.length_cons]
      cases refused <;> simp <;> omega

/-- A page without issues is rendered: every topmost element of the name is mounted, a JSON text
is rendered from, and the hosts without new items are those whose fetch is refused. -/
theorem renderPage_of_checkPage {source name : String} (h : checkPage source name options = .ok [])
    (fetch : Fetcher m) :
    ∃ page, Markup.parse source = .ok page ∧
      (∀ host ∈ Fragment.topmost name page, ∃ c, mount host options = .ok c ∧
        ∀ json, sourceOf host = some (.inline json) →
          ∃ t, c.load (.inline json) fetch = pure t ∧ t.controller.phase = .rendered) ∧
      (fun r => r.outcome.map fun o => (o.2.hosts, o.2.errors)) <$>
          renderPage source name options fetch =
        (fun refused => .ok ((Fragment.topmost name page).length, refused.count true)) <$>
          (Fragment.topmost name page).mapM (isRefused fetch) := by
  obtain ⟨page, hpage, hissues⟩ := issues_of_checkPage h
  refine ⟨page, hpage, fun host hhost => ?_, ?_⟩
  · obtain ⟨c, hmount, -, hdata⟩ := exists_mount_of_issues (hissues host hhost)
    refine ⟨c, hmount, fun json hsource => ?_⟩
    obtain ⟨items, hitems⟩ := hdata json hsource
    exact load_inline_of_ok hitems c fetch
  · have hcounts := counts_mapM_renderHost hissues fetch {}
    simp only [Nat.zero_add] at hcounts
    rw [renderPage, hpage]
    simp only [renderTree, map_bind, map_pure, bind_assoc, pure_bind]
    calc
      _ = (fun counts => .ok counts) <$> (fun rs =>
            ((rs.map (·.summary)).foldl RenderSummary.add {}).counts) <$>
              (Fragment.topmost name page).mapM (renderHost options fetch) := by
        rw [Functor.map_map]
        exact (map_eq_pure_bind _ _).symm
      _ = _ := by
        rw [hcounts, Functor.map_map]

end

/-- A fetcher that has an empty list once, and fails from then on. -/
def fetchOnce : Fetcher (StateM Nat) := fun locator count =>
  (if count = 0 then .ok "[]" else .error (.status locator 404), count + 1)

/-- A page with a text and twice the same locator, which a fetcher answers in two ways. -/
theorem renderPage_of_checkPage_fetchOnce :
    let source := "<p><t data='[1]'><template>x<t><template/></t></template></t></p>" ++
      "<t src=u><template/></t><t src=u><template/></t>"
    checkPage source "t" {} = .ok [] ∧
      ((fun r => r.outcome.map fun o => (o.2.hosts, o.2.errors)) <$>
        renderPage source "t" {} fetchOnce).run 0 = (.ok (3, 1), 2) := by
  intro source
  have hcheck : checkPage source "t" {} = .ok [] := by decide +kernel
  refine ⟨hcheck, ?_⟩
  obtain ⟨page, hpage, -, hcounts⟩ := renderPage_of_checkPage hcheck fetchOnce
  -- The page itself does not matter, only its topmost hosts and what is fetched for them.
  have hfetches : (Markup.parse source).map (fun page =>
      ((Fragment.topmost "t" page).length,
        Id.run (((Fragment.topmost "t" page).mapM (isRefused fetchOnce)).run 0))) =
      .ok (3, [false, false, true], 2) := by decide +kernel
  rw [hpage] at hfetches
  obtain ⟨hlength, hrefused⟩ := Prod.mk.inj (Except.ok.inj hfetches)
  rw [hcounts, hlength, StateT.run_map]
  exact congrArg (fun r : List Bool × Nat => (Except.ok (3, r.1.count true), r.2)) hrefused

end BoundMarkup
