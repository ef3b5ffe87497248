import BoundMarkup.Binding.Host
import BoundMarkup.Proofs.Binding.Lifecycle
import Mathlib.Data.List.Induction

/-!
# Outcomes of calls

A call on a controller comes to one of four things: it is ignored, items are waited for, there are
no new items, or items are shown. What a call does to the controller and which events it sends is
read off its outcome, whichever call it was: a text that is configured, a completion and a load end
in the same two ways. An item list is shown as a whole or not at all, so a failure at any point (the
fetch, the text, its form) leaves what is displayed as it was, for every controller and however it
came about.

## Main definitions

* `Outcome`, `Controller.outcome`: what a call comes to;
* `Controller.settled`: a controller after an outcome;
* `Controller.DisplaysLike`: two controllers show the same.

## Main results

* `after_eq_settled`: what a call makes of a controller;
* `sends_eq`: which events a call sends;
* `displaysLike_afterAll`: calls of which none shows items leave what is displayed as it was;
* `displaysLike_after_of_not_rendered`: what a failure, and what is only waited for, leaves as it
  was, and when an error goes away.
-/

namespace BoundMarkup

open Json Markup

/-- What a call on a controller comes to. -/
inductive Outcome where
  /-- A stale completion makes no difference. -/
  | ignored
  /-- What a locator leads to is being fetched. -/
  | waiting (locator : String)
  /-- There are no new items, for this reason. -/
  | refused (e : LoadError)
  /-- The items are shown. -/
  | shown (items : List Value)

namespace Outcome

/-- The outcome of looking for items, with the reason if there are none. -/
def ofItems {ε : Type} (reason : ε → LoadError) : Except ε (List Value) → Outcome
  | .ok items => .shown items
  | .error e => .refused (reason e)

/-- The events that tell of an outcome. -/
def events : Outcome → List RenderEvent
  | .ignored => []
  | .waiting locator => [.loading locator]
  | .refused e => [.errored e.message]
  | .shown items => [.rendered items.length]

end Outcome

/-- How many tokens a call gives out. -/
def Call.tokens : Call → Nat
  | .complete _ => 0
  | _ => 1

/-- What a call tells before its outcome is known: a load tells that it waits. -/
def Call.announcement : Call → List RenderEvent
  | .load (.remote locator) _ => [.loading locator]
  | _ => []

namespace Controller

/-- What a call on a controller comes to. A completion counts if it has the controller's token; a
load comes to what the completion of its fetch comes to. -/
def outcome (c : Controller) : Call → Outcome
  | .configure (.inline json) => .ofItems .inline (decodeItems json)
  | .configure (.remote locator) => .waiting locator
  | .complete x =>
    if x.token = c.token then .ofItems (.remote x.locator) (itemsOf x) else .ignored
  | .load (.inline json) _ => .ofItems .inline (decodeItems json)
  | .load (.remote locator) fetch =>
    .ofItems (.remote locator) (itemsOf { token := c.token + 1, locator, result := fetch locator })
  | .setItems items => .shown items

/-- A controller after an outcome, apart from its token. -/
def settled (c : Controller) : Outcome → Controller
  | .ignored => c
  | .waiting _ => { c with phase := .loading, error := none }
  | .refused e => (c.fail e).controller
  | .shown items => (c.replaceItems items).controller

/-- The events that a call sends. -/
def sends (c : Controller) : Call → List RenderEvent
  | .configure source => (c.configure source).events
  | .complete completion => (c.complete completion).events
  | .load source fetch => (Id.run (c.load source fetch)).events
  | .setItems items => (c.setItems items).events

/-- Two controllers differ in phase, error and token at most. -/
def DisplaysLike (c d : Controller) : Prop :=
  d = { c with phase := d.phase, error := d.error, token := d.token }

variable {c d : Controller} {call : Call} {e : LoadError} {items : List Value}

/-! ### What a call does -/

/-- A text that is configured is rendered or refused. -/
theorem configure_inline (c : Controller) (json : String) :
    (c.configure (.inline json)).controller =
        { c.settled (.ofItems .inline (decodeItems json)) with token := c.token + 1 } ∧
      (c.configure (.inline json)).events = (Outcome.ofItems .inline (decodeItems json)).events := by
  rw [configure]
  cases decodeItems json with
  | ok items => exact ⟨rfl, rfl⟩
  | error e => exact ⟨rfl, rfl⟩

/-- A completion with the current token is rendered or refused. -/
theorem complete_of_token_eq {x : Completion} (h : x.token = c.token) :
    (c.complete x).controller = c.settled (.ofItems (.remote x.locator) (itemsOf x)) ∧
      (c.complete x).events = (Outcome.ofItems (.remote x.locator) (itemsOf x)).events := by
  rw [complete, if_pos h]
  cases itemsOf x with
  | ok items => exact ⟨rfl, rfl⟩
  | error e => exact ⟨rfl, rfl⟩

/-- A completion settles its outcome, also if it is stale. -/
theorem complete_eq_settled (c : Controller) (x : Completion) :
    (c.complete x).controller = c.settled (c.outcome (.complete x)) ∧
      (c.complete x).events = (c.outcome (.complete x)).events := by
  by_cases htoken : x.token = c.token
  · rw [outcome, if_pos htoken]
    exact complete_of_token_eq htoken
  · rw [outcome, if_neg htoken]
    exact Session.complete_of_token_ne htoken

/-- The completion of a load has the token that the load gave out, so it is never stale. -/
theorem load_remote_eq_settled (c : Controller) (locator : String) (fetch : Fetcher Id) :
    c.after (.load (.remote locator) fetch) =
        { c.settled (c.outcome (.load (.remote locator) fetch)) with token := c.token + 1 } ∧
      c.sends (.load (.remote locator) fetch) =
        .loading locator :: (c.outcome (.load (.remote locator) fetch)).events := by
  obtain ⟨hcontroller, hevents⟩ := complete_of_token_eq
    (c := (c.configure (.remote locator)).controller)
    (x := { token := c.token + 1, locator, result := fetch locator }) rfl
  rw [outcome]
  constructor
  · refine Eq.trans hcontroller ?_
    -- Both ways to settle set the phase and the error that the configuration has set.
    cases itemsOf { token := c.token + 1, locator, result := fetch locator } with
    | ok items => rfl
    | error e => rfl
  · exact congrArg (RenderEvent.loading locator :: ·) hevents

/-- What a call makes of a controller is read off its outcome. -/
theorem after_eq_settled (c : Controller) (call : Call) :
    c.after call = { c.settled (c.outcome call) with token := c.token + call.tokens } := by
  cases call with
  | configure source =>
    cases source with
    | inline json => exact (configure_inline c json).1
    | remote locator => rfl
  | complete x =>
    refine Eq.trans (complete_eq_settled c x).1 ?_
    -- A completion gives out no token, and no outcome changes the token that is there.
    cases c.outcome (.complete x) with
    | ignored => rfl
    | waiting locator => rfl
    | refused e => rfl
    | shown items => rfl
  | load source fetch =>
    cases source with
    | inline json =>
      rw [after, load_inline]
      exact (configure_inline c json).1
    | remote locator => exact (load_remote_eq_settled c locator fetch).1
  | setItems items => rfl

/-- The events of a call tell of its outcome. A load tells first that it waits. -/
theorem sends_eq (c : Controller) (call : Call) :
    c.sends call = call.announcement ++ (c.outcome call).events := by
  cases call with
  | configure source =>
    cases source with
    | inline json => exact (configure_inline c json).2
    | remote locator => rfl
  | complete x => exact (complete_eq_settled c x).2
  | load source fetch =>
    cases source with
    | inline json =>
      rw [sends, load_inline]
      exact (configure_inline c json).2
    | remote locator => exact (load_remote_eq_settled c locator fetch).2
  | setItems items => rfl

/-! ### The four outcomes -/

/-- After a refusal there is an error, with its reason. -/
theorem after_of_refused (h : c.outcome call = .refused e) :
    (c.after call).phase = .errored ∧ (c.after call).error = some e := by
  rw [after_eq_settled, h]
  exact ⟨rfl, rfl⟩

/-- After items were shown there is no error, whatever there was before. -/
theorem after_of_shown (h : c.outcome call = .shown items) :
    (c.after call).phase = .rendered ∧ (c.after call).error = none ∧
      (c.after call).items = items ∧
      (c.after call).instances = items.map (c.blueprint.instantiate · c.identityKey) := by
  rw [after_eq_settled, h]
  exact ⟨rfl, rfl, rfl, rfl⟩

/-- Only a completion is ever ignored, and this is what its result says. -/
theorem outcome_eq_ignored_iff {x : Completion} :
    c.outcome (.complete x) = .ignored ↔ (c.complete x).result = false := by
  rw [← Bool.not_eq_true, Session.complete_result, outcome]
  by_cases htoken : x.token = c.token
  · rw [if_pos htoken]
    cases itemsOf x with
    | ok items => simp [Outcome.ofItems, htoken]
    | error e => simp [Outcome.ofItems, htoken]
  · simp [htoken]

/-! ### What is displayed -/

namespace DisplaysLike

theorem refl (c : Controller) : c.DisplaysLike c := rfl

theorem trans {c d e : Controller} (hd : c.DisplaysLike d) (he : d.DisplaysLike e) :
    c.DisplaysLike e := by
  rw [DisplaysLike] at hd he ⊢
  rw [he, hd]

/-- The host shows the same children for both. -/
theorem children_project (h : c.DisplaysLike d) (host : Element) :
    (project host d).children = (project host c).children := by
  -- The children are made of the instances and of whether there ever were any.
  rw [h]
  rfl

end DisplaysLike

/-- A call that shows no items leaves what is displayed as it was. -/
theorem displaysLike_after (h : ∀ items, c.outcome call ≠ .shown items) :
    c.DisplaysLike (c.after call) := by
  rw [after_eq_settled]
  cases houtcome : c.outcome call with
  | ignored => rfl
  | waiting locator => rfl
  | refused e => rfl
  | shown items => exact absurd houtcome (h items)

/-- Calls of which none shows items leave what is displayed as it was. -/
theorem displaysLike_afterAll {calls : List Call}
    (h : ∀ earlier call, earlier ++ [call] <+: calls →
      ∀ items, (c.afterAll earlier).outcome call ≠ .shown items) :
    c.DisplaysLike (c.afterAll calls) := by
  -- The condition is about what came before a call, so the calls are taken from the last one.
  induction calls using List.reverseRecOn with
  | nil => exact .refl c
  | append_singleton calls call ih =>
    have hearlier : c.DisplaysLike (c.afterAll calls) :=
      ih fun earlier call' hcall => h earlier call' (hcall.trans (List.prefix_append _ _))
    have hlast : (c.afterAll calls).DisplaysLike ((c.afterAll calls).after call) :=
      displaysLike_after (h calls call List.prefix_rfl)
    rw [afterAll, List.foldl_append]
    exact hearlier.trans hlast

/-- Whatever was displayed stays as it was, with all of the controller but its phase, its error and
its token and with the children of every host, by each call after which the controller waits for
items or has an error, and by each completion that is not accepted. If a text or what was fetched is
refused, the phase says so and the error is the reason; and the next items that are shown, whichever
controller they are shown by, clear it. -/
theorem displaysLike_after_of_not_rendered (c : Controller) :
    (∀ call,
      ((c.after call).phase = .errored ∨ (c.after call).phase = .loading ∨
        ∃ x, call = .complete x ∧ (c.complete x).result = false) →
      c.DisplaysLike (c.after call) ∧
        ∀ host, (project host (c.after call)).children = (project host c).children) ∧
    (∀ call e, c.outcome call = .refused e →
      (c.after call).phase = .errored ∧ (c.after call).error = some e) ∧
    ∀ later call items, (c.afterAll later).outcome call = .shown items →
      ((c.afterAll later).after call).phase = .rendered ∧
        ((c.afterAll later).after call).error = none := by
  refine ⟨fun call h => ?_, fun call e h => after_of_refused h, fun later call items h => ?_⟩
  · have hdisplay : c.DisplaysLike (c.after call) := by
      apply displaysLike_after
      intro items hshown
      -- With items shown the phase would be another one, and no completion ignored.
      have hphase := (after_of_shown hshown).1
      rcases h with herrored | hloading | ⟨x, rfl, hresult⟩
      · rw [herrored] at hphase
        cases hphase
      · rw [hloading] at hphase
        cases hphase
      · rw [outcome_eq_ignored_iff.mpr hresult] at hshown
        cases hshown
    exact ⟨hdisplay, hdisplay.children_project⟩
  · obtain ⟨hphase, herror, -⟩ := after_of_shown h
    exact ⟨hphase, herror⟩

end Controller

end BoundMarkup
