import BoundMarkup.Proofs.Binding.Session

/-!
# The lifecycle of a controller

Whatever calls are made on a controller, with whatever completions, its fields go together: the
instances are those of the items, there is an error exactly in the phase of errors, and the phase is
idle only as long as nothing has happened at all.

What the instances have to do with the items depends on neither phase nor token, so it is kept
apart: every call that has an effect needs no more than that of the controller before, and it sets
the rest itself.

## Main definitions

* `Call`: a call on a controller, and `Controller.afterAll`: the controller after several of them;
* `Controller.ShowsItems`: the instances are those of the items, for a given blueprint and key;
* `Controller.IsConsistent`: all fields go together.

## Main results

* `after_load`: to load is to configure and, if something was to be fetched, to complete;
* `isConsistent_after`: every call keeps a controller consistent;
* `after_eq_self_of_idle`: a call after which the phase is idle has changed nothing;
* `isConsistent_afterAll`: any calls keep a new controller consistent.
-/

namespace BoundMarkup

open Json

/-- A call on a controller. -/
inductive Call where
  /-- A source is configured. -/
  | configure (source : Source)
  /-- A completion is delivered, whether the controller asked for it or not. -/
  | complete (completion : Completion)
  /-- A source is configured and fetched from at once. -/
  | load (source : Source) (fetch : Fetcher Id)
  /-- Items are set. -/
  | setItems (items : List Value)

namespace Controller

/-- A controller on which no call was made. -/
def fresh (blueprint : Blueprint) (identityKey : String) : Controller := { blueprint, identityKey }

/-- The controller after a call. -/
def after (c : Controller) : Call → Controller
  | .configure source => (c.configure source).controller
  | .complete completion => (c.complete completion).controller
  | .load source fetch => (Id.run (c.load source fetch)).controller
  | .setItems items => (c.setItems items).controller

/-- The controller after several calls, the first of them first. -/
def afterAll (c : Controller) (calls : List Call) : Controller := calls.foldl after c

/-- The instances of a controller are those of its items, for the given blueprint and key, and there
are none as long as nothing was rendered. -/
structure ShowsItems (blueprint : Blueprint) (identityKey : String) (c : Controller) : Prop where
  /-- The blueprint is the given one. -/
  blueprint_eq : c.blueprint = blueprint
  /-- The key is the given one. -/
  identityKey_eq : c.identityKey = identityKey
  /-- Once items were rendered, there is one instance for each item, in order. -/
  instances_eq : c.hasRendered = true →
    c.instances = c.items.map (blueprint.instantiate · identityKey)
  /-- Before, there are neither items nor instances. -/
  eq_nil : c.hasRendered = false → c.items = [] ∧ c.instances = []

/-- The fields of a controller go together. -/
structure IsConsistent (blueprint : Blueprint) (identityKey : String) (c : Controller) : Prop
    extends ShowsItems blueprint identityKey c where
  /-- There is an error exactly if the latest source gave no items. -/
  error_iff : c.error.isSome = true ↔ c.phase = .errored
  /-- If the phase says that items were rendered, they were. -/
  hasRendered_of_rendered : c.phase = .rendered → c.hasRendered = true
  /-- If the phase says that nothing was configured, no field has changed. -/
  eq_fresh_of_idle : c.phase = .idle → c = fresh blueprint identityKey

variable {blueprint : Blueprint} {identityKey : String} {c : Controller}

/-! ### Loading -/

/-- To load from a text is to configure it; nothing is fetched. -/
theorem load_inline {m : Type → Type} [Monad m] (c : Controller) (json : String)
    (fetch : Fetcher m) :
    c.load (.inline json) fetch = pure ((c.configure (.inline json)).withResult ()) := by
  rw [load, (Session.configure_inline c json).1]

/-- To load from a locator is to fetch what it leads to and go on with the result, whichever way it
is fetched. -/
theorem load_remote {m : Type → Type} [Monad m] [LawfulMonad m] (c : Controller) (locator : String)
    (fetch : Fetcher m) :
    c.load (.remote locator) fetch =
      (fun result => Id.run (c.load (.remote locator) fun _ => pure result)) <$> fetch locator := by
  rw [map_eq_pure_bind, load]
  simp only [configure, Acquisition.run, bind_assoc, pure_bind]
  rfl

/-- To load is to configure and, if something was to be fetched, to deliver its completion. -/
theorem after_load (c : Controller) (source : Source) (fetch : Fetcher Id) :
    c.after (.load source fetch) = c.after (.configure source) ∨
      ∃ completion,
        c.after (.load source fetch) = (c.after (.configure source)).after (.complete completion) := by
  cases source with
  | inline json =>
    refine .inl ?_
    change (Id.run (c.load (.inline json) fetch)).controller = _
    rw [load_inline]
    rfl
  | remote locator => exact .inr ⟨_, rfl⟩

/-! ### What every call sets -/

/-- A new controller shows no items. -/
theorem showsItems_fresh (blueprint : Blueprint) (identityKey : String) :
    (fresh blueprint identityKey).ShowsItems blueprint identityKey where
  blueprint_eq := rfl
  identityKey_eq := rfl
  instances_eq := nofun
  eq_nil := fun _ => ⟨rfl, rfl⟩

namespace ShowsItems

/-- The token has nothing to do with what is shown. -/
theorem superseded (h : c.ShowsItems blueprint identityKey) :
    c.superseded.ShowsItems blueprint identityKey :=
  ⟨h.blueprint_eq, h.identityKey_eq, h.instances_eq, h.eq_nil⟩

/-- A controller that shows other items is consistent. -/
theorem isConsistent_replaceItems (h : c.ShowsItems blueprint identityKey) (items : List Value) :
    (c.replaceItems items).controller.IsConsistent blueprint identityKey where
  blueprint_eq := h.blueprint_eq
  identityKey_eq := h.identityKey_eq
  instances_eq := by
    intro _
    -- The instances are made with the controller's own blueprint and key.
    rw [replaceItems, h.blueprint_eq, h.identityKey_eq]
  eq_nil := nofun
  error_iff := by simp [replaceItems]
  hasRendered_of_rendered := fun _ => rfl
  eq_fresh_of_idle := nofun

/-- A controller that has failed is consistent; what it shows is what it showed before. -/
theorem isConsistent_fail (h : c.ShowsItems blueprint identityKey) (e : LoadError) :
    (c.fail e).controller.IsConsistent blueprint identityKey where
  blueprint_eq := h.blueprint_eq
  identityKey_eq := h.identityKey_eq
  instances_eq := h.instances_eq
  eq_nil := h.eq_nil
  error_iff := by simp [fail]
  hasRendered_of_rendered := nofun
  eq_fresh_of_idle := nofun

/-- A controller that waits for items is consistent; what it shows is what it showed before. -/
theorem isConsistent_loading (h : c.ShowsItems blueprint identityKey) :
    IsConsistent blueprint identityKey { c with phase := .loading, error := none } where
  blueprint_eq := h.blueprint_eq
  identityKey_eq := h.identityKey_eq
  instances_eq := h.instances_eq
  eq_nil := h.eq_nil
  error_iff := by simp
  hasRendered_of_rendered := nofun
  eq_fresh_of_idle := nofun

/-- After a configuration a controller is consistent, whatever the source. -/
theorem isConsistent_configure (h : c.ShowsItems blueprint identityKey) (source : Source) :
    (c.configure source).controller.IsConsistent blueprint identityKey := by
  cases source with
  | inline json =>
    rw [configure]
    split
    · exact h.superseded.isConsistent_replaceItems _
    · exact h.superseded.isConsistent_fail _
  | remote locator => exact h.superseded.isConsistent_loading

end ShowsItems

/-! ### Every call -/

/-- A new controller is consistent. -/
theorem isConsistent_fresh (blueprint : Blueprint) (identityKey : String) :
    (fresh blueprint identityKey).IsConsistent blueprint identityKey where
  toShowsItems := showsItems_fresh blueprint identityKey
  error_iff := by simp [fresh]
  hasRendered_of_rendered := nofun
  eq_fresh_of_idle := fun _ => rfl

/-- A completion keeps a controller consistent, also if it is stale or made up. -/
theorem isConsistent_complete (h : c.IsConsistent blueprint identityKey) (x : Completion) :
    (c.complete x).controller.IsConsistent blueprint identityKey := by
  by_cases htoken : x.token = c.token
  · rw [complete, if_pos htoken]
    split
    · exact h.toShowsItems.isConsistent_replaceItems _
    · exact h.toShowsItems.isConsistent_fail _
  · rw [(Session.complete_of_token_ne htoken).1]
    exact h

/-- Every call keeps a controller consistent. -/
theorem isConsistent_after (h : c.IsConsistent blueprint identityKey) (call : Call) :
    (c.after call).IsConsistent blueprint identityKey := by
  cases call with
  | configure source => exact h.toShowsItems.isConsistent_configure source
  | complete x => exact isConsistent_complete h x
  | load source fetch =>
    have hconfigured := h.toShowsItems.isConsistent_configure source
    rcases after_load c source fetch with heq | ⟨x, heq⟩
    · rw [heq]
      exact hconfigured
    · rw [heq]
      exact isConsistent_complete hconfigured x
  | setItems items => exact h.toShowsItems.superseded.isConsistent_replaceItems items

/-! ### The idle phase -/

/-- A configured controller is not idle. -/
theorem phase_configure_ne_idle (c : Controller) (source : Source) :
    (c.configure source).controller.phase ≠ .idle := by
  intro h
  cases source with
  | inline json =>
    rw [configure] at h
    split at h
    · cases h
    · cases h
  | remote locator => cases h

/-- A completion after which a controller is idle was not accepted, so it has changed nothing. -/
theorem complete_eq_self_of_idle {x : Completion}
    (h : (c.complete x).controller.phase = .idle) : (c.complete x).controller = c := by
  by_cases htoken : x.token = c.token
  · rw [complete, if_pos htoken] at h
    split at h
    · cases h
    · cases h
  · exact (Session.complete_of_token_ne htoken).1

/-- A call after which a controller is idle has changed nothing. -/
theorem after_eq_self_of_idle {call : Call} (h : (c.after call).phase = .idle) :
    c.after call = c := by
  cases call with
  | configure source => exact absurd h (phase_configure_ne_idle c source)
  | complete x => exact complete_eq_self_of_idle h
  | load source fetch =>
    have hconfigured := phase_configure_ne_idle c source
    rcases after_load c source fetch with heq | ⟨x, heq⟩
    · rw [heq] at h
      exact absurd h hconfigured
    · -- The completion would have had to leave a configured controller idle.
      rw [heq] at h
      have hself :
          (c.after (.configure source)).after (.complete x) = c.after (.configure source) :=
        complete_eq_self_of_idle h
      rw [hself] at h
      exact absurd h hconfigured
  | setItems items => cases h

/-- Calls after which a controller is idle have changed nothing. -/
theorem afterAll_eq_self_of_idle {calls : List Call} (h : (c.afterAll calls).phase = .idle) :
    c.afterAll calls = c := by
  -- The first call leaves the controller as it is, because the others leave it idle.
  induction calls generalizing c with
  | nil => rfl
  | cons call calls ih =>
    have hrest : (c.after call).afterAll calls = c.after call := ih h
    have hfirst : (c.after call).phase = .idle := by
      rw [← hrest]
      exact h
    exact hrest.trans (after_eq_self_of_idle hfirst)

/-! ### Runs -/

/-- A call gives out one token at most. -/
theorem token_after_le (c : Controller) (call : Call) : (c.after call).token ≤ c.token + 1 := by
  have hconfigure (source : Source) : (c.after (.configure source)).token = c.token + 1 :=
    Session.token_configure c source
  cases call with
  | configure source => exact Nat.le_of_eq (hconfigure source)
  | complete x => exact Nat.le_succ_of_le (Nat.le_of_eq (Session.token_complete c x))
  | load source fetch =>
    rcases after_load c source fetch with heq | ⟨x, heq⟩
    · rw [heq]
      exact Nat.le_of_eq (hconfigure source)
    · rw [heq, ← hconfigure source]
      exact Nat.le_of_eq (Session.token_complete _ x)
  | setItems items => exact Nat.le_refl _

/-- The token is never more than the number of calls that were made. -/
theorem token_afterAll_le (c : Controller) (calls : List Call) :
    (c.afterAll calls).token ≤ c.token + calls.length := by
  induction calls generalizing c with
  | nil => exact Nat.le_refl _
  | cons call calls ih =>
    calc
      ((c.after call).afterAll calls).token ≤ (c.after call).token + calls.length := ih _
      _ ≤ c.token + 1 + calls.length := Nat.add_le_add_right (token_after_le c call) _
      _ = c.token + (call :: calls).length := by rw [List.length_cons]; omega

/-- Calls keep a controller consistent. -/
theorem isConsistent_foldl (h : c.IsConsistent blueprint identityKey) (calls : List Call) :
    (c.afterAll calls).IsConsistent blueprint identityKey := by
  induction calls generalizing c with
  | nil => exact h
  | cons call calls ih => exact ih (isConsistent_after h call)

/-- After any calls on a new controller its fields go together: the blueprint and the key are those
that it was made with, there is one instance for each item from the first rendering on and nothing
before, there is an error exactly in the phase of errors, and what was rendered stays so. If it is
idle, it was as new after each of the calls. No token is greater than the number of calls. -/
theorem isConsistent_afterAll (blueprint : Blueprint) (identityKey : String) (calls : List Call) :
    ((fresh blueprint identityKey).afterAll calls).IsConsistent blueprint identityKey ∧
      (((fresh blueprint identityKey).afterAll calls).phase = .idle →
        ∀ earlier, earlier <+: calls →
          (fresh blueprint identityKey).afterAll earlier = fresh blueprint identityKey) ∧
      ((fresh blueprint identityKey).afterAll calls).token ≤ calls.length := by
  have hconsistent : ∀ calls,
      ((fresh blueprint identityKey).afterAll calls).IsConsistent blueprint identityKey :=
    isConsistent_foldl (isConsistent_fresh blueprint identityKey)
  refine ⟨hconsistent calls, ?_, ?_⟩
  · rintro hidle earlier ⟨later, rfl⟩
    rw [afterAll, List.foldl_append] at hidle
    -- The later calls have changed nothing, so the controller was idle before them, too.
    have hlater : ((fresh blueprint identityKey).afterAll earlier).afterAll later =
        (fresh blueprint identityKey).afterAll earlier := afterAll_eq_self_of_idle hidle
    refine (hconsistent earlier).eq_fresh_of_idle ?_
    rw [← hlater]
    exact hidle
  · have htoken := token_afterAll_le (fresh blueprint identityKey) calls
    rwa [show (fresh blueprint identityKey).token = 0 from rfl, Nat.zero_add] at htoken

end Controller

end BoundMarkup
