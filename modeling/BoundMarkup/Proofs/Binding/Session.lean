import BoundMarkup.Binding.Controller

/-!
# Runs of a controller

A session is a controller together with the operations that were done on it and the acquisitions
that it handed out. Sources may be configured, items set and completions delivered in any order, so
any number of acquisitions may be outstanding; each is delivered at most once, with any result.

The token of a controller counts the operations that supersede acquisitions, and the token of an
acquisition is what that count was when it was handed out. So an acquisition has the current token
if and only if nothing has superseded it, which is true of one acquisition at most.

## Main definitions

* `Session`: a controller with its history and its outstanding acquisitions;
* `Session.Run`: what sessions follow from a session, by any operations in any order;
* `Session.Superseded`: an operation came after an acquisition was handed out that supersedes it;
* `Session.CanAlter`: an acquisition can change the controller or send an event, now or later;
* `Session.IsValid`: the invariant of sessions.

## Main results

* `isValid_step`: every operation keeps the invariant;
* `token_eq_iff`: an outstanding acquisition has the current token unless it is superseded;
* `eq_of_token_eq`: one outstanding acquisition at most has the current token;
* `complete_outstanding`: a completion is accepted if and only if its acquisition is the latest
  request, and is ignored otherwise.
-/

namespace BoundMarkup

open Json

/-- The completion of an acquisition whose fetch had that result. -/
def Acquisition.completed (a : Acquisition) (result : Except FetchError String) : Completion where
  token := a.token
  locator := a.locator
  result := result

/-- An operation on a controller. -/
inductive Operation where
  /-- A source is configured. -/
  | configure (source : Source)
  /-- Items are set. -/
  | setItems (items : List Value)
  /-- A completion is delivered, with the result of the acquisition that the operation of that
  number handed out. -/
  | deliver (issuer : Nat) (result : Except FetchError String)

/-- Whether an operation supersedes the acquisitions from before. -/
def Operation.supersedes : Operation → Bool
  | configure _ => true
  | setItems _ => true
  | deliver _ _ => false

/-- An acquisition with the number of the operation that handed it out. -/
structure Handout where
  /-- How many operations came before the one that handed it out. -/
  issuer : Nat
  /-- The acquisition. -/
  acquisition : Acquisition
deriving DecidableEq

/-- In that history, an acquisition was handed out when its locator was configured, and its token is
the count of the operations up to then that supersede acquisitions. -/
structure Handout.IsIssued (h : Handout) (history : List Operation) : Prop where
  /-- The operation of that number configured the locator. -/
  configured : history[h.issuer]? = some (.configure (.remote h.acquisition.locator))
  /-- The token is the count up to then. -/
  stamped : h.acquisition.token = (history.take (h.issuer + 1)).countP Operation.supersedes

/-- A controller and what happened to it. -/
structure Session where
  /-- The controller as it is now. -/
  controller : Controller
  /-- The operations so far, the earliest first. -/
  history : List Operation := []
  /-- The acquisitions whose completions were not delivered. -/
  outstanding : List Handout := []

namespace Session

/-- The session of a new controller. -/
def start (blueprint : Blueprint) (identityKey : String) : Session where
  controller := { blueprint, identityKey }

/-- A source is configured; the acquisition is outstanding if there is one. -/
def configure (s : Session) (source : Source) : Session where
  controller := (s.controller.configure source).controller
  history := s.history ++ [.configure source]
  outstanding :=
    (s.controller.configure source).result.toList.map (⟨s.history.length, ·⟩) ++ s.outstanding

/-- Items are set. -/
def setItems (s : Session) (items : List Value) : Session :=
  { s with
    controller := (s.controller.setItems items).controller
    history := s.history ++ [.setItems items] }

/-- The completion of an acquisition is delivered, which is not outstanding from then on. -/
def deliver (s : Session) (h : Handout) (result : Except FetchError String) : Session where
  controller := (s.controller.complete (h.acquisition.completed result)).controller
  history := s.history ++ [.deliver h.issuer result]
  outstanding := s.outstanding.filter (· ≠ h)

/-- What one operation makes of a session. -/
inductive Step (s : Session) : Session → Prop
  | configure (source : Source) : Step s (s.configure source)
  | setItems (items : List Value) : Step s (s.setItems items)
  | deliver (h : Handout) (result : Except FetchError String) (hmem : h ∈ s.outstanding) :
      Step s (s.deliver h result)

/-- What any number of operations in any order make of a session. -/
inductive Run (s : Session) : Session → Prop
  | refl : Run s s
  | step {t u : Session} : Run s t → Step t u → Run s u

/-- The operations on a session after the one of that number. -/
def after (s : Session) (issuer : Nat) : List Operation := s.history.drop (issuer + 1)

/-- An operation that supersedes acquisitions came after the operation of that number. -/
def Superseded (s : Session) (issuer : Nat) : Prop :=
  ∃ op ∈ s.after issuer, op.supersedes = true

/-- Some completion of an acquisition would change the controller or send an event. -/
def Alters (s : Session) (a : Acquisition) : Prop :=
  ∃ result, (s.controller.complete (a.completed result)).controller ≠ s.controller ∨
    (s.controller.complete (a.completed result)).events ≠ []

/-- An outstanding acquisition can alter the controller, now or after more operations. -/
def CanAlter (s : Session) (h : Handout) : Prop :=
  ∃ t, Run s t ∧ h ∈ t.outstanding ∧ t.Alters h.acquisition

/-- The invariant of sessions. -/
structure IsValid (s : Session) : Prop where
  /-- The token counts the operations that supersede acquisitions. -/
  token : s.controller.token = s.history.countP Operation.supersedes
  /-- The outstanding acquisitions were handed out in the course of the history. -/
  issued : ∀ h ∈ s.outstanding, h.IsIssued s.history
  /-- The controller is loading exactly as long as the current acquisition is outstanding. -/
  loading : s.controller.phase = .loading ↔
    ∃ h ∈ s.outstanding, h.acquisition.token = s.controller.token

/-! ### Single operations -/

/-- A completion is taken if and only if it has the controller's token. -/
theorem complete_result (c : Controller) (x : Completion) :
    (c.complete x).result = true ↔ x.token = c.token := by
  unfold Controller.complete
  split
  · next h => split <;> simp [Transition.withResult, h]
  · next h => simp [h]

/-- A completion with another token changes nothing and sends nothing. -/
theorem complete_of_token_ne {c : Controller} {x : Completion} (h : x.token ≠ c.token) :
    (c.complete x).controller = c ∧ (c.complete x).events = [] := by
  rw [Controller.complete, if_neg h]
  exact ⟨rfl, rfl⟩

/-- A completion with the controller's token ends the loading. -/
theorem phase_complete {c : Controller} {x : Completion} (h : x.token = c.token) :
    (c.complete x).controller.phase ≠ .loading := by
  rw [Controller.complete, if_pos h]
  split
  · exact nofun
  · exact nofun

/-- No completion changes the token. -/
theorem token_complete (c : Controller) (x : Completion) :
    (c.complete x).controller.token = c.token := by
  unfold Controller.complete
  split
  · split <;> rfl
  · rfl

/-- Every configuration advances the token. -/
theorem token_configure (c : Controller) (source : Source) :
    (c.configure source).controller.token = c.token + 1 := by
  cases source with
  | inline json =>
    rw [Controller.configure]
    split <;> rfl
  | remote locator => rfl

/-- A text hands out nothing and leaves the controller not loading. -/
theorem configure_inline (c : Controller) (json : String) :
    (c.configure (.inline json)).result = none ∧
      (c.configure (.inline json)).controller.phase ≠ .loading := by
  rw [Controller.configure]
  split
  · exact ⟨rfl, nofun⟩
  · exact ⟨rfl, nofun⟩

/-! ### Handed out acquisitions -/

end Session

namespace Handout.IsIssued

variable {h : Handout} {history : List Operation}

/-- The operation that handed out an acquisition is one of the history. -/
theorem issuer_lt (hh : h.IsIssued history) : h.issuer < history.length :=
  (List.getElem?_eq_some_iff.mp hh.configured).1

/-- What comes later does not change when an acquisition was handed out. -/
theorem append (hh : h.IsIssued history) (op : Operation) : h.IsIssued (history ++ [op]) where
  configured := (List.getElem?_append_left hh.issuer_lt).trans hh.configured
  stamped := by rw [List.take_append_of_le_length hh.issuer_lt, hh.stamped]

/-- The acquisition that the latest operation handed out. -/
theorem latest (history : List Operation) (locator : String) :
    IsIssued ⟨history.length, ⟨history.countP Operation.supersedes + 1, locator⟩⟩
      (history ++ [.configure (.remote locator)]) where
  configured := List.getElem?_concat_length
  stamped := by
    rw [List.take_of_length_le (by simp), List.countP_append]
    rfl

end Handout.IsIssued

namespace Session

variable {s t : Session} {h h' : Handout}

namespace IsValid

/-! ### The current acquisition -/

/-- The current token is that of an outstanding acquisition and one for every operation that came
later and supersedes it. -/
theorem token_eq_add (hs : s.IsValid) (hmem : h ∈ s.outstanding) :
    s.controller.token =
      h.acquisition.token + (s.after h.issuer).countP Operation.supersedes := by
  rw [hs.token, (hs.issued h hmem).stamped, after, ← List.countP_append, List.take_append_drop]

/-- No outstanding acquisition has a token beyond the controller's. -/
theorem token_le (hs : s.IsValid) (hmem : h ∈ s.outstanding) :
    h.acquisition.token ≤ s.controller.token := by
  rw [hs.token_eq_add hmem]
  exact Nat.le_add_right _ _

/-- An outstanding acquisition has the current token unless it is superseded. -/
theorem token_eq_iff (hs : s.IsValid) (hmem : h ∈ s.outstanding) :
    h.acquisition.token = s.controller.token ↔ ¬s.Superseded h.issuer := by
  have hadd := hs.token_eq_add hmem
  calc
    _ ↔ (s.after h.issuer).countP Operation.supersedes = 0 := by omega
    _ ↔ ¬s.Superseded h.issuer := by
      rw [List.countP_eq_zero, Superseded]
      simp only [not_exists, not_and]

/-- No outstanding acquisition was handed out after one with the current token. -/
private theorem issuer_le_of_token_eq (hs : s.IsValid) (hmem : h ∈ s.outstanding)
    (hmem' : h' ∈ s.outstanding) (hcurrent : h.acquisition.token = s.controller.token) :
    h'.issuer ≤ h.issuer := by
  refine Nat.le_of_not_lt fun hlt => (hs.token_eq_iff hmem).mp hcurrent ?_
  -- The later of the two was handed out by a configuration, which supersedes the other.
  have hafter : (s.after h.issuer)[h'.issuer - (h.issuer + 1)]? =
      some (.configure (.remote h'.acquisition.locator)) := by
    rw [after, List.getElem?_drop, Nat.add_sub_cancel' hlt]
    exact (hs.issued h' hmem').configured
  exact ⟨_, List.mem_of_getElem? hafter, rfl⟩

/-- One outstanding acquisition at most has the current token. -/
theorem eq_of_token_eq (hs : s.IsValid) (hmem : h ∈ s.outstanding) (hmem' : h' ∈ s.outstanding)
    (hcurrent : h.acquisition.token = s.controller.token)
    (hcurrent' : h'.acquisition.token = s.controller.token) : h = h' := by
  have hissuer : h.issuer = h'.issuer :=
    Nat.le_antisymm (hs.issuer_le_of_token_eq hmem' hmem hcurrent')
      (hs.issuer_le_of_token_eq hmem hmem' hcurrent)
  have htoken := hcurrent.trans hcurrent'.symm
  -- The same operation handed both out, so it is the same locator that it configured.
  have hlocator := (hs.issued h hmem).configured.symm.trans
    (hissuer ▸ (hs.issued h' hmem').configured)
  obtain ⟨issuer, token, locator⟩ := h
  obtain ⟨issuer', token', locator'⟩ := h'
  cases hissuer
  cases htoken
  cases hlocator
  rfl

/-- A controller is loading for the outstanding acquisition with the current token. -/
theorem token_eq_iff_loading (hs : s.IsValid) (hmem : h ∈ s.outstanding) :
    h.acquisition.token = s.controller.token ↔
      s.controller.phase = .loading ∧ s.controller.token = h.acquisition.token :=
  ⟨fun heq => ⟨hs.loading.mpr ⟨h, hmem, heq⟩, heq.symm⟩, fun heq => heq.2.symm⟩

/-! ### Every operation keeps the invariant -/

protected theorem start (blueprint : Blueprint) (identityKey : String) :
    (start blueprint identityKey).IsValid where
  token := rfl
  issued := nofun
  loading := by simp [Session.start]

/-- The token still counts when an operation advances it that supersedes acquisitions. -/
private theorem count_append (hs : s.IsValid) (op : Operation) :
    (s.history ++ [op]).countP Operation.supersedes =
      s.controller.token + if op.supersedes then 1 else 0 := by
  rw [List.countP_append, ← hs.token, List.countP_singleton]

/-- No outstanding acquisition has a token that is only now given out. -/
private theorem not_current_of_advance (hs : s.IsValid) :
    ¬∃ h ∈ s.outstanding, h.acquisition.token = s.controller.token + 1 := by
  rintro ⟨h, hmem, heq⟩
  have := hs.token_le hmem
  omega

protected theorem configure (hs : s.IsValid) (source : Source) : (s.configure source).IsValid := by
  cases source with
  | inline json =>
    obtain ⟨hresult, hphase⟩ := configure_inline s.controller json
    have hout : (s.configure (.inline json)).outstanding = s.outstanding := by
      rw [Session.configure, hresult]
      rfl
    constructor
    · exact (token_configure _ _).trans (hs.count_append (.configure (.inline json))).symm
    · rw [hout]
      exact fun h hmem => (hs.issued h hmem).append _
    · -- The token moves on, and nothing that is outstanding has caught up with it.
      rw [hout, Session.configure, token_configure]
      exact iff_of_false hphase hs.not_current_of_advance
  | remote locator =>
    constructor
    · exact (hs.count_append (.configure (.remote locator))).symm
    · intro h hmem
      rcases List.mem_cons.mp hmem with rfl | hmem
      · -- The new acquisition has the token that counts this configuration, too.
        have hlatest := Handout.IsIssued.latest s.history locator
        rw [← hs.token] at hlatest
        exact hlatest
      · exact (hs.issued h hmem).append _
    · exact iff_of_true rfl ⟨_, List.mem_cons_self, rfl⟩

protected theorem setItems (hs : s.IsValid) (items : List Value) : (s.setItems items).IsValid where
  token := (hs.count_append (.setItems items)).symm
  issued := fun h hmem => (hs.issued h hmem).append _
  loading := iff_of_false nofun hs.not_current_of_advance

protected theorem deliver (hs : s.IsValid) (hmem : h ∈ s.outstanding)
    (result : Except FetchError String) : (s.deliver h result).IsValid where
  token := (token_complete _ _).trans (hs.count_append (.deliver h.issuer result)).symm
  issued := fun h' hmem' => (hs.issued h' (List.mem_filter.mp hmem').1).append _
  loading := by
    rw [Session.deliver, token_complete]
    by_cases hcurrent : h.acquisition.token = s.controller.token
    · -- The acquisition that was waited for is no longer outstanding, and there is no other.
      refine iff_of_false (phase_complete hcurrent) ?_
      rintro ⟨h', hmem', hcurrent'⟩
      obtain ⟨hmem', hne⟩ := List.mem_filter.mp hmem'
      exact of_decide_eq_true hne (hs.eq_of_token_eq hmem' hmem hcurrent' hcurrent)
    · -- The controller stays as it is, and what it waits for is not the delivered one.
      rw [(complete_of_token_ne (x := h.acquisition.completed result) hcurrent).1, hs.loading]
      refine ⟨fun ⟨h', hmem', hcurrent'⟩ => ⟨h', List.mem_filter.mpr ⟨hmem', ?_⟩, hcurrent'⟩,
        fun ⟨h', hmem', hcurrent'⟩ => ⟨h', (List.mem_filter.mp hmem').1, hcurrent'⟩⟩
      exact decide_eq_true fun heq => hcurrent (heq ▸ hcurrent')

end IsValid

/-- Every operation keeps the invariant. -/
theorem isValid_step (hs : s.IsValid) (hstep : Step s t) : t.IsValid := by
  cases hstep with
  | configure source => exact hs.configure source
  | setItems items => exact hs.setItems items
  | deliver h result hmem => exact hs.deliver hmem result

/-- Any operations in any order keep the invariant. -/
theorem isValid_run (hs : s.IsValid) (hrun : Run s t) : t.IsValid := by
  induction hrun with
  | refl => exact hs
  | step _ hstep ih => exact isValid_step ih hstep

/-! ### What may still come -/

/-- An operation is added at the end of the history. -/
theorem history_step (hstep : Step s t) : ∃ op, t.history = s.history ++ [op] := by
  cases hstep with
  | configure source => exact ⟨_, rfl⟩
  | setItems items => exact ⟨_, rfl⟩
  | deliver h result _ => exact ⟨_, rfl⟩

/-- An acquisition that is superseded stays so. -/
theorem superseded_run {issuer : Nat} (hsup : s.Superseded issuer) (hrun : Run s t) :
    t.Superseded issuer := by
  induction hrun with
  | refl => exact hsup
  | step _ hstep ih =>
    obtain ⟨op, hmem, hop⟩ := ih
    obtain ⟨new, hnew⟩ := history_step hstep
    refine ⟨op, ?_, hop⟩
    rw [after, hnew, List.drop_append]
    exact List.mem_append_left _ hmem

/-- An acquisition that can still alter the controller is not superseded. -/
theorem not_superseded_of_canAlter (hs : s.IsValid) (hcan : s.CanAlter h) :
    ¬s.Superseded h.issuer := by
  obtain ⟨t, hrun, hmem, result, halters⟩ := hcan
  intro hsup
  -- Whenever the completion comes, the acquisition is still superseded and its token is old.
  have hstale : h.acquisition.token ≠ t.controller.token := fun heq =>
    ((isValid_run hs hrun).token_eq_iff hmem).mp heq (superseded_run hsup hrun)
  obtain ⟨hcontroller, hevents⟩ :=
    complete_of_token_ne (x := h.acquisition.completed result) hstale
  exact halters.elim (· hcontroller) (· hevents)

/-- At every moment of a session, the completion of an outstanding acquisition is accepted, whatever
its result is, if and only if no later operation has superseded it, and this is when the controller
is loading for that very request. Otherwise the controller stays as it is and no event is sent. So
one outstanding acquisition at most can still alter the controller. No token is greater than the
number of operations. -/
theorem complete_outstanding {blueprint : Blueprint} {identityKey : String}
    (hrun : Run (start blueprint identityKey) s) (hmem : h ∈ s.outstanding)
    (result : Except FetchError String) :
    ((s.controller.complete (h.acquisition.completed result)).result = true ↔
        ¬s.Superseded h.issuer) ∧
      ((s.controller.complete (h.acquisition.completed result)).result = true ↔
        s.controller.phase = .loading ∧ s.controller.token = h.acquisition.token) ∧
      ((s.controller.complete (h.acquisition.completed result)).result = false →
        (s.controller.complete (h.acquisition.completed result)).controller = s.controller ∧
          (s.controller.complete (h.acquisition.completed result)).events = []) ∧
      (∀ h' ∈ s.outstanding, s.CanAlter h → s.CanAlter h' → h = h') ∧
      h.acquisition.token ≤ s.controller.token ∧ s.controller.token ≤ s.history.length := by
  have hs : s.IsValid := isValid_run (IsValid.start blueprint identityKey) hrun
  have htaken := complete_result s.controller (h.acquisition.completed result)
  refine ⟨htaken.trans (hs.token_eq_iff hmem), htaken.trans (hs.token_eq_iff_loading hmem), ?_, ?_,
    hs.token_le hmem, ?_⟩
  · -- What is not accepted has another token.
    intro hfalse
    refine complete_of_token_ne fun htoken => ?_
    rw [htaken.mpr htoken] at hfalse
    cases hfalse
  · -- Two that can alter the controller are not superseded, so both have the current token.
    intro h' hmem' hcan hcan'
    exact hs.eq_of_token_eq hmem hmem'
      ((hs.token_eq_iff hmem).mpr (not_superseded_of_canAlter hs hcan))
      ((hs.token_eq_iff hmem').mpr (not_superseded_of_canAlter hs hcan'))
  · -- The token counts some of the operations.
    rw [hs.token]
    exact List.countP_le_length

/-- Two locators are configured one after the other, and both acquisitions are outstanding: the
completion of the first is ignored and that of the second is accepted. -/
theorem complete_overtaken :
    ∃ s, Run (start { fragment := [] } "id") s ∧
      ⟨0, ⟨1, "first"⟩⟩ ∈ s.outstanding ∧ ⟨1, ⟨2, "second"⟩⟩ ∈ s.outstanding ∧
      (s.controller.complete (Acquisition.completed ⟨1, "first"⟩ (.ok "[]"))).result ≠ true ∧
      (s.controller.complete (Acquisition.completed ⟨2, "second"⟩ (.ok "[]"))).result = true := by
  have hrun : Run (start { fragment := [] } "id")
      (((start { fragment := [] } "id").configure (.remote "first")).configure
        (.remote "second")) :=
    .step (.step .refl (.configure _)) (.configure _)
  have hfirst := List.mem_cons_of_mem (⟨1, ⟨2, "second"⟩⟩ : Handout)
    (List.mem_singleton_self (⟨0, ⟨1, "first"⟩⟩ : Handout))
  have hsecond := List.mem_cons_self (a := (⟨1, ⟨2, "second"⟩⟩ : Handout))
    (l := [⟨0, ⟨1, "first"⟩⟩])
  refine ⟨_, hrun, hfirst, hsecond, ?_, ?_⟩
  · rw [Ne, (complete_outstanding hrun hfirst (.ok "[]")).1, Classical.not_not]
    exact ⟨_, List.mem_singleton_self _, rfl⟩
  · rw [(complete_outstanding hrun hsecond (.ok "[]")).1]
    exact fun ⟨op, hop, _⟩ => List.not_mem_nil hop

end Session

end BoundMarkup
