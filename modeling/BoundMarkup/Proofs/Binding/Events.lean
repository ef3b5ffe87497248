import BoundMarkup.Binding.Hub
import BoundMarkup.Proofs.Binding.Outcome

/-!
# What the events tell

Every call that has an effect ends with the event that tells of its outcome, and a call without an
effect sends nothing. So the last event that a controller has sent always tells what the controller
is about now, whatever the calls were. One who has watched from the beginning finds that event at
the end of the mailbox, even if the mailbox has lost what came earlier.

## Main definitions

* `Controller.sentBy`: the events of several calls;
* `latestSource`: the source that was configured last;
* `Controller.Tells`: an event is what the last event should be.

## Main results

* `Mailbox.foldl_push`: a mailbox holds the latest events and counts the others;
* `tells_after`: the last event of a call tells what the controller is about after it;
* `tells_afterAll`: the last event of any calls does;
* `getLast?_sentBy_iff`: what each call sends, and what the last event says for each phase.
-/

namespace BoundMarkup

open Json

/-! ### Mailboxes -/

namespace Mailbox

/-- A mailbox that was empty holds the latest events, as many as it can hold, and has missed the
others. -/
theorem foldl_push (es : List RenderEvent) :
    es.foldl push {} =
      { missed := es.length - capacity, events := es.drop (es.length - capacity) } := by
  have hcapacity : 0 < capacity := by decide
  induction es using List.reverseRecOn with
  | nil => rfl
  | append_singleton es e ih =>
    have hlength : (es.drop (es.length - capacity)).length = es.length - (es.length - capacity) :=
      List.length_drop
    rw [List.foldl_append, ih, List.foldl_cons, List.foldl_nil, push, List.length_append,
      List.length_singleton]
    dsimp only
    by_cases hroom : es.length < capacity
    · -- Nothing was lost so far, and nothing is lost now.
      have hnow : es.length + 1 - capacity = 0 := by omega
      have hbefore : es.length - capacity = 0 := by omega
      rw [if_pos (by omega), hnow, hbefore, List.drop_zero, List.drop_zero]
    · -- The oldest of the events that were kept makes room for the new one.
      have hnow : es.length + 1 - capacity = es.length - capacity + 1 := by omega
      rw [if_neg (by omega), hnow, List.drop_drop,
        List.drop_append_of_le_length (by omega : es.length - capacity + 1 ≤ es.length)]

end Mailbox

namespace Hub

/-- Sending an event pushes it into every mailbox. -/
theorem box?_send (hub : Hub) (e : RenderEvent) (name : String) :
    (hub.send e).box? name = (hub.box? name).map (·.push e) := by
  rw [box?, box?, send]
  induction hub.boxes with
  | nil => rfl
  | cons b boxes ih =>
    rw [List.map_cons, List.lookup_cons, List.lookup_cons, ih]
    split <;> rfl

/-- Sending events pushes them into every mailbox, one after another. -/
theorem box?_foldl_send (hub : Hub) (es : List RenderEvent) (name : String) :
    (es.foldl send hub).box? name = (hub.box? name).map (es.foldl Mailbox.push ·) := by
  induction es generalizing hub with
  | nil => simp
  | cons e es ih =>
    rw [List.foldl_cons, ih, box?_send, Option.map_map]
    rfl

/-- A subscriber with an empty mailbox finds the last event that was sent at its end. -/
theorem exists_box?_foldl_send {hub : Hub} {name : String} (h : hub.box? name = some {})
    (es : List RenderEvent) :
    ∃ box, (es.foldl send hub).box? name = some box ∧
      box.events = es.drop (es.length - Mailbox.capacity) ∧
      box.events.getLast? = es.getLast? := by
  have hbox := box?_foldl_send hub es name
  rw [h, Option.map_some, Mailbox.foldl_push] at hbox
  -- A mailbox has room for one event at least, so the last one is never among the lost.
  have hcapacity : 0 < Mailbox.capacity := by decide
  generalize hmissed : es.length - Mailbox.capacity = missed at hbox ⊢
  refine ⟨_, hbox, rfl, ?_⟩
  dsimp only
  rw [List.getLast?_drop]
  split
  · next hle =>
    have hlength : es.length = 0 := by omega
    rw [List.length_eq_zero_iff.mp hlength]
    rfl
  · rfl

end Hub

/-! ### The source that was configured last -/

/-- The source that a call configures. -/
def Call.source? : Call → Option Source
  | .configure source => some source
  | .load source _ => some source
  | _ => none

/-- The source that was configured last. -/
def latestSource (calls : List Call) : Option Source := (calls.filterMap Call.source?).getLast?

theorem latestSource_cons (call : Call) (calls : List Call) :
    latestSource (call :: calls) = (latestSource calls).or call.source? := by
  rw [latestSource, latestSource, List.filterMap_cons]
  cases call.source? with
  | none => exact (Option.or_none).symm
  | some source =>
    dsimp only
    rw [← List.singleton_append, List.getLast?_append]
    rfl

/-! ### The last event -/

namespace Controller

/-- The events that several calls send, the first of them first. -/
def sentBy (c : Controller) : List Call → List RenderEvent
  | [] => []
  | call :: calls => c.sends call ++ (c.after call).sentBy calls

/-- The last event, or that there is none, tells what a controller is about for which the given
source was configured last. -/
def Tells (c : Controller) (latest : Option Source) : Option RenderEvent → Prop
  | none => c.phase = .idle
  | some (.loading src) => c.phase = .loading ∧ latest = some (.remote src)
  | some (.rendered count) =>
    c.phase = .rendered ∧ c.instances.length = count ∧ c.items.length = count
  | some (.errored message) => c.phase = .errored ∧ c.error.map LoadError.message = some message

variable {c : Controller} {latest : Option Source} {last : Option RenderEvent}

/-- Items that are shown and a refusal are told, whatever was sent before. -/
theorem tells_ofItems {ε : Type} (c : Controller) (reason : ε → LoadError)
    (found : Except ε (List Value)) (token : Nat) (latest : Option Source)
    (before : List RenderEvent) (last : Option RenderEvent) :
    Tells { c.settled (.ofItems reason found) with token } latest
      ((before ++ (Outcome.ofItems reason found).events).getLast?.or last) := by
  cases found with
  | ok items =>
    rw [Outcome.ofItems, Outcome.events, List.getLast?_concat]
    exact ⟨rfl, List.length_map _, rfl⟩
  | error e =>
    rw [Outcome.ofItems, Outcome.events, List.getLast?_concat]
    exact ⟨rfl, rfl⟩

/-- If the last event tells what a controller is about, the last event after a call does, too. -/
theorem tells_after (h : c.Tells latest last) (call : Call) :
    (c.after call).Tells (call.source?.or latest) ((c.sends call).getLast?.or last) := by
  rw [after_eq_settled, sends_eq]
  cases call with
  | configure source =>
    cases source with
    | inline json => exact tells_ofItems c .inline (decodeItems json) _ _ _ _
    | remote locator => exact ⟨rfl, rfl⟩
  | complete x =>
    rw [outcome]
    split
    · exact tells_ofItems c (.remote x.locator) (itemsOf x) _ _ _ _
    · -- Nothing was sent, and the event from before still tells what it told.
      exact h
  | load source fetch =>
    cases source with
    | inline json => exact tells_ofItems c .inline (decodeItems json) _ _ _ _
    | remote locator => exact tells_ofItems c (.remote locator) _ _ _ _ _
  | setItems items => exact ⟨rfl, List.length_map _, rfl⟩

/-- If the last event tells what a controller is about, the last event after any calls does. -/
theorem tells_afterAll (h : c.Tells latest last) (calls : List Call) :
    (c.afterAll calls).Tells ((latestSource calls).or latest)
      ((c.sentBy calls).getLast?.or last) := by
  induction calls generalizing c latest last with
  | nil => exact h
  | cons call calls ih =>
    -- For the later calls, what was configured and sent before is what the first call leaves.
    have hrest := ih (tells_after h call)
    rw [← Option.or_assoc, ← Option.or_assoc, ← latestSource_cons, ← List.getLast?_append] at hrest
    exact hrest

/-- For every phase one last event is right, and it is wrong for all other phases. -/
theorem Tells.phase_iff (h : c.Tells latest last) :
    (last = none ↔ c.phase = .idle) ∧
    ((∃ src, last = some (.loading src)) ↔ c.phase = .loading) ∧
    ((∃ count, last = some (.rendered count)) ↔ c.phase = .rendered) ∧
    ((∃ message, last = some (.errored message)) ↔ c.phase = .errored) := by
  rcases last with _ | (count | src | message)
  · have hphase : c.phase = .idle := h
    simp [hphase]
  · have hphase : c.phase = .rendered := h.1
    simp [hphase]
  · have hphase : c.phase = .loading := h.1
    simp [hphase]
  · have hphase : c.phase = .errored := h.1
    simp [hphase]

/-! ### Single calls -/

/-- An outcome is told by one event, unless nothing has happened. -/
theorem length_events_ofItems {ε : Type} (reason : ε → LoadError)
    (found : Except ε (List Value)) : (Outcome.ofItems reason found).events.length = 1 := by
  cases found with
  | ok items => rfl
  | error e => rfl

/-- A configuration sends one event. -/
theorem length_sends_configure (c : Controller) (source : Source) :
    (c.sends (.configure source)).length = 1 := by
  cases source with
  | inline json =>
    rw [sends_eq]
    exact length_events_ofItems .inline (decodeItems json)
  | remote locator => rfl

/-- A completion sends one event if it is accepted, and none otherwise. -/
theorem length_sends_complete (c : Controller) (x : Completion) :
    (c.sends (.complete x)).length = if (c.complete x).result then 1 else 0 := by
  by_cases htoken : x.token = c.token
  · rw [if_pos ((Session.complete_result c x).mpr htoken), sends, (complete_of_token_eq htoken).2]
    exact length_events_ofItems (.remote x.locator) (itemsOf x)
  · rw [if_neg (mt (Session.complete_result c x).mp htoken), sends,
      (Session.complete_of_token_ne htoken).2]
    rfl

/-- A load sends what its configuration sends and, if something is fetched, what the completion of
that sends. -/
theorem sends_load (c : Controller) (source : Source) (fetch : Fetcher Id) :
    c.sends (.load source fetch) =
      c.sends (.configure source) ++
        (c.configure source).result.toList.flatMap fun a =>
          (c.after (.configure source)).sends (.complete (a.completed (fetch a.locator))) := by
  cases source with
  | inline json =>
    show (Id.run (c.load (.inline json) fetch)).events = _
    rw [load_inline, (Session.configure_inline c json).1]
    exact (List.append_nil _).symm
  | remote locator => exact (congrArg _ (List.append_nil _)).symm

/-- Every call on a controller sends one event, except for completions that are not accepted, which
send none, and loads, which send what they consist of. After any calls on a new controller, no event
was sent if and only if it is idle, and otherwise the last event has the kind of its phase: it names
the locator that was configured last, or counts both instances and items, or has the message of the
error. Whoever has subscribed before finds that event last in the mailbox, behind the latest of the
others. -/
theorem getLast?_sentBy_iff (blueprint : Blueprint) (identityKey : String) (calls : List Call) :
    let c := (fresh blueprint identityKey).afterAll calls
    let sent := (fresh blueprint identityKey).sentBy calls
    (∀ source, (c.sends (.configure source)).length = 1) ∧
    (∀ x, (c.sends (.complete x)).length = if (c.complete x).result then 1 else 0) ∧
    (∀ items, (c.sends (.setItems items)).length = 1) ∧
    (∀ source fetch, c.sends (.load source fetch) =
      c.sends (.configure source) ++
        (c.configure source).result.toList.flatMap fun a =>
          (c.after (.configure source)).sends (.complete (a.completed (fetch a.locator)))) ∧
    (sent = [] ↔ c.phase = .idle) ∧
    (((∃ src, sent.getLast? = some (.loading src)) ↔ c.phase = .loading) ∧
      ∀ src, sent.getLast? = some (.loading src) → latestSource calls = some (.remote src)) ∧
    (((∃ count, sent.getLast? = some (.rendered count)) ↔ c.phase = .rendered) ∧
      ∀ count, sent.getLast? = some (.rendered count) →
        c.instances.length = count ∧ c.items.length = count) ∧
    (((∃ message, sent.getLast? = some (.errored message)) ↔ c.phase = .errored) ∧
      ∀ message, sent.getLast? = some (.errored message) →
        c.error.map LoadError.message = some message) ∧
    ∀ hub name, hub.box? name = some {} →
      ∃ box, (sent.foldl Hub.send hub).box? name = some box ∧
        box.events = sent.drop (sent.length - Mailbox.capacity) ∧
        box.events.getLast? = sent.getLast? := by
  intro c sent
  have htells : c.Tells (latestSource calls) sent.getLast? := by
    have hfresh : (fresh blueprint identityKey).Tells none none := rfl
    have hcalls := tells_afterAll hfresh calls
    rwa [Option.or_none, Option.or_none] at hcalls
  obtain ⟨hidle, hloading, hrendered, herrored⟩ := htells.phase_iff
  refine ⟨length_sends_configure c, length_sends_complete c, fun _ => rfl, sends_load c,
    List.getLast?_eq_none_iff.symm.trans hidle, ⟨hloading, fun src hlast => ?_⟩,
    ⟨hrendered, fun count hlast => ?_⟩, ⟨herrored, fun message hlast => ?_⟩,
    fun hub name hbox => Hub.exists_box?_foldl_send hbox sent⟩
  · rw [hlast] at htells
    exact htells.2
  · rw [hlast] at htells
    exact htells.2
  · rw [hlast] at htells
    exact htells.2

end Controller

end BoundMarkup
