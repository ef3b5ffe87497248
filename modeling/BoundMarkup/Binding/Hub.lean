import BoundMarkup.Binding.Event

/-!
# Hubs

A hub delivers events to those who have subscribed to it. Each subscriber has a mailbox with the
events since it last looked, of which the newest are kept up to a fixed number.
-/

namespace BoundMarkup

/-- The events that wait for a subscriber. -/
structure Mailbox where
  /-- How many events were dropped. -/
  missed : Nat := 0
  /-- The events that were kept, the oldest first. -/
  events : List RenderEvent := []
deriving DecidableEq, Repr

namespace Mailbox

/-- How many events a mailbox keeps. -/
def capacity : Nat := 128

/-- Puts an event into a mailbox; from a full one the oldest is dropped. -/
def push (box : Mailbox) (e : RenderEvent) : Mailbox :=
  if box.events.length < capacity then { box with events := box.events ++ [e] }
  else { missed := box.missed + 1, events := box.events.drop 1 ++ [e] }

end Mailbox

/-- A hub with the mailboxes of its subscribers. -/
structure Hub where
  /-- Whether the hub still takes events and subscribers. -/
  isOpen : Bool := true
  /-- The mailboxes by the names of the subscribers. -/
  boxes : List (String × Mailbox) := []
deriving DecidableEq, Repr

namespace Hub

/-- The mailbox of a subscriber. -/
def box? (hub : Hub) (name : String) : Option Mailbox := hub.boxes.lookup name

/-- The number of subscribers. -/
def size (hub : Hub) : Nat := hub.boxes.length

/-- Sends an event to all subscribers. -/
def send (hub : Hub) (e : RenderEvent) : Hub :=
  { hub with boxes := hub.boxes.map fun b => (b.1, b.2.push e) }

/-- Removes a subscriber. -/
def unsubscribe (hub : Hub) (name : String) : Hub :=
  { hub with boxes := hub.boxes.filter (·.1 ≠ name) }

/-- Adds a subscriber, in place of one of that name. -/
def subscribe (hub : Hub) (name : String) : Hub :=
  let others := hub.unsubscribe name
  { others with boxes := (name, {}) :: others.boxes }

/-- Empties the mailbox of a subscriber. -/
def empty (hub : Hub) (name : String) : Hub :=
  { hub with boxes := hub.boxes.map fun b => if b.1 = name then (b.1, {}) else b }

/-- Closes the hub; what waits in mailboxes stays. -/
def close (hub : Hub) : Hub := { hub with isOpen := false }

end Hub

end BoundMarkup
