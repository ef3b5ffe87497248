import BoundMarkup.Binding.Host
import BoundMarkup.Toml.Document

/-!
# Configuration

What a configuration file may say: how hosts are recognised and where local data is found. A
section may be a table or an array of its values in order; other members are ignored.
-/

namespace BoundMarkup

open Text Toml

/-- A configuration. -/
structure Config where
  /-- The name of host elements. -/
  tag : String := "data-list"
  /-- The member by which items are told apart where a host names none. -/
  identityKey : String := "id"
  /-- The longest time that a request may take, in seconds. -/
  timeoutSeconds : Option Nat := none
  /-- The directory below which local data is found. -/
  baseDirectory : Option String := none
deriving DecidableEq, Repr

namespace Config

/-- What the configuration says of hosts. -/
def options (c : Config) : HostOptions where
  identityKey := c.identityKey

/-- A string. -/
def stringOf : Value → Option String
  | .string s => some s
  | _ => none

/-- A number of seconds. -/
def secondsOf : Value → Option Nat
  | .integer n => if 0 ≤ n then some n.toNat else none
  | _ => none

/-- A value that may be missing, as one that `read` accepts. -/
def optional {α : Type} (read : Value → Option α) (v : Option Value) : Option (Option α) :=
  match v with
  | none => some none
  | some v => (read v).map some

/-- A section as its members or as its values in order. A date has no members that count. -/
inductive Section where
  /-- A section with names. -/
  | members (members : Members)
  /-- A section without names. -/
  | items (items : List Value)

/-- The section that a value is. -/
def sectionOf : Option Value → Option Section
  | none | some (.dateTime _) => some (.members [])
  | some (.table _ members) => some (.members members)
  | some (.array items) => some (.items items)
  | some (.tables rows) => some (.items (rows.reverse.map (.table .header)))
  | some _ => none

/-- The configuration with what the section on hosts says; what it leaves out stays. -/
def withHost (c : Config) (s : Section) : Option Config := do
  let (tag, key) :=
    match s with
    | .members m => (m.get? "tag", m.get? "identity_key")
    | .items items => (items[0]?, items[1]?)
  let tag ← optional stringOf tag
  let key ← optional stringOf key
  return { c with tag := lowercase (tag.getD c.tag), identityKey := key.getD c.identityKey }

/-- The configuration with what the section on fetching says. Without names it has to be
complete. -/
def withFetch (c : Config) (s : Section) : Option Config :=
  match s with
  | .members m => do
    let timeoutSeconds ← optional secondsOf (m.get? "timeout_secs")
    let baseDirectory ← optional stringOf (m.get? "base_dir")
    return { c with timeoutSeconds, baseDirectory }
  | .items (timeout :: base :: _) => do
    let timeoutSeconds ← secondsOf timeout
    let baseDirectory ← stringOf base
    return { c with timeoutSeconds := some timeoutSeconds, baseDirectory := some baseDirectory }
  | .items _ => none

/-- The configuration that a text says. -/
def parse (text : String) : Option Config := do
  let members ← Toml.parse text
  let host ← sectionOf (members.get? "host")
  let fetch ← sectionOf (members.get? "fetch")
  let c ← ({} : Config).withHost host
  c.withFetch fetch

/-- The text of a configuration file that says what holds anyway. -/
def template : String :=
  String.intercalate "\n" [
    "# Lattice Configuration",
    "",
    "[host]",
    "# Tag name of list host elements",
    "tag = \"data-list\"",
    "",
    "# Item field used as identity when a host has no \x60key\x60 attribute",
    "identity_key = \"id\"",
    "",
    "[fetch]",
    "# Timeout for remote sources, in seconds",
    "# timeout_secs = 10",
    "",
    "# Directory local sources resolve against (defaults to the page's directory)",
    "# base_dir = \"public\"",
    ""]

end Config

end BoundMarkup
