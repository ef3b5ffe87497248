import BoundMarkup.Text.Class
import BoundMarkup.Text.Search

/-!
# Fetching

Where items come from: a locator that is a web address is fetched over the network, and any other
locator names a file below a base directory.
-/

namespace BoundMarkup

open Text

/-- Why the text behind a locator cannot be had. -/
inductive FetchError where
  /-- The server answered with a status other than success. -/
  | status (url : String) (code : Nat)
  /-- The request failed. -/
  | transport (url reason : String)
  /-- The file cannot be read. -/
  | unreadable (path reason : String)
  /-- The text has no items. -/
  | payload (reason : String)
deriving DecidableEq, Repr

namespace FetchError

/-- What an error says. -/
def message : FetchError → String
  | status url code => "HTTP " ++ toString code ++ " from " ++ url
  | transport url reason => "Request to " ++ url ++ " failed: " ++ reason
  | unreadable path reason => "Failed to read " ++ path ++ ": " ++ reason
  | payload reason => "Invalid payload: " ++ reason

end FetchError

/-- A way to fetch the text behind a locator. -/
abbrev Fetcher (m : Type → Type) := String → m (Except FetchError String)

/-- Whether a text begins with a given one. -/
def beginsWith (beginning : String) (s : List Char) : Bool := (past? beginning.toList s).isSome

/-- Whether a locator is fetched over the network. -/
def isRemote (locator : String) : Bool :=
  let s := lower (locator.toList.dropWhile isBlank)
  beginsWith "http://" s || beginsWith "https://" s

/-- The file that a locator names, relative to a base directory: without a scheme, without a
query or a fragment, and never from the root. -/
def relativeFile (locator : String) : String :=
  let s := (past? "file://".toList locator.toList).getD locator.toList
  String.ofList ((s.takeWhile fun c => c ≠ '?' && c ≠ '#').dropWhile (· = '/'))

/-- A relative file name behind a directory. -/
def underDirectory (directory file : String) : String :=
  match directory.toList.getLast? with
  | none => file
  | some c => if c = '/' then directory ++ file else directory ++ "/" ++ file

/-- The file that a locator names, below a base directory. -/
def localFile (base locator : String) : String := underDirectory base (relativeFile locator)

end BoundMarkup
