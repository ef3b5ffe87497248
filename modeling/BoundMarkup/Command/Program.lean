import BoundMarkup.Command.Line

/-!
# The program

A run of the program: its arguments are read, a command is run, and what it leaves is shown. An
error is shown with its causes, which are numbered if there are several.
-/

namespace BoundMarkup.Command

open Storage

variable {m : Type → Type} [Monad m]

/-- Runs a command for which the configuration is loaded first. -/
def configured (fs : FileSystem m) (config : String) (command : Config → m (Outcome Unit)) :
    m (Outcome Unit) := do
  let loaded ← loadConfig fs config
  match loaded.result with
  | .error e => return .failed e loaded.log
  | .ok c => return (← command c).after loaded.log

/-- Runs a command. `input` reads the standard input, and `config` is the configuration file. -/
def perform (fs : FileSystem m) (input : m String) (config : String) :
    Request → m (Outcome Unit)
  | .init replace => init fs config replace
  | .render request => configured fs config fun c => render fs c request
  | .check path => configured fs config fun c => check fs c path
  | .sanitize file => sanitizeFile fs input file

/-- What a run of the program leaves. -/
structure Exit where
  /-- The exit code. -/
  code : Nat
  /-- What is written to the standard output. -/
  output : String := ""
  /-- What is written to the error output, apart from the log. -/
  errors : String := ""
  /-- The log. -/
  log : List LogLine := []
deriving DecidableEq, Repr

/-- Causes, numbered from `first` on. -/
def numbered (first : Nat) : List String → List String
  | [] => []
  | cause :: rest =>
    let n := toString first
    (String.ofList (List.replicate (5 - n.length) ' ') ++ n ++ ": " ++ cause) ::
      numbered (first + 1) rest

/-- An error as it is shown, with its causes. -/
def errorText : List String → String
  | [] => ""
  | [top] => "Error: " ++ top
  | [top, cause] => "Error: " ++ top ++ "\n\nCaused by:\n    " ++ cause
  | top :: causes =>
    "Error: " ++ top ++ "\n\nCaused by:\n" ++ String.intercalate "\n" (numbered 0 causes)

/-- The lines of a log that are shown. -/
def shownLog (verbose : Bool) (log : List LogLine) : List LogLine :=
  log.filter fun l => verbose || l.level != .debug

/-- Control characters of ASCII that can steer a terminal. -/
def steeringControls : List Char := ['\x07', '\x08', '\x0c', '\x1b', '\x7f']

/-- A character of a log line as it is printed: what can steer a terminal is spelled out. -/
def printedChar (c : Char) : List Char :=
  let digits := Nat.toDigits 16 c.toNat
  if steeringControls.contains c then
    "\\x".toList ++ (if digits.length < 2 then '0' :: digits else digits)
  else if 0x80 ≤ c.toNat ∧ c.toNat ≤ 0x9F then "\\u\x7b".toList ++ digits ++ ['\x7d']
  else [c]

/-- A log line as it is printed. -/
def printedLine (l : LogLine) : LogLine :=
  { l with message := String.ofList (l.message.toList.flatMap printedChar) }

/-- What is shown of what a command leaves. -/
def exitOf (verbose : Bool) (o : Outcome Unit) : Exit where
  code := match o.result with
    | .ok () => 0
    | .error _ => 1
  output := o.output
  errors := match o.result with
    | .ok () => ""
    | .error e => errorText e.chain
  log := (shownLog verbose o.log).map printedLine

/-- How the program is used. -/
def usage : String :=
  "usage: lattice [-c FILE] [-v] " ++
    "init [-y] | render INPUT [-o FILE] [--base-dir DIR] | check [PATH] | sanitize [FILE]"

/-- Runs the program. -/
def runProgram (fs : FileSystem m) (input : m String) (arguments : List String) : m Exit := do
  match invocation arguments with
  | .refused => return { code := 2, errors := usage }
  | .help => return { code := 0, output := usage ++ "\n" }
  | .version => return { code := 0, output := "lattice 0.1.0\n" }
  | .run config verbose request =>
    return exitOf verbose (← perform fs input config request)

end BoundMarkup.Command
