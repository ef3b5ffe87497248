import BoundMarkup.Command.Check
import BoundMarkup.Command.Render

/-!
# The command line

What the arguments of the program ask for. Options that concern all commands stand in front of the
command. An argument that does not belong where it stands makes the whole line refused.
-/

namespace BoundMarkup.Command

open Storage Text

/-- A command with what it needs to know. -/
inductive Request where
  /-- Write a configuration file. -/
  | init (replace : Bool)
  /-- Render a page. -/
  | render (request : RenderRequest)
  /-- Check pages. -/
  | check (path : String)
  /-- Clean markup. -/
  | sanitize (file : Option String)
deriving DecidableEq, Repr

/-- What a command line asks for. -/
inductive Invocation where
  /-- Run a command. -/
  | run (config : String) (verbose : Bool) (request : Request)
  /-- Show the version. -/
  | version
  /-- Show how the program is used. -/
  | help
  /-- Nothing, because it is malformed. -/
  | refused
deriving DecidableEq, Repr

/-- An option of a command line. -/
structure OptionForm where
  /-- The name behind two dashes. -/
  long : String
  /-- The letter behind one dash, if it has one. -/
  short : Option Char := none
  /-- Whether a value belongs to it. -/
  takesValue : Bool := false
deriving DecidableEq, Repr

/-- The option that shows how the program is used. -/
def helpOption : OptionForm := { long := "help", short := some 'h' }

/-- The option that shows the version. -/
def versionOption : OptionForm := { long := "version", short := some 'V' }

/-- The option that names the configuration file. -/
def configOption : OptionForm := { long := "config", short := some 'c', takesValue := true }

/-- The option that asks for details in the log. -/
def verboseOption : OptionForm := { long := "verbose", short := some 'v' }

/-- The option that allows a file to be replaced. -/
def yesOption : OptionForm := { long := "yes", short := some 'y' }

/-- The option that names the file to write. -/
def outputOption : OptionForm := { long := "output", short := some 'o', takesValue := true }

/-- The option that names the directory of local data. -/
def baseOption : OptionForm := { long := "base-dir", takesValue := true }

/-- What was read of a command line, in order. -/
inductive Word where
  /-- An option without a value. -/
  | flag (form : OptionForm)
  /-- An option with its value, which is `attached` if it belongs to the same argument. -/
  | option (form : OptionForm) (value : String) (attached : Bool)
  /-- Anything else. -/
  | plain (text : String)
deriving DecidableEq, Repr

/-- The words of one argument, up to its end or to what ends the reading. -/
inductive Reading where
  /-- The argument is complete. -/
  | words (words : List Word)
  /-- After the words comes an option whose value is the next argument. -/
  | pending (words : List Word) (form : OptionForm)
  /-- After the words comes something that does not belong here. -/
  | refused (words : List Word)
deriving DecidableEq, Repr

namespace Reading

/-- Words in front of a reading. -/
def cons (w : Word) : Reading → Reading
  | words ws => words (w :: ws)
  | pending ws form => pending (w :: ws) form
  | refused ws => refused (w :: ws)

end Reading

/-- Reads an argument behind two dashes. -/
def readLong (forms : List OptionForm) (argument : List Char) : Reading :=
  let (name, value) :=
    match cutAt ['='] argument with
    | some (name, value) => (String.ofList name, some (String.ofList value))
    | none => (String.ofList argument, none)
  match forms.find? (·.long = name) with
  | none => .refused []
  | some form =>
    match form.takesValue, value with
    | true, some value => .words [.option form value true]
    | true, none => .pending [] form
    | false, none => .words [.flag form]
    | false, some _ => .refused []

/-- Reads an argument behind one dash, letter by letter. What follows the letter of an option with
a value is the value. -/
def readShort (forms : List OptionForm) : List Char → Reading
  | [] => .words []
  | c :: rest =>
    match forms.find? (·.short = some c) with
    | none => .refused []
    | some form =>
      if form.takesValue then
        match rest with
        | [] => .pending [] form
        | '=' :: value => .words [.option form (String.ofList value) true]
        | value => .words [.option form (String.ofList value) true]
      else (readShort forms rest).cons (.flag form)

/-- Reads an argument that may be an option. -/
def readArgument (forms : List OptionForm) (argument : String) : Reading :=
  match argument.toList with
  | '-' :: '-' :: name => readLong forms name
  | ['-'] => .words [.plain argument]
  | '-' :: letters => readShort forms letters
  | _ => .words [.plain argument]

/-- Whether an argument would be taken for an option. -/
def looksLikeOption (argument : String) : Bool :=
  match argument.toList with
  | '-' :: _ :: _ => true
  | _ => false

/-- The words of a command's arguments, up to one that is refused; the second part tells whether
all were read. Behind two dashes nothing is an option. -/
def readArguments (forms : List OptionForm) : List String → List Word × Bool
  | [] => ([], true)
  | "--" :: rest => (rest.map .plain, true)
  | argument :: rest =>
    match readArgument forms argument with
    | .refused ws => (ws, false)
    | .words ws =>
      let (more, complete) := readArguments forms rest
      (ws ++ more, complete)
    | .pending ws form =>
      match rest with
      | [] => (ws, false)
      | value :: rest =>
        -- An option does not serve as the value of another.
        if looksLikeOption value then (ws, false)
        else
          let (more, complete) := readArguments forms rest
          (ws ++ .option form value false :: more, complete)

/-- The values that an option was given. -/
def valuesOf (form : OptionForm) (words : List Word) : List String :=
  words.filterMap fun
    | .option f value _ => if f = form then some value else none
    | _ => none

/-- How often an option without a value was given. -/
def timesGiven (form : OptionForm) (words : List Word) : Nat :=
  (words.filter (· = .flag form)).length

/-- The words that are no options. -/
def plainWords (words : List Word) : List String :=
  words.filterMap fun
    | .plain text => some text
    | _ => none

/-- Whether words can stand together: every option comes once, no value is empty, and there are no
more plain words than there is room for. -/
def areProper (forms : List OptionForm) (room : Nat) (words : List Word) : Bool :=
  forms.all (fun f =>
    timesGiven f words ≤ 1 && (valuesOf f words).length ≤ 1 &&
      (valuesOf f words).all (!·.isEmpty)) &&
    (plainWords words).length ≤ room && (plainWords words).all (!·.isEmpty)

/-- The request of a command with the given words. -/
def requestOf (command : String) (words : List Word) : Option Request :=
  let plain := plainWords words
  match command with
  | "init" => some (.init (timesGiven yesOption words = 1))
  | "render" =>
    plain.head?.map fun input =>
      .render {
        input
        output := (valuesOf outputOption words).head?
        baseDirectory := (valuesOf baseOption words).head? }
  | "check" => some (.check (plain.head?.getD "."))
  | "sanitize" => some (.sanitize plain.head?)
  | _ => none

/-- The options of a command and the number of its plain words. -/
def formsOf (command : String) : Option (List OptionForm × Nat) :=
  match command with
  | "init" => some ([yesOption], 0)
  | "render" => some ([outputOption, baseOption], 1)
  | "check" => some ([], 1)
  | "sanitize" => some ([], 1)
  | _ => none

/-- The words in front of the one that asks for help or for the version, with what it asks for. -/
def asked : List Word → List Word × Option Invocation
  | [] => ([], none)
  | w :: rest =>
    if w = .flag helpOption then ([], some .help)
    else if w = .flag versionOption then ([], some .version)
    else ((w :: (asked rest).1), (asked rest).2)

/-- What words ask for that may ask for help or the version; otherwise `next` decides. -/
def decide (forms : List OptionForm) (room : Nat) (words : List Word) (complete : Bool)
    (next : Invocation) : Invocation :=
  let (before, question) := asked words
  -- A question is answered only if what stands in front of it is in order.
  if !areProper forms room before then .refused
  else
    match question with
    | some invocation => invocation
    | none => if complete then next else .refused

/-- What the arguments behind the word that asks for help ask for: help on a command or on all. -/
def helpOn : List String → Invocation
  | [] => .help
  | [command] => if (formsOf command).isSome ∨ command = "help" then .help else .refused
  | _ => .refused

/-- What the arguments of a command ask for. -/
def invocationOf (config : String) (verbose : Bool) (command : String)
    (arguments : List String) : Invocation :=
  match formsOf command with
  | none => if command = "help" then helpOn arguments else .refused
  | some (forms, room) =>
    let (words, complete) := readArguments (helpOption :: forms) arguments
    decide forms room words complete
      (((requestOf command words).map (.run config verbose)).getD .refused)

/-- The words in front of the command, and the command with its arguments; `none` in place of the
command if there is none or the words are refused. -/
def splitCommand (forms : List OptionForm) :
    List String → List Word × Option (String × List String)
  | [] => ([], none)
  | "--" :: _ => ([], none)
  | argument :: rest =>
    match readArgument forms argument with
    | .refused ws => (ws, none)
    | .words [.plain command] => ([], some (command, rest))
    | .words ws =>
      let (more, command) := splitCommand forms rest
      (ws ++ more, command)
    | .pending ws form =>
      match rest with
      | [] => (ws, none)
      | value :: rest =>
        if looksLikeOption value then (ws, none)
        else
          let (more, command) := splitCommand forms rest
          (ws ++ .option form value false :: more, command)

/-- The words in front of a command that are checked before its arguments are read: all but a value
right in front of it that is an argument of its own, which is checked after them. -/
def checkedFirst : List Word → List Word
  | [] | [.option _ _ false] => []
  | w :: rest => w :: checkedFirst rest

/-- What a command line asks for. -/
def invocation (arguments : List String) : Invocation :=
  let forms := [configOption, verboseOption]
  let (words, command) := splitCommand (helpOption :: versionOption :: forms) arguments
  match command with
  | none => decide forms 0 words false .refused
  | some (command, rest) =>
    let next :=
      invocationOf ((valuesOf configOption words).head?.getD "lattice.toml")
        (timesGiven verboseOption words = 1) command rest
    -- Help on a command is given before the last of the words in front of it is checked.
    decide forms 0 (if next = .help then checkedFirst words else words) true next

end BoundMarkup.Command
