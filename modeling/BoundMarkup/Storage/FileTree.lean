import BoundMarkup.Storage.FileSystem

/-!
# File trees

Files and directories in memory, with a working directory from which paths begin.
-/

namespace BoundMarkup.Storage

/-- The place of a file or directory, as names from the root on. -/
abbrev Location := List String

/-- Files and directories. The root is always there. -/
structure FileTree where
  /-- The texts of the files by their places. -/
  files : List (Location × String) := []
  /-- The places of the directories. -/
  directories : List Location := []
  /-- Where paths begin that do not begin at the root. -/
  workingDirectory : Location := []
deriving DecidableEq, Repr

/-- Where a path leads. -/
inductive Target where
  /-- To a file with a text. -/
  | file (place : Location) (text : String)
  /-- To a directory. -/
  | directory (place : Location)
  /-- To a place in a directory where there is nothing. -/
  | vacant (place : Location)
deriving DecidableEq, Repr

namespace FileTree

/-- What is at a place whose directory is there. -/
def at? (t : FileTree) (l : Location) : Target :=
  match t.files.lookup l with
  | some text => .file l text
  | none => if l.isEmpty || t.directories.contains l then .directory l else .vacant l

/-- The greatest number of bytes in a name. -/
def maxName : Nat := 255

/-- The number of bytes that no path reaches. -/
def pathLimit : Nat := 4096

/-- Follows parts of a path. Only directories are passed through. -/
def follow (t : FileTree) : Target → List String → Except FileError Target
  | target, [] => .ok target
  | .vacant _, _ => .error .notFound
  | .file .., _ => .error .notDirectory
  | .directory l, part :: rest =>
    if part = "." then t.follow (.directory l) rest
    else if part = ".." then t.follow (.directory l.dropLast) rest
    else if maxName < part.utf8ByteSize then .error .nameTooLong
    else t.follow (t.at? (l ++ [part])) rest

/-- Whether a path says that it leads to a directory. -/
def endsWithSlash (path : String) : Bool := path.toList.getLast? == some '/'

/-- Where a path leads. -/
def target (t : FileTree) (path : String) : Except FileError Target :=
  if path.toList.contains '\x00' then .error .invalidName
  else if path.isEmpty then .error .notFound
  else if pathLimit ≤ path.utf8ByteSize then .error .nameTooLong
  else
    -- Slashes that follow each other count as one.
    let names := ((parts path).filter (!·.isEmpty)).map String.ofList
    match t.follow (.directory (if isRooted path then [] else t.workingDirectory)) names with
    | .error e => .error e
    | .ok (.file l text) => if endsWithSlash path then .error .notDirectory else .ok (.file l text)
    | .ok target => .ok target

/-- What a path leads to, if there is anything. -/
def kind? (t : FileTree) (path : String) : Option Kind :=
  match t.target path with
  | .ok (.file ..) => some .file
  | .ok (.directory _) => some .directory
  | _ => none

/-- The text of a file. -/
def read (t : FileTree) (path : String) : Except FileError String :=
  match t.target path with
  | .error e => .error e
  | .ok (.file _ text) => .ok text
  | .ok (.directory _) => .error .isDirectory
  | .ok (.vacant _) => .error .notFound

/-- The tree in which a place holds a file with a text. -/
def put (t : FileTree) (l : Location) (text : String) : FileTree :=
  { t with files := (l, text) :: t.files.filter (·.1 ≠ l) }

/-- Gives a file a text. -/
def write (t : FileTree) (path text : String) : Except FileError FileTree :=
  match t.target path with
  | .error e => .error e
  | .ok (.file l _) => .ok (t.put l text)
  | .ok (.directory _) => .error .isDirectory
  | .ok (.vacant l) => if endsWithSlash path then .error .isDirectory else .ok (t.put l text)

/-- Makes a directory. -/
def makeDirectory (t : FileTree) (path : String) : Except FileError FileTree :=
  match t.target path with
  | .error e => .error e
  | .ok (.vacant l) => .ok { t with directories := l :: t.directories }
  | .ok _ => .error .alreadyExists

/-- What follows `front` at the beginning of a list of names. -/
def below? : (front names : Location) → Option Location
  | [], names => some names
  | _ :: _, [] => none
  | a :: front, b :: names => if a = b then below? front names else none

/-- The paths of the files at a path and below it. -/
def filesUnder (t : FileTree) (path : String) : List String :=
  match t.target path with
  | .ok (.file ..) => [path]
  | .ok (.directory l) =>
    t.files.filterMap fun f =>
      (below? l f.1).map fun names => names.foldl underDirectory path
  | _ => []

/-- The tree with a file and the directories around it; `names` lead from the working directory
to the file. -/
def addFile (t : FileTree) (names : List String) (text : String) : FileTree :=
  let l := t.workingDirectory ++ names
  let around := (List.range l.length).map fun n => l.take n
  { t.put l text with
    directories := around.filter (!t.directories.contains ·) ++ t.directories }

/-- The files below the working directory, by their paths from there. -/
def ownFiles (t : FileTree) : List (String × String) :=
  t.files.filterMap fun f =>
    (below? t.workingDirectory f.1).map fun names => (String.intercalate "/" names, f.2)

/-- Performs an operation that changes the tree if it succeeds. -/
def attempt (change : FileTree → Except FileError FileTree) :
    StateM FileTree (Except FileError Unit) := do
  match change (← get) with
  | .ok t =>
    set t
    return .ok ()
  | .error e => return .error e

/-- The operations on files, on a tree in memory. -/
def fileSystem : FileSystem (StateM FileTree) where
  kind? path := return (← get).kind? path
  read path := return (← get).read path
  write path text := attempt (·.write path text)
  makeDirectory path := attempt (·.makeDirectory path)
  filesUnder path := return (← get).filesUnder path

end FileTree

end BoundMarkup.Storage
