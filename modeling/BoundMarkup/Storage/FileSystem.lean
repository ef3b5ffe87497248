import BoundMarkup.Storage.FilePath

/-!
# File systems

What the commands ask of a place where files are kept. The operations live in any monad, so the
commands run on a tree in memory as they do on a disk.
-/

namespace BoundMarkup.Storage

/-- Why a file operation fails. -/
inductive FileError where
  /-- There is nothing of that name. -/
  | notFound
  /-- A file stands where a directory is needed. -/
  | notDirectory
  /-- A directory stands where a file is needed. -/
  | isDirectory
  /-- There is something of that name. -/
  | alreadyExists
  /-- A name is too long. -/
  | nameTooLong
  /-- A name has a character that no name can have. -/
  | invalidName
  /-- Another reason, in words. -/
  | other (reason : String)
deriving DecidableEq, Repr

namespace FileError

/-- What an error says. -/
def message : FileError → String
  | notFound => "No such file or directory (os error 2)"
  | notDirectory => "Not a directory (os error 20)"
  | isDirectory => "Is a directory (os error 21)"
  | alreadyExists => "File exists (os error 17)"
  | nameTooLong => "File name too long (os error 36)"
  | invalidName => "file name contained an unexpected NUL byte"
  | other reason => reason

end FileError

/-- What a path can lead to. -/
inductive Kind where
  /-- A file. -/
  | file
  /-- A directory. -/
  | directory
deriving DecidableEq, Repr

/-- The operations on files. -/
structure FileSystem (m : Type → Type) where
  /-- What a path leads to. -/
  kind? : String → m (Option Kind)
  /-- The text of a file. -/
  read : String → m (Except FileError String)
  /-- Gives a file a text and makes the file if it is not there. -/
  write : String → String → m (Except FileError Unit)
  /-- Makes a directory. -/
  makeDirectory : String → m (Except FileError Unit)
  /-- The paths of the files at a path and below it, in any order. -/
  filesUnder : String → m (List String)

namespace FileSystem

variable {m : Type → Type} [Monad m]

/-- Makes a directory and those around it that are missing; `path :: outer` are the directories,
the innermost first. -/
def makeDirectories (fs : FileSystem m) : List String → m (Except FileError Unit)
  | [] => return .error (.other "failed to create whole tree")
  | path :: outer => do
    if path.isEmpty then return .ok ()
    -- It does not matter if the directory was there before.
    let settled (e : FileError) : m (Except FileError Unit) := do
      return if (← fs.kind? path) = some .directory then .ok () else .error e
    match ← fs.makeDirectory path with
    | .ok () => return .ok ()
    | .error .notFound =>
      match ← makeDirectories fs outer with
      | .error e => return .error e
      | .ok () =>
        match ← fs.makeDirectory path with
        | .ok () => return .ok ()
        | .error e => settled e
    | .error e => settled e

/-- Reads the files that locators name below a directory; nothing is fetched over the network. -/
def fetcher (fs : FileSystem m) (base : String) : Fetcher m := fun locator => do
  if isRemote locator then
    return .error (.transport locator "network access is not available")
  else
    let path := localFile base locator
    return match ← fs.read path with
      | .ok text => .ok text
      | .error e => .error (.unreadable path e.message)

end FileSystem

end BoundMarkup.Storage
