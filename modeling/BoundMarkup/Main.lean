import BoundMarkup.Command.Program

/-!
# The command line program

Runs the program on the files of the disk. All decisions are made elsewhere; this module reads,
writes and prints.
-/

namespace BoundMarkup

open Storage

namespace Disk

/-- The reason of a failed operation. -/
def reasonOf : IO.Error → FileError
  | .noFileOrDirectory .. => .notFound
  | .alreadyExists .. => .alreadyExists
  | .inappropriateType _ code _ => if code = 21 then .isDirectory else .notDirectory
  | e => .other (toString e)

/-- Performs an operation and tells why it fails. -/
def attempt {α : Type} (act : IO α) : IO (Except FileError α) := do
  try
    return .ok (← act)
  catch e =>
    return .error (reasonOf e)

/-- What a path leads to. -/
def kind? (path : String) : IO (Option Kind) := do
  try
    let place ← IO.FS.realPath path
    return some (if ← place.isDir then .directory else .file)
  catch _ =>
    return none

/-- The paths of the files at a path and below it. -/
partial def filesUnder (path : String) : IO (List String) := do
  match ← kind? path with
  | none => return []
  | some .file => return [path]
  | some .directory =>
    let entries ← (← IO.FS.realPath path).readDir
    let inner ← entries.toList.mapM fun e => filesUnder (underDirectory path e.fileName)
    return inner.flatten

/-- The operations on the files of the disk. -/
def fileSystem : FileSystem IO where
  kind? := kind?
  read path := attempt (IO.FS.readFile path)
  write path text := attempt (IO.FS.writeFile path text)
  makeDirectory path := attempt (IO.FS.createDir path)
  filesUnder := filesUnder

end Disk

/-- The rest of a stream. -/
partial def readRest (stream : IO.FS.Stream) (text : String) : IO String := do
  let line ← stream.getLine
  if line.isEmpty then return text else readRest stream (text ++ line)

/-- Prints a line of the log. -/
def printLogLine (line : LogLine) : IO Unit :=
  IO.eprintln (line.level.name ++ " " ++ line.message)

end BoundMarkup

open BoundMarkup in
/-- Runs the program. -/
def main (arguments : List String) : IO UInt32 := do
  let input := do readRest (← IO.getStdin) ""
  let exit ← Command.runProgram Disk.fileSystem input arguments
  exit.log.forM printLogLine
  IO.print exit.output
  if !exit.errors.isEmpty then IO.eprintln exit.errors
  return exit.code.toUInt32
