/-
This file is the command as a program: it reads the files that the command asks for, and
writes what came of it.
-/

import GoApiDoc.Command.Run

namespace GoApiDoc.Command

/-- What is at a place of the file system, if anything is. -/
partial def readEntry (place : String) : IO (Option Entry) := do
  try
    let found ← IO.FS.realPath place
    if ← found.isDir then
      let mut entries : List (String × Entry) := []
      for listed in ← found.readDir do
        if let some entry ← readEntry listed.path.toString then
          entries := (listed.fileName, entry) :: entries
      return some (.directory entries)
    else return some (.file (← IO.FS.readBinFile place).toList)
  catch _ => return none

/-- Whether there is a directory at a place, or a file, or nothing. -/
def readKind (place : Path) : IO (Option Bool) := do
  try
    return some (← (← IO.FS.realPath place.text).isDir)
  catch _ => return none

/-- Whether there can be nothing at a path, because the first of its names that is too long would
stand in a directory. -/
def isUnreachable (place : Path) : IO Bool := do
  let before := place.parts.takeWhile fun part => !isTooLongName part
  if before.length = place.parts.length then return false
  return (← readKind { place with parts := before }) == some true

/-- What is found at a root. -/
def findRoot (root : Path) : IO (Except PathFault Entry) := do
  match ← readEntry root.text with
  | some entry => return .ok entry
  | none => return .error (if ← isUnreachable root then .tooLong else .absent)

/-- Why a file cannot be written at a place, if it cannot. -/
def obstacleAt (place : Path) : IO (Option WriteFault) := do
  match ← readKind place with
  | some true => return some .isDirectory
  | some false => return none
  | none =>
    if ← isUnreachable place then return some .tooLong
    match ← readKind { place with parts := place.parts.dropLast } with
    | some true => return none
    | some false => return some .notDirectory
    | none => return some .noDirectory

/-- What is wrong with the body of a directive, in words. -/
def plainDetails : Details where
  malformed := "the body is not well-formed"
  misfits found :=
    "\n".intercalate (found.map fun misfit =>
      ".".intercalate (misfit.path.map fun
        | .name text => text
        | .index number => toString number) ++ ": " ++ misfit.reason.message)

end GoApiDoc.Command

open GoApiDoc GoApiDoc.Command

/-- Runs the command. -/
def main (words : List String) : IO UInt32 := do
  let workingDirectory := Path.ofText (← IO.currentDir).toString
  let wish := wishOf words
  let outcome ← match wish with
    | .run request =>
      let root := request.root workingDirectory
      let place := Path.ofText request.output
      pure (request.outcome plainDetails workingDirectory (← findRoot root) (← obstacleAt place))
    | .help => pure .help
    | .misuse => pure .misuse
    | .notPath => pure (.unexplainedFault .notPath)
  match wish, outcome.written with
  | .run request, some text =>
    -- A text without an encoding leaves the file empty.
    IO.FS.writeFile (Path.ofText request.output).text (text.string?.getD "")
  | _, _ => pure ()
  IO.print outcome.output
  IO.eprint outcome.errors
  return outcome.exitCode.toUInt32
