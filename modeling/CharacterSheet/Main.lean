import CharacterSheet.CommandLine
import CharacterSheet.Content.Standard

/-!
# The program

The outer layer reads the variables and the files that a run needs, runs the program on them and
prints what comes of it.
-/

namespace CharacterSheet.Program

/-- A text that holds the characters of another one. -/
def held (s : String) : String := String.ofList (Text.holdAll s.toList)

/-- The characters of a text, as the outside takes them. -/
def bare (s : String) : String := String.ofList (Text.heldChars s)

/-- The bytes of a file, unless they cannot be read. -/
def bytesOf? (path : String) : IO (Option Contents) := do
  try
    let bytes ← IO.FS.readBinFile (bare path)
    return some (.bytes (bytes.toList.map UInt8.toNat))
  catch _ => return none

/-- Adds a file to a snapshot; what cannot be read as a file counts as a folder. -/
def addFile (path : String) (root : Entry) : IO Entry := do
  match ← bytesOf? path with
  | some contents => return Entry.place (.file contents) (Path.names path) root
  | none => return Entry.place (.folder []) (Path.names path) root

/-- Adds a file, or a directory with what is in it, to a snapshot. -/
def addPath (path : String) (root : Entry) : IO Entry := do
  let place := (← IO.currentDir) / bare path
  if ← place.isDir then
    let files ← place.readDir
    let root := Entry.place (.folder []) (Path.names path) root
    files.foldlM (fun root file ↦ addFile (Path.join path (held file.fileName)) root) root
  else if ← place.pathExists then addFile path root
  else return root

/-- The variables that give settings, in small letters or in capital ones. -/
def outsideVariables : IO (Table String) := do
  let names := Settings.fieldForms.map fun f ↦ Settings.variableStem ++ f.1
  (names ++ names.map fun n ↦ n.map Char.toUpper).foldlM (fun t name ↦ do
    match ← IO.getEnv name with
    | some value => return t.set name (held value)
    | none => return t) .empty

/-- The paths that a run may look at. -/
def pathsOf (settings : Except SettingsError Settings) (arguments : List String) : List String :=
  match CommandLine.Request.ofArguments arguments with
  | .ok (.recompute character content) =>
    let directory := (settings.toOption.getD {}).contentDirectory
    [character, content.getD directory]
  | _ => []

end CharacterSheet.Program

open CharacterSheet Program in
def main (arguments : List String) : IO UInt32 := do
  let arguments := arguments.map held
  let outside ← outsideVariables
  let root ← addPath Settings.fileName (.folder [])
  let settings := Settings.ofSurroundings outside root
  let root ← (pathsOf settings arguments).foldlM (fun root path ↦ addPath path root) root
  match CommandLine.run .standard root settings arguments with
  | .ok outcome =>
    IO.print outcome.output
    return outcome.status.toUInt32
  | .error crash =>
    IO.eprintln crash.message
    return 1
