import ScimDirectory.Validator.Basic

/-!
# The command line of the validator

`declaration-validator <declaration-file-or-directory>` checks declaration files. This module only
looks at the file system and prints; `Validator.run` decides what is printed.
-/

namespace ScimDirectory.Validator

/-- The contents of a file, or the reason why it cannot be read. -/
def readFile (path : String) : IO Node := do
  match ← (IO.FS.readBinFile path).toBaseIO with
  | .ok bytes => return .file (.ok bytes)
  | .error error => return .file (.error (toString error))

/-- What is read of an entry of a folder. Of a folder inside it only whether it can be opened. -/
def readEntry (path : String) : IO Node := do
  let entry := System.mkFilePath [path]
  if ← entry.isDir then
    match ← entry.readDir.toBaseIO with
    | .error error => return .closedFolder (toString error)
    | .ok _ => return .folder []
  else readFile path

/-- A folder with its declaration files read. -/
def readFolder (path : String) : IO Node := do
  match ← (System.mkFilePath [path]).readDir.toBaseIO with
  | .error error => return .closedFolder (toString error)
  | .ok found =>
      let names := (found.toList.map (·.fileName)).filter isDeclarationFile
      return .folder (← names.mapM fun name => return (name, ← readEntry (entryPath path name)))

/-- What an argument leads to: a file, or a folder with its declaration files. Devices and pipes are
neither. -/
def look (argument : String) : IO (Option Node) := do
  match ← (System.mkFilePath [argument]).metadata.toBaseIO with
  | .error _ => return none
  | .ok metadata =>
      match metadata.type with
      | .file => return some (← readFile argument)
      | .dir => return some (← readFolder argument)
      | _ => return none

/-- Print a report line by line. -/
def printReport (report : Report) : IO Unit := do
  for line in report.lines do
    match line with
    | .out text => IO.println text
    | .err text => IO.eprintln text

end ScimDirectory.Validator

open ScimDirectory Validator in
/-- Check the declaration files that the first argument names. -/
def main (arguments : List String) : IO UInt32 := do
  let found ← arguments.head?.elim (pure none) look
  -- `main` is not told the name it was called by, so the path of the program stands for it
  let program ← IO.appPath
  let report := run arguments (fun _ => found) { program := program.toString }
  printReport report
  return report.exitCode.toUInt32
