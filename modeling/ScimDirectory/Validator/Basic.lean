import ScimDirectory.Declaration.Json
import ScimDirectory.Schema.Registry
import ScimDirectory.Validator.Folder

/-!
# Validating declaration files

Declaration files are checked before a service starts with them: each selected file is decoded, and
if all of them decode, one registry is built from all declarations and summed up. A file that does
not decode does not keep the others from being checked, but then nothing is built.

Two things in a report are not the validator's own: the name that it is called by, and the words in
which a reader of JSON refuses a text. A run is given both (`Validator.Setting`).

## Main definitions

* `Validator.selected`: the files that an argument selects, in their order.
* `Validator.run`: the report for a list of arguments.
-/

namespace ScimDirectory

/-- Why a selected file gives no declarations. -/
inductive FileError where
  /-- The file or folder cannot be opened, for the reason given. -/
  | unreadable (reason : String)
  /-- A folder stands where a file is expected. -/
  | isFolder
  /-- The bytes of the file are no UTF-8 text. -/
  | notText
  /-- The text of the file does not load. -/
  | load (text : String) (error : LoadError)
deriving DecidableEq, Repr

/-- The text shown for a file that gives no declarations. `refusal` tells how a text that is no JSON
is refused. -/
def FileError.message (refusal : String → String) : FileError → String
  | unreadable reason => reason
  | isFolder => "Is a directory (os error 21)"
  | notText => "stream did not contain valid UTF-8"
  | load text error => error.message (refusal text)

namespace Node

/-- The declarations that a file holds. -/
def declarations : Node → Except FileError (List ResourceDeclaration)
  | file (.ok bytes) =>
      match String.fromUTF8? bytes with
      | some text => (loadDeclarations text).mapError (.load text)
      | none => throw .notText
  | file (.error reason) | closedFolder reason => throw (.unreadable reason)
  | folder _ => throw .isFolder

end Node

/-- A line of a report, for one of its two streams. -/
inductive Line where
  | out (text : String)
  | err (text : String)
deriving DecidableEq, Repr

/-- What a run of the validator prints, and the code it ends with. -/
structure Report where
  lines : List Line
  exitCode : Nat
deriving DecidableEq, Repr

namespace Report

/-- The lines of a stream, each with its line feed. -/
def stream (report : Report) (pick : Line → Option String) : String :=
  String.join ((report.lines.filterMap pick).map (· ++ "\n"))

/-- What goes to the standard output. -/
def stdout (report : Report) : String :=
  report.stream fun
    | .out text => some text
    | .err _ => none

/-- What goes to the standard error. -/
def stderr (report : Report) : String :=
  report.stream fun
    | .out _ => none
    | .err text => some text

end Report

namespace Validator

/-- What a run is given besides its arguments and the files. -/
structure Setting where
  /-- The name that the validator is called by. -/
  program : String := "declaration-validator"
  /-- How the reader of JSON refuses a text that is none. The one used here gives no reasons. -/
  refusal : String → String := fun _ => "the text is not JSON"

/-- How a program of that name is called. -/
def usage (program : String) : List Line := [
  .err s!"Usage: {program} <declaration-file-or-directory>",
  .err "",
  .err "Examples:",
  .err s!"  {program} declarations/Device.json",
  .err s!"  {program} ./declarations/"]

/-- The ending of the names of declaration files. -/
def ending : List Char :=
  ['.', 'j', 's', 'o', 'n']

/-- The name is that of a declaration file: something, and then the ending. -/
def isDeclarationFile (name : String) : Bool :=
  let characters := name.toList
  ending.length < characters.length &&
    characters.drop (characters.length - ending.length) = ending

/-- Insert an entry into a list sorted by name. -/
def insertByName (entry : String × Node) : List (String × Node) → List (String × Node)
  | [] => [entry]
  | next :: more =>
      if next.1 < entry.1 then next :: insertByName entry more else entry :: next :: more

/-- The entries in the order of their names, character by character. -/
def sortByName (entries : List (String × Node)) : List (String × Node) :=
  entries.foldr insertByName []

/-- The path of an entry of the folder that the argument names. -/
def entryPath (argument name : String) : String :=
  if argument.toList.getLast? = some '/' then argument ++ name else argument ++ "/" ++ name

/-- **The files that an argument selects**, with their paths: the file that it names, or the
declaration files directly in the folder that it names, sorted by name. -/
def selected (argument : String) : Node → Except String (List (String × Node))
  | .closedFolder reason => throw reason
  | .folder entries =>
      return (sortByName (entries.filter fun entry => isDeclarationFile entry.1)).map
        fun (name, node) => (entryPath argument name, node)
  | node => return [(argument, node)]

/-- The lines for one selected file. -/
def fileLines (setting : Setting) (path : String) :
    Except FileError (List ResourceDeclaration) → List Line
  | .ok declarations =>
      [.out s!"Validating: {path}", .out s!"  ✓ Parsed {declarations.length} declaration(s)"]
  | .error error =>
      [.out s!"Validating: {path}", .err s!"  ❌ Invalid - {error.message setting.refusal}"]

/-- The lines that sum up one resource type. -/
def summary (resource : Resource) : List Line :=
  let attributes := resource.attributes.toList
  let complex := attributes.countP fun a => a.isComplex
  let aliased := attributes.countP fun a => a.isAliased
  let nameLines :=
    match resource.nameAttribute with
    | none => []
    | some name =>
        [Line.out s!"  Name attribute: {name} (identifier stored as '{resource.identifier}')"]
  [.out "", .out s!"{resource.name} ({resource.schema})",
    .out s!"  Attributes: {attributes.length} ({complex} complex, {aliased} aliased)"] ++
  nameLines ++
  [.out s!"  Extensions: {resource.extensions.length}"] ++
  resource.extensions.map fun extension =>
    .out s!"    - {extension.urn} ({extension.fields.length} fields)"

/-- The end of a report whose files all decode: the registry and what it holds. -/
def registryReport (declarations : List ResourceDeclaration) : Report :=
  let start := [Line.out "", .out "Building schema registry..."]
  match Registry.build declarations with
  | .ok registry =>
      { lines := start ++ [.out "✓ Schema registry built successfully"] ++
          registry.resourceTypes.flatMap summary
        exitCode := 0 }
  | .error error =>
      { lines := start ++ [.err s!"❌ Failed to build schema registry: {error.message}"]
        exitCode := 1 }

/-- The declarations of the files that decode, in the order of the files. -/
def decoded (results : List (String × Except FileError (List ResourceDeclaration))) :
    List ResourceDeclaration :=
  results.flatMap fun (_, result) => result.toOption.getD []

/-- The number of files that do not decode. -/
def failures (results : List (String × Except FileError (List ResourceDeclaration))) : Nat :=
  results.countP fun (_, result) => !result.isOk

/-- The report for the files that were selected. -/
def reportFiles (setting : Setting) (files : List (String × Node)) : Report :=
  let results := files.map fun (path, node) => (path, node.declarations)
  let lines := results.flatMap fun (path, result) => fileLines setting path result
  if failures results = 0 then
    let report := registryReport (decoded results)
    { report with lines := lines ++ report.lines }
  else
    { lines := lines ++ [.err "", .err s!"{failures results} file(s) could not be decoded"]
      exitCode := 1 }

/-- **The report of a run.** Only the first argument counts; `find?` tells what it leads to. -/
def run (arguments : List String) (find? : String → Option Node) (setting : Setting := {}) :
    Report :=
  match arguments with
  | [] => { lines := usage setting.program, exitCode := 1 }
  | argument :: _ =>
      match find? argument with
      | none =>
          { lines := [.err s!"Error: '{argument}' is not a valid file or directory"]
            exitCode := 1 }
      | some node =>
          match selected argument node with
          | .error reason =>
              { lines := [.err s!"Error reading directory: {reason}"], exitCode := 1 }
          | .ok files => reportFiles setting files

end Validator

end ScimDirectory
