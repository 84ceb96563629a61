/-!
# Files and folders

The part of a file system that a command looks at: a tree of named files and folders, and the paths
that lead through it.
-/

namespace ScimDirectory

/-- A file or a folder. What cannot be read carries the reason. -/
inductive Node where
  | file (contents : Except String ByteArray)
  | folder (entries : List (String × Node))
  | closedFolder (reason : String)

/-- The parts of a text between its slashes. -/
def slashParts : List Char → List (List Char)
  | [] => [[]]
  | c :: rest =>
      if c = '/' then [] :: slashParts rest
      else
        match slashParts rest with
        | [] => [[c]]
        | part :: parts => (c :: part) :: parts

namespace Node

/-- The entries of a folder. -/
def entries : Node → List (String × Node)
  | folder entries => entries
  | _ => []

/-- The node is a file. -/
def isFile : Node → Bool
  | file _ => true
  | _ => false

/-- Follow the steps of a path. `above` are the folders passed, the nearest first. A step can only
be taken from a folder; the empty step and the single dot stay in it, two dots leave it, and nothing
lies above the first folder. -/
def follow (above : List Node) (here : Node) : List String → Option Node
  | [] => some here
  | step :: steps =>
      if here.isFile then none
      else if step = "" || step = "." then follow above here steps
      else if step = ".." then
        match above with
        | [] => follow [] here steps
        | parent :: above => follow above parent steps
      else
        match here.entries.lookup step with
        | none => none
        | some next => follow (here :: above) next steps

/-- What a path leads to, seen from a folder. The empty path and paths from the root of the file
system lead nowhere. -/
def find? (folder : Node) (path : String) : Option Node :=
  if path.isEmpty || path.toList.head? = some '/' then none
  else follow [] folder ((slashParts path.toList).map String.ofList)

/-- The tree with `leaf` at the end of a path, whose folders are made as needed. -/
def place (leaf : Node) : List String → Node → Node
  | [], _ => leaf
  | step :: steps, here =>
      let next := (here.entries.lookup step).getD (folder [])
      folder ((here.entries.filter fun entry => entry.1 ≠ step) ++ [(step, place leaf steps next)])

end Node

end ScimDirectory
