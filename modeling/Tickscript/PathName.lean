/-!
# `Tickscript.PathName`: locations and the paths that lead to them

A location is the list of names that leads to a file or folder; it starts with `/` or with `..` if
that is outside the working folder. A path is what a user writes: steps that stay, go up or go
down, from the working folder or from the root. `PathName.target` is the location that a path
leads to if every folder on the way exists; whether they do is the business of a file tree.
-/

set_option autoImplicit false

namespace Tickscript

/-- The names that lead to a file or folder. -/
abbrev Location := List String

/-- A step of a path. -/
inductive PathStep where
  | stay
  | up
  | down (name : String)
deriving DecidableEq, Repr

/-- A path as it is written, with its meaning. A path that ends in a slash asks for a folder. -/
structure PathName where
  text : String
  start : Location
  steps : List PathStep
  asFolder : Bool
deriving DecidableEq, Repr

/-- The step that a name of a path stands for. -/
def PathStep.ofName (name : String) : PathStep :=
  if name = "" || name = "." then .stay
  else if name = ".." then .up
  else .down name

/-- The folder around a location. Nothing is around the root. -/
def Location.parent (here : Location) : Location :=
  match here.getLast? with
  | none | some ".." => here ++ [".."]
  | some "/" => here
  | some _ => here.dropLast

/-- The location that a step leads to. -/
def Location.move (here : Location) : PathStep → Location
  | .stay => here
  | .up => here.parent
  | .down name => here ++ [name]

/-- Splits a path at its slashes. -/
def splitPath : List Char → List (List Char)
  | [] => [[]]
  | c :: rest =>
    match splitPath rest with
    | [] => [[c]]
    | name :: names => if c = '/' then [] :: name :: names else (c :: name) :: names

/-- The names of a path. Slashes side by side count as one. -/
def pathNames (text : String) : List String :=
  ((splitPath text.toList).filter (!·.isEmpty)).map String.ofList

/-- Reads a path. It starts at the root if it starts with a slash, else in the working folder. -/
def PathName.ofText (text : String) : PathName where
  text := text
  start := if text.toList.head? = some '/' then ["/"] else []
  steps := (pathNames text).map .ofName
  asFolder := text.toList.getLast? = some '/'

/-- The location that a path leads to, whether or not there is anything. -/
def PathName.target (p : PathName) : Location :=
  p.steps.foldl Location.move p.start

/-- The locations that a path leads through, the last one included. -/
def PathName.visited (p : PathName) : List Location :=
  (List.range (p.steps.length + 1)).map fun count =>
    (p.steps.take count).foldl Location.move p.start

namespace Location

/-- The location that a path leads to from the working folder. -/
def ofPath (text : String) : Location :=
  (PathName.ofText text).target

/-- A location as a path. -/
def toPath : Location → String
  | "/" :: names => "/" ++ "/".intercalate names
  | names => "/".intercalate names

/-- A location as a full path; `root` is the full path of the working folder. -/
def fullPath (root : String) (location : Location) : String :=
  match location with
  | "/" :: _ => location.toPath
  | names => ((names.map PathStep.ofName).foldl Location.move (ofPath root)).toPath

/-- Whether a location is in the working folder. -/
def isInside (location : Location) : Bool :=
  location.head? ≠ some "/" && location.head? ≠ some ".."

/-- The path of a location, written in full. -/
def named (root : String) (location : Location) : PathName :=
  match location with
  | "/" :: names => ⟨location.fullPath root, ["/"], names.map .ofName, false⟩
  | names => ⟨location.fullPath root, [], names.map .ofName, false⟩

end Location

end Tickscript
