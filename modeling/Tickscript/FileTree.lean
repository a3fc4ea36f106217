import Tickscript.PathName
import Tickscript.Table
import Tickscript.Text.Quoted

/-!
# `Tickscript.FileTree`: files as data

The tools work on a tree of files. A folder exists if it is listed or if there is a file in it,
and so do the working folder, those around it and the root. Opening a path walks it step by step,
so the first step that leads nowhere decides how it fails: a name that is too long, a name that is
missing, or a file where a folder is wanted.
-/

set_option autoImplicit false

namespace Tickscript

open Tickscript.Text

/-- A tree of files with their bytes. -/
structure FileTree where
  files : Table Location ByteArray := {}
  folders : List Location := []

/-- Why a path could not be used. -/
inductive FileFault.Cause where
  | missing
  | taken
  | notFolder
  | isFolder
  | tooLong
  | nullCharacter
deriving DecidableEq, Repr

/-- A path that could not be used, as it was written. -/
structure FileFault where
  cause : FileFault.Cause
  path : String
deriving DecidableEq, Repr

/-- The wording of a fault. -/
def FileFault.message (f : FileFault) : String :=
  match f.cause with
  | .missing => "[Errno 2] No such file or directory: " ++ quote f.path
  | .taken => "[Errno 17] File exists: " ++ quote f.path
  | .notFolder => "[Errno 20] Not a directory: " ++ quote f.path
  | .isFolder => "[Errno 21] Is a directory: " ++ quote f.path
  | .tooLong => "[Errno 36] File name too long: " ++ quote f.path
  | .nullCharacter => "embedded null byte"

/-- How many bytes a name may have. -/
def nameLimit : Nat := 255

/-- How many bytes a whole path may have. -/
def pathLimit : Nat := 4095

/-- Whether a path holds the null character, which no name can. -/
def PathName.hasNull (p : PathName) : Bool :=
  p.text.toList.contains '\x00'

/-- Refuses the texts that are no paths, wherever they might lead. -/
def PathName.check (p : PathName) : Except FileFault.Cause Unit :=
  if p.hasNull then .error .nullCharacter
  else if p.text = "" then .error .missing
  else if pathLimit < p.text.utf8ByteSize then .error .tooLong
  else .ok ()

/-- Uses a path; a fault shows the path. -/
def PathName.guarded {α : Type} (p : PathName) (action : Except FileFault.Cause α) :
    Except FileFault α :=
  match p.check with
  | .ok () => action.mapError (⟨·, p.text⟩)
  | .error cause => .error ⟨cause, p.text⟩

namespace FileTree

/-- Whether there is a file at a location. -/
def isFile (t : FileTree) (location : Location) : Bool :=
  (t.files.get? location).isSome

/-- Whether there is a folder at a location. -/
def isFolder (t : FileTree) (location : Location) : Bool :=
  -- The working folder is the empty location; those around it are made of `..` alone.
  location.all (· = "..") || location = ["/"] || t.folders.contains location ||
    t.files.keys.any fun other => location.isPrefixOf other && location != other

/-- Whether there is anything at a location. -/
def isPresent (t : FileTree) (location : Location) : Bool :=
  t.isFile location || t.isFolder location

/-- Takes a step in a folder. A name that is too long is refused before it is looked for. -/
def stepTo (here : Location) (step : PathStep) : Except FileFault.Cause Location :=
  match step with
  | .down name => if nameLimit < name.utf8ByteSize then .error .tooLong else .ok (here.move step)
  | _ => .ok (here.move step)

/-- Takes a step that must lead to a folder. -/
def enter (t : FileTree) (here : Location) (step : PathStep) :
    Except FileFault.Cause Location := do
  let next ← stepTo here step
  if t.isFolder next then return next
  else if t.isFile next then throw .notFolder
  else throw .missing

/-- Takes steps that must all lead to folders. -/
def walk (t : FileTree) (here : Location) : List PathStep → Except FileFault.Cause Location
  | [] => .ok here
  | step :: rest => do
    let next ← t.enter here step
    t.walk next rest

/-- The location of a path to look at. All steps but the last lead through folders, and the last
one too if the path asks for a folder. -/
def locate (t : FileTree) (p : PathName) : Except FileFault.Cause Location :=
  match p.steps.getLast? with
  | none => .ok p.start
  | some last => do
    let folder ← t.walk p.start p.steps.dropLast
    if p.asFolder then t.enter folder last else stepTo folder last

/-- The location of a path to write to. A path that asks for a folder is refused as one, even if
nothing is there. -/
def placeFor (t : FileTree) (p : PathName) : Except FileFault.Cause Location :=
  match p.steps.getLast? with
  | some (.down name) => do
    let folder ← t.walk p.start p.steps.dropLast
    if p.asFolder then throw .isFolder
    let location ← stepTo folder (.down name)
    if t.isFolder location then throw .isFolder
    return location
  | _ => do
    let _ ← t.walk p.start p.steps
    throw .isFolder

/-- The bytes of the file at a path. -/
def read (t : FileTree) (p : PathName) : Except FileFault ByteArray :=
  p.guarded do
    let location ← t.locate p
    match t.files.get? location with
    | some bytes => return bytes
    | none => throw (if t.isFolder location then .isFolder else .missing)

/-- Writes a file at a path, whose folder must exist. -/
def write (t : FileTree) (p : PathName) (bytes : ByteArray) : Except FileFault FileTree :=
  p.guarded do
    let location ← t.placeFor p
    return { t with files := t.files.set location bytes }

/-- Makes the folder at a path, in a folder that must exist. A folder that is there already is
kept. -/
def makeFolder (t : FileTree) (p : PathName) : Except FileFault FileTree :=
  p.guarded do
    let location ← t.locate p
    if t.isFolder location then return t
    else if t.isFile location then throw .taken
    else return { t with folders := location :: t.folders }

/-- Whether there is anything at a path. Only a path that is too long is a fault. -/
def holds (t : FileTree) (p : PathName) : Except FileFault Bool :=
  match p.guarded (t.locate p) with
  | .ok location => .ok (t.isPresent location)
  | .error fault => if fault.cause = .tooLong then .error fault else .ok false

/-- The files that are not, with the same bytes, in an earlier tree. -/
def changedSince (t earlier : FileTree) : List (Location × ByteArray) :=
  t.files.entries.filter fun entry =>
    match earlier.files.get? entry.1 with
    | some bytes => bytes.toList != entry.2.toList
    | none => true

end FileTree

end Tickscript
