import Reckon.Build.Path
import Reckon.Text.Quoted

/-!
# File trees

The files and directories that a build can see, by the components that lead to them from the working
directory. Paths from a root lead to a tree of their own, under the component `/`, and places above
the working directory begin with `..`. A path may pass through directories only, and what stands in
its way is reported with the path.
-/

namespace Reckon.Build

/-- What stands in the way of a file operation. -/
inductive Obstacle where
  | notFound
  | permissionDenied
  | alreadyExists
  | notDirectory
  | isDirectory
  /-- A name or a path with more bytes than the system takes. -/
  | nameTooLong
  /-- A path with a null character, which no system takes. -/
  | nullCharacter
  deriving DecidableEq, Repr

/-- The number of an obstacle that the system reports. -/
def Obstacle.number? : Obstacle → Option Nat
  | notFound => some 2
  | permissionDenied => some 13
  | alreadyExists => some 17
  | notDirectory => some 20
  | isDirectory => some 21
  | nameTooLong => some 36
  | nullCharacter => none

/-- The wording of an obstacle. -/
def Obstacle.message : Obstacle → String
  | notFound => "No such file or directory"
  | permissionDenied => "Permission denied"
  | alreadyExists => "File exists"
  | notDirectory => "Not a directory"
  | isDirectory => "Is a directory"
  | nameTooLong => "File name too long"
  | nullCharacter => "embedded null byte"

/-- A file operation that failed. -/
structure FileError where
  obstacle : Obstacle
  path : Path
  deriving DecidableEq, Repr

/-- The wording of a file error. -/
def FileError.message (e : FileError) : String :=
  match e.obstacle.number? with
  | some number => s!"[Errno {number}] {e.obstacle.message}: " ++ Text.quoted e.path.render
  | none => e.obstacle.message

/-- Where a file or directory is. -/
abbrev Location := List String

/-- The files and directories that a build can see. -/
structure FileTree where
  /-- The files with their text. -/
  files : List (Location × String)
  /-- The directories, but for the working directory, those above it and the root. -/
  directories : List Location
  /-- The files and directories that may not be changed. -/
  readOnly : List Location
  deriving DecidableEq, Repr, Inhabited

namespace FileTree

/-- The location of the root. -/
def rootLocation : Location := ["/"]

/-- The location is the working directory or above it. -/
def isAbove (l : Location) : Bool :=
  l.all (· == "..")

/-- The location is in the working directory. -/
def isBelow (l : Location) : Bool :=
  l.head? != some "/" && l.head? != some ".."

/-- There is a directory at a location. -/
def isDirectory (t : FileTree) (l : Location) : Bool :=
  isAbove l || l == rootLocation || t.directories.contains l

/-- The text of the file at a location. -/
def textAt? (t : FileTree) (l : Location) : Option String :=
  t.files.lookup l

/-- There is a file at a location. -/
def isFile (t : FileTree) (l : Location) : Bool :=
  (t.textAt? l).isSome

/-- Where a component leads from a directory. -/
def follow (here : Location) (part : String) : Location :=
  if part != ".." || isAbove here then here ++ [part]
  else if here = rootLocation then here
  else here.dropLast

/-- The most bytes of a name. -/
def nameLimit : Nat := 255

/-- The most bytes of a path. -/
def pathLimit : Nat := 4095

/-- Where components lead from a directory; all but the last must lead to directories. -/
def locateFrom (t : FileTree) (here : Location) : List String → Except Obstacle Location
  | [] => .ok here
  | part :: rest =>
    let next := follow here part
    if nameLimit < part.utf8ByteSize then .error .nameTooLong
    else if rest.isEmpty then .ok next
    else if t.isDirectory next then t.locateFrom next rest
    else if t.isFile next then .error .notDirectory
    else .error .notFound

/-- Where a text of a path leads. -/
def locateText (t : FileTree) (text : String) (p : Path) : Except Obstacle Location :=
  if text.toList.contains '\x00' then .error .nullCharacter
  else if pathLimit < text.utf8ByteSize then .error .nameTooLong
  else t.locateFrom (if p.root = "" then [] else rootLocation) p.parts

/-- Where a path leads. -/
def locate (t : FileTree) (p : Path) : Except FileError Location :=
  match t.locateText p.render p with
  | .ok l => .ok l
  | .error obstacle => .error ⟨obstacle, p⟩

/-- A path leads to a directory. -/
def hasDirectory (t : FileTree) (p : Path) : Bool :=
  match t.locate p with
  | .ok l => t.isDirectory l
  | .error _ => false

/-- A location may be given a new entry or a new text: neither it nor, if it is new, its directory
is read-only. -/
def mayChange (t : FileTree) (l : Location) : Bool :=
  if t.isFile l then !t.readOnly.contains l else !t.readOnly.contains l.dropLast

/-- Makes a directory, whose parent must be there. -/
def makeDirectory (t : FileTree) (p : Path) : Except FileError FileTree := do
  let l ← t.locate p
  if t.isDirectory l || t.isFile l then throw ⟨.alreadyExists, p⟩
  unless t.mayChange l do throw ⟨.permissionDenied, p⟩
  return { t with directories := t.directories ++ [l] }

/-- Makes a directory unless it is there already. -/
def ensureDirectory (t : FileTree) (p : Path) : Except FileError FileTree :=
  match t.makeDirectory p with
  | .ok t' => .ok t'
  | .error e => if t.hasDirectory p then .ok t else .error e

/-- What a change of the files comes to: the files after it, and the error if it failed. -/
abbrev Change := FileTree × Option FileError

/-- The change that leaves the files as they were if it fails. -/
def orUnchanged (t : FileTree) : Except FileError FileTree → Change
  | .ok t' => (t', none)
  | .error e => (t, some e)

/-- Makes a directory and, where they are missing, those on the way to it. The components are given
last one first: a directory is tried before its parent. Directories that were made stay when a later
one cannot be made. -/
def makeDirectoriesUp (t : FileTree) (root : String) : List String → Change
  | [] => t.orUnchanged (t.ensureDirectory ⟨root, []⟩)
  | last :: above =>
    let p : Path := ⟨root, (last :: above).reverse⟩
    match t.ensureDirectory p with
    | .ok t' => (t', none)
    | .error e =>
      if e.obstacle = .notFound then
        match t.makeDirectoriesUp root above with
        | (t', none) => t'.orUnchanged (t'.ensureDirectory p)
        | failed => failed
      else (t, some e)

/-- Makes a directory and, where they are missing, those on the way to it. -/
def makeDirectories (t : FileTree) (p : Path) : Change :=
  t.makeDirectoriesUp p.root p.parts.reverse

/-- Writes a file, whose directory must be there. -/
def writeFile (t : FileTree) (p : Path) (text : String) : Change :=
  t.orUnchanged do
    let l ← t.locate p
    if t.isDirectory l then throw ⟨.isDirectory, p⟩
    unless t.mayChange l do throw ⟨.permissionDenied, p⟩
    return { t with files := t.files.filter (fun entry => entry.1 != l) ++ [(l, text)] }

/-- The directories on the way to a location. -/
def ancestors (l : Location) : List Location :=
  (List.range l.length).filterMap fun n => if n = 0 then none else some (l.take n)

/-- The tree of some files, given by their paths from the working directory. -/
def ofFiles (files : List (String × String)) : FileTree :=
  let located := files.map fun (path, text) => ((Path.ofString path).parts, text)
  ⟨located, (located.flatMap fun (l, _) => ancestors l).eraseDups, []⟩

/-- The files in the working directory, by their paths from it. -/
def listing (t : FileTree) : List (String × String) :=
  (t.files.filter fun (l, _) => isBelow l).map fun (l, text) => ("/".intercalate l, text)

end FileTree

end Reckon.Build
