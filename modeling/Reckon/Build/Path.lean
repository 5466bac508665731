/-!
# Paths

A path is a list of components, from a root or from the working directory. Empty components and
single points are dropped when a path is read, and so is a slash at its end. A root of exactly two
slashes is kept apart from the usual root; three or more slashes are the usual one.
-/

namespace Reckon.Build

/-- A path to a file or directory. -/
structure Path where
  /-- The slashes at the front, none for a path from the working directory. -/
  root : String
  /-- The components. -/
  parts : List String
  deriving DecidableEq, Repr, Inhabited

namespace Path

/-- The components of a text divided at its slashes, `current` being the beginning of the first one,
last character first. -/
def componentsFrom (current : List Char) : List Char → List String
  | [] => [String.ofList current.reverse]
  | '/' :: rest => String.ofList current.reverse :: componentsFrom [] rest
  | c :: rest => componentsFrom (c :: current) rest

/-- The path that a text denotes. -/
def ofString (text : String) : Path :=
  let cs := text.toList
  let slashes := (cs.takeWhile (· == '/')).length
  let root := if slashes = 0 then "" else if slashes = 2 then "//" else "/"
  ⟨root, (componentsFrom [] cs).filter fun part => part != "" && part != "."⟩

/-- The text of a path; the working directory itself is a single point. -/
def render (p : Path) : String :=
  if p.root = "" ∧ p.parts = [] then "." else p.root ++ "/".intercalate p.parts

/-- The path that `q` denotes from the place of `p`; a path from a root is the same from
anywhere. -/
def join (p q : Path) : Path :=
  if q.root = "" then ⟨p.root, p.parts ++ q.parts⟩ else q

/-- The path without its last component. -/
def parent (p : Path) : Path :=
  { p with parts := p.parts.dropLast }

/-- A name with the part from its last point on replaced; a point at either end of the name does not
count. -/
def renameSuffix (suffix name : String) : String :=
  let cs := name.toList
  let extension := (cs.reverse.takeWhile (· != '.')).reverse
  let stem := cs.take (cs.length - extension.length - 1)
  if extension.isEmpty || stem.isEmpty then name ++ suffix else String.ofList stem ++ suffix

/-- The path with another suffix on its last component. -/
def withSuffix (suffix : String) (p : Path) : Path :=
  match p.parts.getLast? with
  | some name => { p with parts := p.parts.dropLast ++ [renameSuffix suffix name] }
  | none => p

end Path

end Reckon.Build
