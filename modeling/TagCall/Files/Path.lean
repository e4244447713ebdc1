import TagCall.Text.Quoted

/-!
Paths: a root, which is empty for a path from the working folder, and names below it. Two paths
that differ by repeated slashes or by names `.` are the same; a name `..` is kept.
-/

namespace TagCall.Files

/-- Cuts a text at its slashes. -/
def splitSlashes : List Char → List (List Char)
  | [] => [[]]
  | '/' :: rest => [] :: splitSlashes rest
  | c :: rest =>
    match splitSlashes rest with
    | [] => [[c]]
    | first :: more => (c :: first) :: more

structure Path where
  root : String := ""
  names : List String
  deriving DecidableEq, Repr

namespace Path

/-- Two slashes in front are a root of their own; any other number of them is one. -/
def rootOf (cs : List Char) : String :=
  match (cs.takeWhile (· = '/')).length with
  | 0 => ""
  | 2 => "//"
  | _ => "/"

def ofText (s : String) : Path :=
  let names := (splitSlashes s.toList).map String.ofList
  ⟨rootOf s.toList, names.filter fun n => n ≠ "" ∧ n ≠ "."⟩

/-- The path as text; the working folder itself is a point. -/
def toText (p : Path) : String :=
  if p.root = "" ∧ p.names = [] then "."
  else p.root ++ "/".intercalate p.names

/-- The path without its last name. -/
def parent (p : Path) : Path :=
  { p with names := p.names.dropLast }

/-- The name up to its suffix: what stands before the last point, if neither that nor what follows
the point is empty. -/
def stem (name : List Char) : List Char :=
  let tail := name.reverse.takeWhile (· ≠ '.')
  let front := (name.reverse.drop (tail.length + 1)).reverse
  if tail.isEmpty || front.isEmpty then name else front

/-- A suffix that no file name can end in. -/
structure BadSuffix where
  suffix : String
  deriving DecidableEq, Repr

def BadSuffix.message (e : BadSuffix) : String :=
  "Invalid suffix " ++ Text.quoted e.suffix

/-- The path with `extension` in place of the suffix of its last name. -/
def withExtension (p : Path) (extension : String) : Except BadSuffix Path :=
  if extension = "" ∨ '/' ∈ extension.toList then .error ⟨"." ++ extension⟩
  else
    let last := (p.names.getLast?.getD "").toList
    .ok { p with
      names := p.names.dropLast ++ [String.ofList (stem last ++ '.' :: extension.toList)] }

end Path

end TagCall.Files
