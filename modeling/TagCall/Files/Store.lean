import TagCall.Files.Path

/-!
Files and folders, and the folder that paths without a root start from. Folders are known by their
entries; the root and the folders down to the working folder are always there. Permissions and links
are left out: any file can be read and replaced, any folder entered and written in, and no entry
leads to another.
-/

namespace TagCall.Files

/-- The names that lead from the root to a place. -/
abbrev Location := List String

inductive Entry where
  | folder
  | file (content : ByteArray)

instance : DecidableEq Entry
  | .folder, .folder => isTrue rfl
  | .file a, .file b => decidable_of_iff (a.data = b.data) (by cases a; cases b; simp)
  | .folder, .file _ | .file _, .folder => isFalse (by simp)

/-- Why the system refuses a path. -/
inductive Fault where
  | missing
  | occupied
  | notFolder
  | isFolder
  | tooLong
  deriving DecidableEq, Repr

namespace Fault

def number : Fault → Nat
  | missing => 2
  | occupied => 17
  | notFolder => 20
  | isFolder => 21
  | tooLong => 36

def text : Fault → String
  | missing => "No such file or directory"
  | occupied => "File exists"
  | notFolder => "Not a directory"
  | isFolder => "Is a directory"
  | tooLong => "File name too long"

end Fault

/-- Why a path can not be used. -/
inductive Error where
  /-- The system refuses the path, which is told as it was given. -/
  | fault (f : Fault) (path : String)
  /-- A path that has a null character is no path, and never gets to the system. -/
  | nullCharacter
  deriving DecidableEq, Repr

def Error.message : Error → String
  | fault f path => "[Errno " ++ toString f.number ++ "] " ++ f.text ++ ": " ++ Text.quoted path
  | nullCharacter => "embedded null byte"

def Error.isMissing : Error → Bool
  | fault .missing _ => true
  | _ => false

/-- The most bytes of a path. -/
def maxPath : Nat := 4095

/-- The most bytes of a name. -/
def maxName : Nat := 255

/-- What a path leads to. -/
inductive Target where
  | folder (location : Location)
  | file (location : Location) (content : ByteArray)
  | vacant (location : Location)

structure Store where
  /-- The working folder. -/
  base : Location := []
  entries : List (Location × Entry) := []
  deriving DecidableEq

namespace Store

def entry? (s : Store) (location : Location) : Option Entry :=
  if location.isPrefixOf s.base then some .folder
  else (s.entries.find? (·.1 = location)).map (·.2)

/-- Puts an entry at a location, in place of the one there. -/
def put (s : Store) (location : Location) (e : Entry) : Store :=
  { s with
    entries :=
      if s.entries.any (·.1 = location) then
        s.entries.map fun old => if old.1 = location then (location, e) else old
      else s.entries ++ [(location, e)] }

/-- Follows names from a folder. The empty name and `.` stay where they are; `..` goes up, from the
root to the root. -/
def follow (s : Store) : Location → List String → Except Fault Target
  | here, [] => .ok (.folder here)
  | here, name :: rest =>
    if name = "" ∨ name = "." then s.follow here rest
    else if name = ".." then s.follow here.dropLast rest
    else if maxName < name.utf8ByteSize then .error .tooLong
    else
      let next := here ++ [name]
      match s.entry? next, rest with
      | some .folder, _ => s.follow next rest
      | some (.file content), [] => .ok (.file next content)
      | some (.file _), _ :: _ => .error .notFolder
      | none, [] => .ok (.vacant next)
      | none, _ :: _ => .error .missing

/-- The places that are looked at when names are followed from a folder, whatever stands there. -/
def passed : Location → List String → List Location
  | _, [] => []
  | here, name :: rest =>
    if name = "" ∨ name = "." then passed here rest
    else if name = ".." then passed here.dropLast rest
    else (here ++ [name]) :: passed (here ++ [name]) rest

/-- Where a path starts: at the root if it has one, and else in the working folder. -/
def start (s : Store) (hasRoot : Bool) : Location :=
  if hasRoot then [] else s.base

/-- What a text leads to as a path of the given names. The empty path leads nowhere. -/
def locate (s : Store) (path : String) (hasRoot : Bool) (names : List String) :
    Except Error Target :=
  if '\x00' ∈ path.toList then .error .nullCharacter
  else if path = "" then .error (.fault .missing path)
  else if maxPath < path.utf8ByteSize then .error (.fault .tooLong path)
  else (s.follow (s.start hasRoot) names).mapError fun f => .fault f path

/-- What a path leads to, taken as it is given. -/
def seek (s : Store) (path : String) : Except Error Target :=
  s.locate path (path.toList.head? = some '/') ((splitSlashes path.toList).map String.ofList)

def target (s : Store) (p : Path) : Except Error Target :=
  s.locate p.toText (p.root ≠ "") p.names

def content (path : String) : Except Error Target → Except Error ByteArray
  | .ok (.file _ content) => .ok content
  | .ok (.folder _) => .error (.fault .isFolder path)
  | .ok (.vacant _) => .error (.fault .missing path)
  | .error e => .error e

/-- The content of the file that a path leads to, taken as it is given. -/
def readGiven (s : Store) (path : String) : Except Error ByteArray :=
  content path (s.seek path)

def read (s : Store) (p : Path) : Except Error ByteArray :=
  content p.toText (s.target p)

/-- What stands at a path, unless there is no answer. Nothing stands where a path can not be
followed; of the faults there are here, only that of a path that is too long is no answer. -/
def look (s : Store) (p : Path) : Except Error (Option Target) :=
  match s.target p with
  | .ok (.vacant _) => .ok none
  | .ok t => .ok (some t)
  | .error (.fault .tooLong path) => .error (.fault .tooLong path)
  | .error _ => .ok none

def isFolder (s : Store) (p : Path) : Except Error Bool :=
  (s.look p).map fun
    | some (.folder _) => true
    | _ => false

/-- Whether a file or a folder stands at a path. -/
def holds (s : Store) (p : Path) : Except Error Bool :=
  (s.look p).map Option.isSome

/-- Writes a file, new or in place of an older one. -/
def write (s : Store) (p : Path) (content : ByteArray) : Except Error Store :=
  match s.target p with
  | .ok (.file location _) | .ok (.vacant location) => .ok (s.put location (.file content))
  | .ok (.folder _) => .error (.fault .isFolder p.toText)
  | .error e => .error e

/-- Makes a folder where nothing stands yet. -/
def makeFolder (s : Store) (p : Path) : Except Error Store :=
  match s.target p with
  | .ok (.vacant location) => .ok (s.put location .folder)
  | .ok _ => .error (.fault .occupied p.toText)
  | .error e => .error e

/-- Makes a folder if there is none yet. -/
def ensureFolder (s : Store) (p : Path) : Except Error Store :=
  match s.makeFolder p with
  | .ok s => .ok s
  | .error e => do
    if !e.isMissing && (← s.isFolder p) then return s else throw e

/-- Makes a folder and those above it, as far as they are missing. What was made stays if a later
folder can not be made. -/
def ensureFolders (s : Store) (p : Path) : Store × Except Error Unit :=
  match s.ensureFolder p with
  | .ok s => (s, .ok ())
  | .error e =>
    if h : e.isMissing ∧ p.names ≠ [] then
      have : p.parent.names.length < p.names.length := by
        have := List.length_pos_iff.2 h.2
        simp only [Path.parent, List.length_dropLast]
        omega
      match s.ensureFolders p.parent with
      | (s, .error e) => (s, .error e)
      | (s, .ok ()) =>
        match s.ensureFolder p with
        | .ok s => (s, .ok ())
        | .error e => (s, .error e)
    else (s, .error e)
termination_by p.names.length

/-- Puts an entry at a location, and folders at the locations above it where nothing stands. -/
def plant (s : Store) (location : Location) (e : Entry) : Store :=
  let above := (List.range location.length).map location.take
  let s := above.foldl
    (fun s above => if (s.entry? above).isSome then s else s.put above .folder) s
  if (s.entry? location).isSome && e = .folder then s else s.put location e

/-- The files that are new or have another content than before. -/
def changes (before after : Store) : List (Location × ByteArray) :=
  after.entries.filterMap fun (location, e) =>
    match e with
    | .folder => none
    | .file content => if before.entry? location = some e then none else some (location, content)

/-- The folders that were not there before. -/
def newFolders (before after : Store) : List Location :=
  after.entries.filterMap fun (location, e) =>
    if e = .folder ∧ before.entry? location ≠ some .folder then some location else none

/-- The path of a location from the working folder, if it is inside. -/
def relative? (s : Store) (location : Location) : Option String :=
  if s.base.isPrefixOf location then some ("/".intercalate (location.drop s.base.length)) else none

end Store

end TagCall.Files
