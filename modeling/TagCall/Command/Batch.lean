import TagCall.SourceFile

/-!
Compiling files one after another, each into a file beside it. A file that fails is reported and
passed over; later files see what earlier ones have written.
-/

namespace TagCall

namespace Batch

/-- What becomes of one file. -/
inductive Fate where
  | folder
  | unreadable (e : Files.Error)
  | invalid (e : SourceError)
  | unwritable (output : Files.Path) (e : Files.Error)
  | written (output : Files.Path)
  deriving DecidableEq, Repr

def Fate.isFailure : Fate → Bool
  | unreadable _ | invalid _ | unwritable .. => true
  | folder | written _ => false

def folderWarning (name : String) : Log.Line :=
  Log.warning (name ++ " is a directory, skipping")

def compileError (name message : String) : Log.Line :=
  Log.error ("Error compiling '" ++ name ++ "' (" ++ message ++ ")")

/-- How a file is reported, by the name it was given. -/
def Fate.report (name : String) : Fate → Log.Line
  | folder => folderWarning name
  | unreadable e => Log.error ("Error reading from " ++ name ++ " (" ++ e.message ++ ")")
  | invalid e => compileError name e.message
  | unwritable output e =>
    Log.error ("Error creating file " ++ output.toText ++ " (" ++ e.message ++ ")")
  | written output => Log.info ("Wrote " ++ output.toText)

abbrev Compiler := String → Except CompileError String

/-- What ends a batch early. -/
inductive Stop where
  /-- The extension can not be used. -/
  | suffix (e : Files.Path.BadSuffix)
  /-- A path that has a null character, or of which there is no answer to what stands there. -/
  | file (e : Files.Error)
  /-- The indentation can not be written out. -/
  | indent (e : Indent.Excess)
  deriving DecidableEq, Repr

/-- What a refused path comes to. -/
def refused (e : Files.Error) (fate : Fate) (s : Files.Store) : Except Stop (Fate × Files.Store) :=
  match e with
  | .fault .. => .ok (fate, s)
  | .nullCharacter => .error (.file e)

/-- Compiles one file. An extension that can not be used is met only once a file compiles. -/
def compileFile (compile : Compiler) (extension : String) (s : Files.Store) (name : String) :
    Except Stop (Fate × Files.Store) :=
  let p := Files.Path.ofText name
  match s.isFolder p with
  | .error e => .error (.file e)
  | .ok true => .ok (.folder, s)
  | .ok false =>
    match s.read p with
    | .error e => refused e (.unreadable e) s
    | .ok bytes =>
      match compile (Text.ofBytes bytes) with
      | .error (.source e) => .ok (.invalid e, s)
      | .error (.indent e) => .error (.indent e)
      | .ok result =>
        match p.withExtension extension with
        | .error e => .error (.suffix e)
        | .ok output =>
          match s.write output result.toUTF8 with
          | .error e => refused e (.unwritable output e) s
          | .ok s => .ok (.written output, s)

/-- The fates of files in order, what is stored after them, and what ended the batch early. -/
structure Run where
  fates : List (String × Fate)
  store : Files.Store
  stop : Option Stop

def run (compile : Compiler) (extension : String) (s : Files.Store) : List String → Run
  | [] => ⟨[], s, none⟩
  | name :: rest =>
    match compileFile compile extension s name with
    | .error e => ⟨[], s, some e⟩
    | .ok (fate, s) =>
      let after := run compile extension s rest
      ⟨(name, fate) :: after.fates, after.store, after.stop⟩

def Run.failures (r : Run) : Nat :=
  r.fates.countP fun fate => fate.2.isFailure

def Run.log (r : Run) : List Log.Line :=
  r.fates.map fun (name, fate) => fate.report name

/-- What a file is found to be when it is compared with its canonical form. -/
inductive Verdict where
  | folder
  | canonical
  | other
  | failed (e : SourceFile.Error)
  deriving DecidableEq, Repr

def judge (o : Layout.Options) (s : Files.Store) (name : String) : Except Stop Verdict :=
  let p := Files.Path.ofText name
  match s.isFolder p with
  | .error e => .error (.file e)
  | .ok true => .ok .folder
  | .ok false =>
    match SourceFile.isCanonical o (s.read p) with
    | .ok true => .ok .canonical
    | .ok false => .ok .other
    | .error (.file .nullCharacter) => .error (.file .nullCharacter)
    | .error (.indent e) => .error (.indent e)
    | .error e => .ok (.failed e)

def Verdict.isFailure : Verdict → Bool
  | other | failed _ => true
  | folder | canonical => false

/-- The line that tells a verdict on the standard output. -/
def Verdict.output? (name : String) : Verdict → Option String
  | canonical => some ("✓ " ++ name ++ " is formatted")
  | other => some ("✗ " ++ name ++ " needs formatting")
  | folder | failed _ => none

def Verdict.log (name : String) : Verdict → List Log.Line
  | folder => [folderWarning name]
  | canonical => []
  | other => SourceFile.compared (Files.Path.ofText name).toText (.ok false)
  | failed e => [compileError name e.message]

/-- The verdicts on files in order, and what ended the review early. -/
structure Review where
  verdicts : List (String × Verdict)
  stop : Option Stop

def review (o : Layout.Options) (s : Files.Store) : List String → Review
  | [] => ⟨[], none⟩
  | name :: rest =>
    match judge o s name with
    | .error e => ⟨[], some e⟩
    | .ok verdict =>
      let after := review o s rest
      ⟨(name, verdict) :: after.verdicts, after.stop⟩

def Review.failures (r : Review) : Nat :=
  r.verdicts.countP fun v => v.2.isFailure

def Review.output (r : Review) : List String :=
  r.verdicts.filterMap fun (name, v) => v.output? name

def Review.log (r : Review) : List Log.Line :=
  r.verdicts.flatMap fun (name, v) => v.log name

end Batch

end TagCall
