import TagCall.Command.Batch
import TagCall.Command.Usage
import TagCall.Config.Template
import TagCall.Tree.Dump

/-!
Running the program on arguments: what it prints, logs, writes and ends with. The depth of the stack
is left out: trees of any depth are read and rendered, and no `Crash` is for one that is too deep.
-/

namespace TagCall.Command

/-- What a run can end with instead of a status. -/
inductive Crash where
  | tags (e : Config.TagError)
  | overlong (e : Overlong)
  | writing (e : Json.WriteError)
  | batch (e : Batch.Stop)
  | file (e : Files.Error)
  | config (e : Config.LoadError)
  deriving DecidableEq, Repr

def Crash.message : Crash → String
  | tags e => e.message
  | overlong e => e.message
  | writing e => e.message
  | batch (.suffix e) => e.message
  | batch (.file e) | file e => e.message
  | batch (.indent e) => e.message
  | config e => e.message

/-- The outcome of a task. -/
structure Outcome where
  status : Except Crash Nat
  output : List String := []
  log : List Log.Line := []
  store : Files.Store

/-- The outcome of a run. The two outputs are texts. -/
structure Report where
  status : Except Crash Nat
  output : String
  errors : String
  store : Files.Store

/-- What a task is run on. -/
structure Context where
  read : Setting.Reader
  environment : Environment
  configPath : Option String
  store : Files.Store

namespace Context

def failed (x : Context) (log : List Log.Line) (message : String) : Outcome :=
  { status := .ok 1, log := log ++ [Log.error message], store := x.store }

def crashed (x : Context) (log : List Log.Line) (c : Crash) : Outcome :=
  { status := .error c, log, store := x.store }

/-- A setting that can not be used is reported, but for one of tags. -/
def rejected (x : Context) (log : List Log.Line) : Config.Error → Outcome
  | .indent e => x.failed log e.message
  | .extension e => x.failed log e.message
  | .tags e => x.crashed log (.tags e)

/-- Runs a task on the configuration, of which it is given the log as well. -/
def configured (x : Context) (task : Config → List Log.Line → Outcome) : Outcome :=
  match Config.load x.read x.store x.environment x.configPath with
  | (.ok c, log) => task c log
  | (.error e, log) => x.crashed log (.config e)

/-- Status 1 if there was a failure, and 0 if not. -/
def statusOf (failures : Nat) : Nat :=
  if failures = 0 then 0 else 1

def batch (x : Context) (log : List Log.Line) (compile : Batch.Compiler)
    (extension : Except Overlong String) (files : List String) : Outcome :=
  match extension with
  | .error e => x.crashed log (.overlong e)
  | .ok extension =>
    let r := Batch.run compile extension x.store files
    { status :=
        match r.stop with
        | some e => .error (.batch e)
        | none => .ok (statusOf r.failures)
      log := log ++ r.log
      store := r.store }

def check (x : Context) (log : List Log.Line) (o : Layout.Options) (files : List String) :
    Outcome :=
  let r := Batch.review o x.store files
  { status :=
      match r.stop with
      | some e => .error (.batch e)
      | none => .ok (statusOf r.failures)
    output := r.output
    log := log ++ r.log
    store := x.store }

/-- Sets what the options of a command override. -/
def override (c : Config) (ignoreComments : Bool) (indent : Option Setting) : Config :=
  let c := if ignoreComments then { c with ignoreComments := .bool true } else c
  match indent with
  | some v => { c with indent := v }
  | none => c

def html (x : Context) (files : List String) (ignoreComments : Bool) : Outcome :=
  x.configured fun c log =>
    let c := override c ignoreComments none
    match c.htmlOptions with
    | .error e => x.crashed log (.tags e)
    | .ok o => x.batch log (fun s => (Html.ofSource o s).mapError .source) c.htmlSuffix files

def layout (x : Context) (files : List String) (ignoreComments : Bool) (indent : Option Setting)
    (check : Bool) : Outcome :=
  x.configured fun c log =>
    let c := override c ignoreComments indent
    match c.layoutOptions with
    | .error e => x.rejected log e
    | .ok o =>
      if check then x.check log o files
      else x.batch log (Layout.ofSource o) c.layoutSuffix files

/-- How many nodes are listed at most. -/
def listLimit : Nat := 20

def listing (d : Document) : List String :=
  (d.nodes.take listLimit).map (fun n => "  - " ++ n.describe) ++
    if listLimit < d.nodes.length then
      ["  ... and " ++ toString (d.nodes.length - listLimit) ++ " more"]
    else []

def summary (file : String) (d : Document) : List String := [
  "Parsed: " ++ file,
  "Top-level nodes: " ++ toString d.nodes.length,
  "Total nodes: " ++ toString (Node.totalSize d.nodes)]

/-- A file is read before the tags are judged. -/
def tree (x : Context) (file : String) (asJson list : Bool) : Outcome :=
  x.configured fun c log =>
    match SourceFile.text (x.store.readGiven file) with
    | .error (.file .nullCharacter) => x.crashed log (.file .nullCharacter)
    | .error e => x.failed log ("Parse error: " ++ e.message)
    | .ok source =>
      match c.tagNames with
      | .error e => x.crashed log (.tags e)
      | .ok tags =>
        match Document.ofSource tags source with
        | .error e => x.failed log ("Parse error: " ++ e.message)
        | .ok d =>
          let output :=
            if asJson then [d.dump]
            else summary file d ++ if list then listing d else []
          { status := .ok 0, output, log, store := x.store }

/-- The configuration is shown as JSON, unless a tag in it can not be written. -/
def showConfig (x : Context) : Outcome :=
  x.configured fun c log =>
    match c.toJson with
    | .error e => x.rejected log e
    | .ok v =>
      match v.indented with
      | .error e => x.crashed log (.writing e)
      | .ok s => { status := .ok 0, output := [s], log, store := x.store }

def writeConfig (x : Context) (path : String) : Outcome :=
  let p := Files.Path.ofText path
  match Config.writeTemplate x.store p with
  | (store, .ok ()) =>
    { status := .ok 0, output := ["Wrote default config to " ++ p.toText], store }
  | (store, .error e) => { status := .error (.file e), store }

def perform (x : Context) : Task → Outcome
  | .html files ignoreComments => x.html files ignoreComments
  | .layout files ignoreComments indent check => x.layout files ignoreComments indent check
  | .tree file asJson list => x.tree file asJson list
  | .config none | .config (some "") => x.showConfig
  | .config (some path) => x.writeConfig path

end Context

/-- Runs the program. The path of a settings file is taken in its normal form. -/
def run (read : Setting.Reader) (env : Environment) (s : Files.Store)
    (args : List String) : Report :=
  match Request.ofArguments args with
  | .text output => ⟨.ok 0, output, "", s⟩
  | .refusal errors => ⟨.ok 2, "", errors, s⟩
  | .run verbose configPath task =>
    let configPath := configPath.map fun p => (Files.Path.ofText p).toText
    let r := Context.perform ⟨read, env, configPath, s⟩ task
    ⟨r.status, unlines r.output, unlines ((Log.shown verbose r.log).map Log.Line.toText), r.store⟩

end TagCall.Command
