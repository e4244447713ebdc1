import TagCall.Config.Basic
import TagCall.Files.Store
import TagCall.Log

/-!
Where a configuration comes from: the defaults, then the first settings file that is accepted, then
the environment. A file is taken as a whole or not at all. How a file reads as a value is a
parameter. A number that is out of range ends the search.
-/

namespace TagCall

/-- The surroundings of a run, as far as they matter. -/
structure Environment where
  home : String
  indent : Option String := none
  ignoreComments : Option String := none
  deriving DecidableEq, Repr

namespace Config

/-- Why a settings file is not taken. -/
inductive Rejection where
  | file (e : Files.Error)
  | unreadable
  | outOfRange
  | notMapping
  | badTags
  deriving DecidableEq, Repr

def Rejection.message : Rejection → String
  | file e => e.message
  | unreadable => "<unreadable>"
  | outOfRange => "a number is out of range"
  | notMapping => "top level must be a mapping"
  | badTags => "self_terminating_tags must be a list of tag names"

/-- Whether the tags of a settings file can be taken: they are a list, or are left out. -/
def hasGoodTags (entries : List (Scalar × Setting)) : Bool :=
  match Setting.entry? "self_terminating_tags" entries with
  | none | some .null | some (.sequence _) => true
  | _ => false

/-- The settings that the value of a file stands for. An empty value, or no, stands for none. -/
def settingsOf (v : Setting) : Except Rejection (List (Scalar × Setting)) :=
  match v with
  | .mapping entries => if hasGoodTags entries then .ok entries else .error .badTags
  | v => if v.isTruthy then .error .notMapping else .ok []

/-- Why a file that gives no value is not taken. -/
def Rejection.ofRead : Setting.Failure → Rejection
  | .unreadable => unreadable
  | .outOfRange => outOfRange

def settingsAt (read : Setting.Reader) (s : Files.Store) (p : Files.Path) :
    Except Rejection (List (Scalar × Setting)) :=
  match s.read p with
  | .error e => .error (.file e)
  | .ok bytes => (read bytes).mapError .ofRead >>= settingsOf

/-- Why there is no configuration. -/
inductive LoadError where
  | file (e : Files.Error)
  | outOfRange
  deriving DecidableEq, Repr

def LoadError.message : LoadError → String
  | file e => e.message
  | outOfRange => Rejection.message .outOfRange

/-- The defaults under the settings of the first file that is taken. -/
def firstOf (read : Setting.Reader) (s : Files.Store) :
    List Files.Path → Except LoadError Config × List Log.Line
  | [] => (.ok {}, [])
  | p :: rest =>
    match s.holds p with
    | .error e => (.error (.file e), [])
    | .ok false => firstOf read s rest
    | .ok true =>
      match settingsAt read s p with
      | .ok entries =>
        (.ok { Config.overlay {} entries with file := some p },
          [Log.debug ("Loaded config from " ++ p.toText)])
      | .error .outOfRange => (.error .outOfRange, [])
      | .error r =>
        let (c, log) := firstOf read s rest
        (c, Log.warning ("Failed to load config from " ++ p.toText ++ ": " ++ r.message) :: log)

/-- The place of a user's own settings file. -/
def homePath (env : Environment) : Files.Path :=
  let home := Files.Path.ofText env.home
  { home with names := home.names ++ [".jtml", "config.yaml"] }

/-- The files that are tried where no path is given. -/
def searchPaths (env : Environment) : List Files.Path :=
  [Files.Path.ofText "jtml.yaml", homePath env]

/-- Overrides the settings that the environment has. -/
def underEnvironment (c : Config) (env : Environment) : Config :=
  let c :=
    match env.indent with
    | some s => { c with indent := .text s }
    | none => c
  match env.ignoreComments with
  | some s => { c with ignoreComments := .bool (isYes s) }
  | none => c

/-- What is said of a configuration that was to come from a given path but does not. -/
def missingFile (path : String) (c : Config) : List Log.Line :=
  if c.file.isNone then
    [Log.warning ("Config file " ++ path ++ " not found, using defaults")]
  else []

/-- The configuration from a given path, or from the search paths. An empty path is none. -/
def load (read : Setting.Reader) (s : Files.Store) (env : Environment)
    (path : Option String) : Except LoadError Config × List Log.Line :=
  match path with
  | none | some "" =>
    let (c, log) := firstOf read s (searchPaths env)
    (c.map (·.underEnvironment env), log)
  | some path =>
    match firstOf read s [Files.Path.ofText path] with
    | (.ok c, log) => (.ok (c.underEnvironment env), log ++ missingFile path c)
    | (.error e, log) => (.error e, log)

/-- Configurations in use, numbered from 0, one of which may be the one for all who name no path. -/
structure Pool where
  members : List Config := []
  current : Option Nat := none

namespace Pool

/-- Adds a configuration, and tells its number. -/
def add (pool : Pool) (c : Config) : Pool × Nat :=
  ({ pool with members := pool.members ++ [c] }, pool.members.length)

/-- A configuration with its number, counted from the end if it is given as negative. -/
def member? (pool : Pool) (n : Int) : Option (Nat × Config) :=
  itemAt? ((List.range pool.members.length).zip pool.members) n

/-- The current configuration; a new one if there is none or if a path is given. -/
def obtain (pool : Pool) (read : Setting.Reader) (s : Files.Store) (env : Environment)
    (path : Option String) : Pool × Except LoadError Nat × List Log.Line :=
  match pool.current, path with
  | some n, none => (pool, .ok n, [])
  | _, _ =>
    match load read s env path with
    | (.ok c, log) =>
      let (pool, n) := pool.add c
      ({ pool with current := some n }, .ok n, log)
    | (.error e, log) => (pool, .error e, log)

def modify (pool : Pool) (n : Nat) (f : Config → Config) : Pool :=
  { pool with members := pool.members.modify n f }

end Pool

end Config

end TagCall
