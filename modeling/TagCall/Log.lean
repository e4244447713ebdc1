/-!
Log lines, each of a level.
-/

namespace TagCall

namespace Log

inductive Level where
  | debug
  | info
  | warning
  | error
  deriving DecidableEq, Repr

def Level.label : Level → String
  | debug => "DEBUG"
  | info => "INFO"
  | warning => "WARNING"
  | error => "ERROR"

structure Line where
  level : Level
  text : String
  deriving DecidableEq, Repr

def Line.toText (line : Line) : String :=
  line.level.label ++ ": " ++ line.text

def debug (text : String) : Line := ⟨.debug, text⟩

def info (text : String) : Line := ⟨.info, text⟩

def warning (text : String) : Line := ⟨.warning, text⟩

def error (text : String) : Line := ⟨.error, text⟩

/-- The lines that are shown: all of them, or those above the lowest level. -/
def shown (verbose : Bool) (lines : List Line) : List Line :=
  if verbose then lines else lines.filter (·.level ≠ .debug)

end Log

end TagCall
