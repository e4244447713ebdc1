import TagCall.Command.Arguments
import TagCall.Setting.Basic

/-!
The commands: their options and operands, and their help texts. The first part of a help text, up to
its first empty line, is the usage.
-/

namespace TagCall.Command

/-- The commands of the program. -/
inductive Verb where
  | html
  | layout
  | tree
  | config
  deriving DecidableEq, Repr

namespace Verb

def word : Verb → String
  | html => "html"
  | layout => "format"
  | tree => "parse"
  | config => "config"

def all : List Verb := [html, layout, tree, config]

def ofWord? (s : String) : Option Verb :=
  all.find? (·.word = s)

end Verb

def programName : String := "jtml"

def versionText : String := "jtml 0.1.0"

def helpFlag : Arguments.Flag := ⟨["-h", "--help"], .help⟩

def commentsFlag : Arguments.Flag := ⟨["--ignore-comments"], .mark⟩

/-- The options in front of the command. -/
def programGrammar : Arguments.Grammar :=
  ⟨[helpFlag, ⟨["--version"], .version⟩, ⟨["-v", "--verbose"], .mark⟩, ⟨["--config"], .value⟩],
    .tail⟩

def Verb.grammar : Verb → Arguments.Grammar
  | html => ⟨[helpFlag, commentsFlag], .many "files"⟩
  | layout =>
    ⟨[helpFlag, commentsFlag, ⟨["--indent"], .value⟩, ⟨["-c", "--check"], .mark⟩], .many "files"⟩
  | tree => ⟨[helpFlag, ⟨["--json"], .mark⟩, ⟨["-l", "--list"], .mark⟩], .one "file"⟩
  | config => ⟨[helpFlag, ⟨["--write"], .value⟩], .none⟩

/-- Lines as a text, each with a newline. -/
def unlines (lines : List String) : String :=
  String.join (lines.map (· ++ "\n"))

def programUsage : List String := [
  "usage: jtml [-h] [--version] [-v] [--config CONFIG]",
  "            \x7bhtml,format,parse,config\x7d ..."]

def programHelp : List String := programUsage ++ [
  "",
  "Compile jtml to HTML and format jtml source",
  "",
  "positional arguments:",
  "  \x7bhtml,format,parse,config\x7d",
  "                        Commands",
  "    html                Compile jtml files to HTML",
  "    format              Format jtml files",
  "    parse               Parse a jtml file",
  "    config              Show or write configuration",
  "",
  "options:",
  "  -h, --help            show this help message and exit",
  "  --version             show program's version number and exit",
  "  -v, --verbose         Enable debug logging",
  "  --config CONFIG       Path to a YAML config file",
  "",
  "Examples:",
  "    jtml html index.jtml about.jtml",
  "    jtml format index.jtml --indent tab",
  "    jtml format --check pages/*.jtml",
  "    jtml parse index.jtml --json"]

def Verb.usage : Verb → List String
  | html => ["usage: jtml html [-h] [--ignore-comments] files [files ...]"]
  | layout => [
    "usage: jtml format [-h] [--ignore-comments] [--indent INDENT] [-c]",
    "                   files [files ...]"]
  | tree => ["usage: jtml parse [-h] [--json] [-l] file"]
  | config => ["usage: jtml config [-h] [--write PATH]"]

/-- What a help text says after the usage. -/
def Verb.details : Verb → List String
  | html => [
    "positional arguments:",
    "  files              Files to compile",
    "",
    "options:",
    "  -h, --help         show this help message and exit",
    "  --ignore-comments  Drop comments from output"]
  | layout => [
    "positional arguments:",
    "  files              Files to format",
    "",
    "options:",
    "  -h, --help         show this help message and exit",
    "  --ignore-comments  Drop comments from output",
    "  --indent INDENT    Indent per level: N spaces, 'spaces:N' or 'tab'",
    "  -c, --check        Check if files are formatted (exit 1 if not)"]
  | tree => [
    "positional arguments:",
    "  file        File to parse",
    "",
    "options:",
    "  -h, --help  show this help message and exit",
    "  --json      Print the AST as JSON",
    "  -l, --list  List the top-level nodes"]
  | config => [
    "options:",
    "  -h, --help    show this help message and exit",
    "  --write PATH  Write a default config file to PATH"]

def Verb.help (v : Verb) : List String :=
  v.usage ++ "" :: v.details

/-- A command with its options and operands. -/
inductive Task where
  | html (files : List String) (ignoreComments : Bool)
  | layout (files : List String) (ignoreComments : Bool) (indent : Option Setting) (check : Bool)
  | tree (file : String) (asJson list : Bool)
  | config (writeTo : Option String)

/-- What arguments ask for. -/
inductive Request where
  /-- A text on the standard output, and success. -/
  | text (s : String)
  /-- Refused arguments: the usage and the problem, on the error output. -/
  | refusal (s : String)
  | run (verbose : Bool) (configPath : Option String) (task : Task)

/-- The setting that an option gives: its value, or the empty sequence if it is left without one. -/
def settingOf (g : Arguments.Given) : Setting :=
  match g.value with
  | some s => .text s
  | none => .sequence []

def taskOf (v : Verb) (r : Arguments.Result) : Task :=
  let files := r.operands.getD []
  match v with
  | .html => .html files (r.has "--ignore-comments")
  | .layout =>
    .layout files (r.has "--ignore-comments") ((r.last? "--indent").map settingOf)
      (r.has "--check")
  | .tree => .tree (files.head?.getD "") (r.has "--json") (r.has "--list")
  | .config => .config (r.value? "--write")

def refuse (usage : List String) (name : String) (p : Arguments.Problem) : Request :=
  .refusal (unlines usage ++ name ++ ": error: " ++ p.message ++ "\n")

def refuseProgram (p : Arguments.Problem) : Request :=
  refuse programUsage programName p

/-- The request of a command's own arguments. What its options leave over is refused together with
what was left over before it. -/
def requestOf (program : Arguments.Result) (v : Verb) (args : List String) : Request :=
  match Arguments.read v.grammar args with
  | .error .help => .text (unlines v.help)
  | .error .version => .text (versionText ++ "\n")
  | .error (.problem p) => refuse v.usage (programName ++ " " ++ v.word) p
  | .ok r =>
    let extras := program.extras ++ r.extras
    if extras.isEmpty then .run (program.has "--verbose") (program.value? "--config") (taskOf v r)
    else refuseProgram (.unrecognized extras)

def Request.ofArguments (args : List String) : Request :=
  match Arguments.read programGrammar args with
  | .error .help => .text (unlines programHelp)
  | .error .version => .text (versionText ++ "\n")
  | .error (.problem p) => refuseProgram p
  | .ok r =>
    match r.operands with
    | some (word :: rest) =>
      match Verb.ofWord? word with
      | some v => requestOf r v rest
      | none => refuseProgram (.badChoice "command" word (Verb.all.map Verb.word))
    | _ =>
      if r.extras.isEmpty then .text (unlines programHelp)
      else refuseProgram (.unrecognized r.extras)

end TagCall.Command
