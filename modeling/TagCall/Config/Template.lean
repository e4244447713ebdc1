import TagCall.Config.Load

/-!
The settings file to start from, which says what the defaults say.
-/

namespace TagCall.Config

def template : String :=
  "# jtml configuration\n" ++
  "#\n" ++
  "# Any setting here can be overridden on the command line,\n" ++
  "# indent and ignore_comments also via JTML_INDENT / JTML_IGNORE_COMMENTS.\n" ++
  "\n" ++
  "# Formatter indentation: a number of spaces, \"spaces:N\" or \"tab\"\n" ++
  "indent: \"4\"\n" ++
  "\n" ++
  "# Drop // comments from both HTML and formatted output\n" ++
  "ignore_comments: false\n" ++
  "\n" ++
  "# Tags written as tag(attrs) with no body, and as <tag/> in HTML\n" ++
  "self_terminating_tags:\n" ++
  String.join (defaultVoidTags.map fun tag => "  - " ++ tag ++ "\n") ++
  "\n" ++
  "# Output file extensions (written next to the source file)\n" ++
  "html_extension: html\n" ++
  "formatted_extension: formatted_jtml\n"

/-- Writes the settings file to start from, and the folders above it. -/
def writeTemplate (s : Files.Store) (p : Files.Path) : Files.Store × Except Files.Error Unit :=
  match s.ensureFolders p.parent with
  | (s, .error e) => (s, .error e)
  | (s, .ok ()) =>
    match s.write p template.toUTF8 with
    | .error e => (s, .error e)
    | .ok s => (s, .ok ())

end TagCall.Config
