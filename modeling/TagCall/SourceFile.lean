import TagCall.Compile
import TagCall.Files.Store
import TagCall.Log
import TagCall.Text.Bytes

/-!
Compiling what a file holds. The content is what reading the file gave, so that a file can be named
by any kind of path.
-/

namespace TagCall.SourceFile

inductive Error where
  | file (e : Files.Error)
  | source (e : SourceError)
  | indent (e : Indent.Excess)
  deriving DecidableEq, Repr

def Error.message : Error → String
  | file e => e.message
  | source e => e.message
  | indent e => e.message

def Error.ofCompile : CompileError → Error
  | .source e => source e
  | .indent e => indent e

abbrev Content := Except Files.Error ByteArray

def text (content : Content) : Except Error String :=
  match content with
  | .ok bytes => .ok (Text.ofBytes bytes)
  | .error e => .error (.file e)

def tokens (content : Content) : Except Error (List Token) := do
  (Token.lex (← text content)).mapError fun e => .source (.token e)

def document (tags : List String) (content : Content) : Except Error Document := do
  (Document.ofSource tags (← text content)).mapError .source

def html (o : Html.Options) (content : Content) : Except Error String := do
  (Html.ofSource o (← text content)).mapError .source

def layout (o : Layout.Options) (content : Content) : Except Error String := do
  (Layout.ofSource o (← text content)).mapError .ofCompile

def isCanonical (o : Layout.Options) (content : Content) : Except Error Bool := do
  (Layout.isCanonical o (← text content)).mapError .ofCompile

/-- What is logged before a file is compiled. -/
def compiling (path : String) : Log.Line :=
  Log.debug ("Compiling " ++ path ++ " to HTML")

/-- What is logged of a file once it was compared with its canonical form. -/
def compared (path : String) : Except Error Bool → List Log.Line
  | .ok false => [Log.debug (path ++ " differs from its canonical form")]
  | _ => []

end TagCall.SourceFile
