import TagCall.Tree.Html
import TagCall.Tree.Layout
import TagCall.Tree.Read

/-!
From source text to HTML and to canonical source.
-/

namespace TagCall

/-- Why a source text is not compiled. -/
inductive CompileError where
  | source (e : SourceError)
  | indent (e : Indent.Excess)
  deriving DecidableEq, Repr

/-- The HTML of a source text. -/
def Html.ofSource (o : Html.Options) (source : String) : Except SourceError String :=
  (Document.ofSource o.voidTags source).map (·.html o)

/-- The canonical form of a source text. -/
def Layout.ofSource (o : Layout.Options) (source : String) : Except CompileError String := do
  let d ← (Document.ofSource o.voidTags source).mapError .source
  (d.layout? o).mapError .indent

/-- Whether a source text is its own canonical form. -/
def Layout.isCanonical (o : Layout.Options) (source : String) : Except CompileError Bool :=
  (Layout.ofSource o source).map (· = source)

end TagCall
