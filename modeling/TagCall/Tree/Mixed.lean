import TagCall.Tree.Html
import TagCall.Tree.Layout

/-!
Trees put together from outside, in which things that are no nodes can stand among the children.
They are rendered as far as such a thing is not met; inside an element without a body nothing is.
-/

namespace TagCall

inductive Mixed where
  | node (n : Node)
  | element (tag : String) (attributes : List Attribute) (children : List Mixed)
  | foreign (typeName : String)

namespace Mixed

/-- A thing that can not be rendered, by the name of its type. -/
structure NotANode where
  typeName : String

mutual

def htmlChars (o : Html.Options) : Mixed → Except NotANode (List Char)
  | node n => .ok (n.htmlChars o)
  | element tag attributes children =>
    if tag ∈ o.voidTags then .ok (Html.voidChars tag attributes)
    else (allHtmlChars o children).map (Html.bodyChars tag attributes)
  | foreign name => .error ⟨name⟩

def allHtmlChars (o : Html.Options) : List Mixed → Except NotANode (List Char)
  | [] => .ok []
  | m :: rest => do return (← m.htmlChars o) ++ (← allHtmlChars o rest)

end

mutual

def lines (o : Layout.Options) (depth : Nat) : Mixed → Except NotANode (List Layout.Line)
  | node n => .ok (Node.allLines o depth [n])
  | element tag attributes children =>
    if tag ∈ o.voidTags then .ok [⟨depth, Layout.headChars tag attributes⟩]
    else (allLines o (depth + 1) children).map (Layout.bodyLines depth tag attributes)
  | foreign name => .error ⟨name⟩

def allLines (o : Layout.Options) (depth : Nat) : List Mixed → Except NotANode (List Layout.Line)
  | [] => .ok []
  | m :: rest => do return (← m.lines o depth) ++ (← allLines o depth rest)

end

/-- The HTML of siblings; the error's text if one of them can not be rendered. -/
def html (o : Html.Options) (siblings : List Mixed) : Except String String :=
  match allHtmlChars o siblings with
  | .ok cs => .ok (String.ofList cs)
  | .error e => .error ("Cannot render " ++ e.typeName)

/-- The canonical source of siblings; the error's text if one of them can not be rendered. -/
def layout (o : Layout.Options) (siblings : List Mixed) : Except String String :=
  match allLines o 0 siblings with
  | .ok lines => .ok (String.ofList (Layout.joinLines o.indent lines))
  | .error e => .error ("Cannot format " ++ e.typeName)

end Mixed

end TagCall
