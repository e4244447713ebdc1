import TagCall.Tree.Dump
import TagCall.Tree.Html
import TagCall.Tree.Layout

/-!
Trees from outside, in which any JSON value can stand for a text. In canonical source such a value
is shown as plain text. HTML needs contents that are text; and whether an element has a body can
only be told of a tag that has no parts.
-/

namespace TagCall

namespace Loose

/-- Why a tree from outside can not be rendered. -/
inductive Error where
  /-- A tag with parts, which no set of tags can be asked for. -/
  | tagWithParts
  /-- A content that is not text. -/
  | notText
  | indent (e : Indent.Excess)
  deriving DecidableEq, Repr

/-- The options of both renderings. The tags without a body can be any scalars. -/
structure Options where
  indent : Indent := .standard
  ignoreComments : Bool := false
  voidTags : List Scalar := defaultVoidTags.map Scalar.text

/-- A value as plain text; text stands for itself. A number that was read can be written. -/
def plain (v : Json) : String :=
  (Setting.ofJson v).toText

def plainAttributes (attributes : List (Attribute Json)) : List Attribute :=
  attributes.map (Attribute.map plain)

/-- Whether an element of a tag has no body. -/
def isVoidTag (tags : List Scalar) : Json → Except Error Bool
  | .scalar tag => .ok (tags.any (·.same tag))
  | _ => .error .tagWithParts

/-- A node as messages show it. -/
def describe : Node Json → String
  | .element tag attributes children =>
    s!"Element({plain tag}, {attributes.length} attributes, {children.length} children)"
  | .text content => "Text(" ++ (Setting.ofJson content).describe ++ ")"
  | .comment content => "Comment(" ++ (Setting.ofJson content).describe ++ ")"

/-- The value of the first attribute whose key equals the given one. -/
def attribute? (key : Json) (attributes : List (Attribute Json)) : Option Json :=
  (attributes.find? (·.key.equal key)).map (·.value)

def hasTag (tag : Json) : Node Json → Bool
  | .element t .. => t.equal tag
  | _ => false

/-- The elements at the top, those of one tag if one is given that is not empty. -/
def elements (d : Document Json) (tag : Json) : List (Node Json) :=
  let elements := d.nodes.filter Node.isElement
  if (Setting.ofJson tag).isTruthy then elements.filter (hasTag tag) else elements

def sameAttribute (a b : Attribute Json) : Bool :=
  a.key.same b.key && a.value.same b.value

def sameAttributes : List (Attribute Json) → List (Attribute Json) → Bool
  | [], [] => true
  | a :: as, b :: bs => sameAttribute a b && sameAttributes as bs
  | _, _ => false

mutual

/-- Whether two nodes are of one kind, with the same values and children. -/
def same : Node Json → Node Json → Bool
  | .element t as ns, .element u bs ms => t.same u && sameAttributes as bs && allSame ns ms
  | .text a, .text b => a.same b
  | .comment a, .comment b => a.same b
  | _, _ => false

def allSame : List (Node Json) → List (Node Json) → Bool
  | [], [] => true
  | n :: ns, m :: ms => same n m && allSame ns ms
  | _, _ => false

end

def sameDocument (d e : Document Json) : Bool :=
  allSame d.nodes e.nodes

mutual

def htmlChars (o : Options) : Node Json → Except Error (List Char)
  | .element tag attributes children => do
    let name := plain tag
    let attributes := plainAttributes attributes
    if ← isVoidTag o.voidTags tag then return Html.voidChars name attributes
    else return Html.bodyChars name attributes (← allHtmlChars o children)
  | .text (.text content) => .ok content.toList
  | .text _ => .error .notText
  | .comment content =>
    .ok (if o.ignoreComments then [] else Html.commentChars (plain content))

def allHtmlChars (o : Options) : List (Node Json) → Except Error (List Char)
  | [] => .ok []
  | n :: rest => do return (← htmlChars o n) ++ (← allHtmlChars o rest)

end

def html (o : Options) (d : Document Json) : Except Error String :=
  (allHtmlChars o d.nodes).map String.ofList

def isHidden (o : Options) (n : Node Json) : Bool :=
  o.ignoreComments && n.isComment

mutual

def lines (o : Options) (depth : Nat) : Node Json → Except Error (List Layout.Line)
  | .element tag attributes children => do
    let name := plain tag
    let attributes := plainAttributes attributes
    if ← isVoidTag o.voidTags tag then return [⟨depth, Layout.headChars name attributes⟩]
    else return Layout.bodyLines depth name attributes (← allLines o (depth + 1) children)
  | .text content => .ok [⟨depth, Layout.textChars (plain content)⟩]
  | .comment content => .ok [⟨depth, Layout.commentChars (plain content)⟩]

def allLines (o : Options) (depth : Nat) : List (Node Json) → Except Error (List Layout.Line)
  | [] => .ok []
  | n :: rest => do
    if isHidden o n then allLines o depth rest
    else return (← lines o depth n) ++ (← allLines o depth rest)

end

/-- The canonical source. The indentation is judged before the nodes. -/
def layout (o : Options) (d : Document Json) : Except Error String :=
  match Layout.excess? o.indent (d.nodes.all (isHidden o)) with
  | some e => .error (.indent e)
  | none =>
    (allLines o 0 d.nodes).map fun lines => String.ofList (Layout.joinLines o.indent lines)

end Loose

end TagCall
