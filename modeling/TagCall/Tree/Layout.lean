import TagCall.Tree.Basic
import TagCall.Tree.Indent

/-!
The canonical source of a tree: a line for each node, and a line that closes each body. A line is
indented by its depth alone.
-/

namespace TagCall

namespace Layout

structure Options where
  indent : Indent := .standard
  ignoreComments : Bool := false
  voidTags : List String := defaultVoidTags

/-- A line, at its depth. -/
structure Line where
  depth : Nat
  chars : List Char
  deriving DecidableEq, Repr

def Line.indented (indent : Indent) (line : Line) : List Char :=
  indent.levels line.depth ++ line.chars

def attributeChars (a : Attribute) : List Char :=
  a.key.toList ++ '=' :: '"' :: (a.value.toList ++ ['"'])

/-- The first line of an element, up to its closing parenthesis. -/
def headChars (tag : String) (attributes : List Attribute) : List Char :=
  tag.toList ++ '(' :: (List.intercalate [' '] (attributes.map attributeChars) ++ [')'])

def textChars (content : String) : List Char :=
  '"' :: (content.toList ++ ['"'])

def commentChars (content : String) : List Char :=
  '/' :: '/' :: ' ' :: content.toList

/-- Whether a node is left out. -/
def isHidden (o : Options) (n : Node) : Bool :=
  o.ignoreComments && n.isComment

/-- An element around the lines of its children. -/
def bodyLines (depth : Nat) (tag : String) (attributes : List Attribute) (inner : List Line) :
    List Line :=
  ⟨depth, headChars tag attributes ++ ['{']⟩ :: (inner ++ [⟨depth, ['}']⟩])

/-- What stands in the way of indenting lines; nothing if there are none. -/
def excess? (indent : Indent) (isBlank : Bool) : Option Indent.Excess :=
  if isBlank then none else indent.excess?

/-- Lines as one text, without a newline at its end. -/
def joinLines (indent : Indent) (lines : List Line) : List Char :=
  List.intercalate ['\n'] (lines.map (Line.indented indent))

end Layout

mutual

def Node.lines (o : Layout.Options) (depth : Nat) : Node → List Layout.Line
  | .element tag attributes children =>
    if tag ∈ o.voidTags then [⟨depth, Layout.headChars tag attributes⟩]
    else Layout.bodyLines depth tag attributes (Node.allLines o (depth + 1) children)
  | .text content => [⟨depth, Layout.textChars content⟩]
  | .comment content => [⟨depth, Layout.commentChars content⟩]

def Node.allLines (o : Layout.Options) (depth : Nat) : List Node → List Layout.Line
  | [] => []
  | n :: rest =>
    if Layout.isHidden o n then Node.allLines o depth rest
    else n.lines o depth ++ Node.allLines o depth rest

end

def Document.layout (o : Layout.Options) (d : Document) : String :=
  String.ofList (Layout.joinLines o.indent (Node.allLines o 0 d.nodes))

/-- The canonical source, if the indentation of its lines can be written out. -/
def Document.layout? (o : Layout.Options) (d : Document) : Except Indent.Excess String :=
  match Layout.excess? o.indent (d.nodes.all (Layout.isHidden o)) with
  | some e => .error e
  | none => .ok (d.layout o)

end TagCall
