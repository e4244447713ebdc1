import TagCall.Tree.Basic

/-!
HTML of a tree. Nothing is put between nodes and nothing is escaped.
-/

namespace TagCall

namespace Html

structure Options where
  ignoreComments : Bool := false
  voidTags : List String := defaultVoidTags

def attributeChars (a : Attribute) : List Char :=
  ' ' :: (a.key.toList ++ '=' :: '"' :: (a.value.toList ++ ['"']))

/-- A tag with its attributes, without the brackets. -/
def tagChars (tag : String) (attributes : List Attribute) : List Char :=
  tag.toList ++ attributes.flatMap attributeChars

/-- An element without a body. -/
def voidChars (tag : String) (attributes : List Attribute) : List Char :=
  '<' :: (tagChars tag attributes ++ ['/', '>'])

/-- An element around the HTML of its children. -/
def bodyChars (tag : String) (attributes : List Attribute) (inner : List Char) : List Char :=
  '<' :: (tagChars tag attributes ++ '>' :: (inner ++ '<' :: '/' :: (tag.toList ++ ['>'])))

def commentChars (content : String) : List Char :=
  ['<', '!', '-', '-'] ++ content.toList ++ ['-', '-', '>']

end Html

mutual

def Node.htmlChars (o : Html.Options) : Node → List Char
  | .element tag attributes children =>
    if tag ∈ o.voidTags then Html.voidChars tag attributes
    else Html.bodyChars tag attributes (Node.allHtmlChars o children)
  | .text content => content.toList
  | .comment content => if o.ignoreComments then [] else Html.commentChars content

def Node.allHtmlChars (o : Html.Options) : List Node → List Char
  | [] => []
  | n :: rest => n.htmlChars o ++ Node.allHtmlChars o rest

end

def Document.html (o : Html.Options) (d : Document) : String :=
  String.ofList (Node.allHtmlChars o d.nodes)

end TagCall
