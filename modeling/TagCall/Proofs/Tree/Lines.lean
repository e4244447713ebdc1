import TagCall.Proofs.Token.Join
import TagCall.Proofs.Tree.Grammar
import TagCall.Tree.Layout

/-!
# The tokens of the canonical source

The lines of a tree are read as the tokens that the grammar gives to it, if its strings can stand in
a source text. One carriage return at the end of a comment is lost, and hidden comments are not
there.
-/

namespace TagCall

open Grammar Layout Token

/-- The strings of a node can stand in a source text, and it has children only where its tag allows
a body. -/
def Node.IsWritable (tags : List String) : Node → Prop
  | .element tag attributes children =>
    IsName tag.toList ∧ (∀ a ∈ attributes, IsName a.key.toList ∧ IsBody a.value.toList) ∧
      (tag ∈ tags → children = [])
  | .text content => IsBody content.toList
  | .comment content => '\n' ∉ content.toList

lemma Node.IsWritable.isBareIfVoid {tags : List String} {n : Node} (h : n.IsWritable tags) :
    n.IsBareIfVoid tags := by
  cases n with
  | element tag attributes children => exact h.2.2
  | text content => trivial
  | comment content => trivial

mutual

/-- What the canonical source keeps of a tree. -/
def Node.kept (o : Layout.Options) : Node → Node
  | .element tag attributes children => .element tag attributes (Node.allKept o children)
  | .text content => .text content
  | .comment content => .comment (String.ofList (dropReturn content.toList))

def Node.allKept (o : Layout.Options) : List Node → List Node
  | [] => []
  | n :: rest => if isHidden o n then Node.allKept o rest else n.kept o :: Node.allKept o rest

end

def Document.kept (o : Layout.Options) (d : Document) : Document :=
  ⟨Node.allKept o d.nodes⟩

section

variable (o : Layout.Options) (rest : List Node)

@[simp]
lemma Node.allKept_text (content : String) :
    Node.allKept o (.text content :: rest) = .text content :: Node.allKept o rest := by
  simp [Node.allKept, Node.kept, isHidden, Node.isComment]

@[simp]
lemma Node.allKept_comment (content : String) :
    Node.allKept o (.comment content :: rest) =
      if o.ignoreComments then Node.allKept o rest
      else .comment (String.ofList (dropReturn content.toList)) :: Node.allKept o rest := by
  simp [Node.allKept, Node.kept, isHidden, Node.isComment]

@[simp]
lemma Node.allKept_element (tag : String) (attributes : List Attribute) (children : List Node) :
    Node.allKept o (.element tag attributes children :: rest) =
      .element tag attributes (Node.allKept o children) :: Node.allKept o rest := by
  simp [Node.allKept, Node.kept, isHidden, Node.isComment]

@[simp]
lemma Node.allLines_text (depth : Nat) (content : String) :
    Node.allLines o depth (.text content :: rest) =
      ⟨depth, textChars content⟩ :: Node.allLines o depth rest := by
  simp [Node.allLines, Node.lines, isHidden, Node.isComment]

@[simp]
lemma Node.allLines_comment (depth : Nat) (content : String) :
    Node.allLines o depth (.comment content :: rest) =
      if o.ignoreComments then Node.allLines o depth rest
      else ⟨depth, commentChars content⟩ :: Node.allLines o depth rest := by
  simp [Node.allLines, Node.lines, isHidden, Node.isComment]

@[simp]
lemma Node.allLines_element (depth : Nat) (tag : String) (attributes : List Attribute)
    (children : List Node) :
    Node.allLines o depth (.element tag attributes children :: rest) =
      (if tag ∈ o.voidTags then [⟨depth, headChars tag attributes⟩]
        else bodyLines depth tag attributes (Node.allLines o (depth + 1) children)) ++
        Node.allLines o depth rest := by
  simp [Node.allLines, Node.lines, isHidden, Node.isComment]

end

/-! ### Lines -/

lemma lexes_attribute {a : Attribute} {after : List Char} {ts : List Token}
    (hkey : IsName a.key.toList) (hvalue : IsBody a.value.toList) (h : Lexes after ts) :
    Lexes (attributeChars a ++ after) (a.tokens ++ ts) := by
  have htext : Spells ⟨.text, String.ofList a.value.toList⟩
      ('"' :: (a.value.toList ++ ['"'])) after := .text hvalue
  have hequals : Spells ⟨.equals, ""⟩ ['='] ('"' :: (a.value.toList ++ ['"']) ++ after) :=
    .symbol rfl
  have hname : Spells ⟨.name, String.ofList a.key.toList⟩ a.key.toList
      (['='] ++ ('"' :: (a.value.toList ++ ['"']) ++ after)) := .name hkey (by simp; decide)
  have hall := Lexes.cons hname (.cons hequals (.cons htext h))
  rw [String.ofList_toList, String.ofList_toList] at hall
  simpa [attributeChars, Attribute.tokens] using hall

lemma lexes_attributes {as : List Attribute} {after : List Char} {ts : List Token}
    (has : ∀ a ∈ as, IsName a.key.toList ∧ IsBody a.value.toList) (h : Lexes after ts) :
    Lexes (List.intercalate [' '] (as.map attributeChars) ++ after)
      (as.flatMap Attribute.tokens ++ ts) := by
  induction as with
  | nil => exact h
  | cons a as ih =>
    obtain ⟨⟨hkey, hvalue⟩, hrest⟩ := List.forall_mem_cons.1 has
    have hmore := ih hrest
    cases as with
    | nil => simpa using lexes_attribute hkey hvalue h
    | cons b as =>
      have hblanks : ∀ c ∈ [' '], Text.isBlank c := by simp [Text.isBlank_space]
      have hall := lexes_attribute hkey hvalue (hmore.blanks hblanks)
      rw [List.map_cons] at hall
      rw [List.map_cons, List.map_cons, List.intercalate_cons_cons, List.flatMap_cons]
      simpa only [List.append_assoc] using hall

lemma lexes_head {tag : String} {as : List Attribute} {after : List Char} {ts : List Token}
    (htag : IsName tag.toList) (has : ∀ a ∈ as, IsName a.key.toList ∧ IsBody a.value.toList)
    (h : Lexes after ts) : Lexes (headChars tag as ++ after) (headTokens tag as ++ ts) := by
  have hclose : Spells ⟨.closeParen, ""⟩ [')'] after := .symbol rfl
  have hinside := lexes_attributes has (Lexes.cons hclose h)
  generalize hchars : List.intercalate [' '] (as.map attributeChars) ++ ([')'] ++ after) = inside
    at hinside
  have hopen : Spells ⟨.openParen, ""⟩ ['('] inside := .symbol rfl
  have hname : Spells ⟨.name, String.ofList tag.toList⟩ tag.toList (['('] ++ inside) :=
    .name htag (by simp; decide)
  have hall := Lexes.cons hname (.cons hopen hinside)
  rw [String.ofList_toList, ← hchars] at hall
  simpa [headChars, headTokens, startTokens] using hall

lemma lexes_symbol {c : Char} {kind : Kind} (h : Kind.ofSymbol? c = some kind) :
    Lexes [c] [⟨kind, ""⟩] := by
  have hspells : Spells ⟨kind, ""⟩ [c] [] := .symbol h
  exact Lexes.cons hspells (lexes_of_blank (by simp))

lemma lexes_text {content : String} (h : IsBody content.toList) :
    Lexes (textChars content) [⟨.text, content⟩] := by
  have hspells : Spells ⟨.text, String.ofList content.toList⟩ (textChars content) [] := .text h
  have hall := Lexes.cons hspells (lexes_of_blank (by simp))
  rwa [String.ofList_toList, List.append_nil] at hall

/-- The space that is written behind the slashes is the one that is dropped. -/
lemma dropSpace_dropReturn_space (line : List Char) :
    dropSpace (dropReturn (' ' :: line)) = dropReturn line := by
  cases line with
  | nil => rfl
  | cons c line =>
    unfold dropReturn
    rw [List.getLast?_cons_cons]
    split
    · rw [List.dropLast_cons_of_ne_nil (by simp)]
      rfl
    · rfl

lemma lexes_comment {content : String} (h : '\n' ∉ content.toList) :
    Lexes (commentChars content) [⟨.comment, String.ofList (dropReturn content.toList)⟩] := by
  have hline : '\n' ∉ ' ' :: content.toList := by simpa using h
  have hspells : Spells ⟨.comment, _⟩ ('/' :: '/' :: ' ' :: content.toList) [] :=
    .comment hline (by simp)
  rw [dropSpace_dropReturn_space] at hspells
  have hall := Lexes.cons hspells (lexes_of_blank (by simp))
  rwa [List.append_nil] at hall

/-! ### Lines one after another -/

lemma isBlank_of_mem_levels {depth : Nat} {indent : Indent} :
    ∀ c ∈ indent.levels depth, Text.isBlank c := by
  intro c hc
  cases indent with
  | spaces width => rw [List.eq_of_mem_replicate hc, Text.isBlank_space]
  | tab =>
    rw [List.eq_of_mem_replicate hc]
    decide

lemma joinLines_singleton (indent : Indent) (line : Line) :
    joinLines indent [line] = line.indented indent := by
  rw [joinLines, List.map_singleton, List.intercalate_singleton]

lemma lexes_line {chars : List Char} {ts : List Token} (indent : Indent) (depth : Nat)
    (h : Lexes chars ts) : Lexes (joinLines indent [⟨depth, chars⟩]) ts := by
  rw [joinLines_singleton]
  exact h.blanks isBlank_of_mem_levels

lemma joinLines_cons (indent : Indent) (line : Line) {lines : List Line} (h : lines ≠ []) :
    joinLines indent (line :: lines) = line.indented indent ++ '\n' :: joinLines indent lines := by
  have hmap : lines.map (Line.indented indent) ≠ [] := by simpa using h
  rw [joinLines, List.map_cons, List.intercalate_cons_of_ne_nil hmap, List.append_assoc]
  rfl

lemma joinLines_append (indent : Indent) {lines more : List Line} (h : lines ≠ [])
    (hmore : more ≠ []) :
    joinLines indent (lines ++ more) =
      joinLines indent lines ++ '\n' :: joinLines indent more := by
  induction lines with
  | nil => exact absurd rfl h
  | cons line lines ih =>
    by_cases hlines : lines = []
    · rw [hlines, List.singleton_append, joinLines_cons indent line hmore, joinLines_singleton]
    · rw [List.cons_append, joinLines_cons indent line (by simp [hlines]),
        joinLines_cons indent line hlines, ih hlines, List.append_assoc]
      rfl

lemma lexes_append_lines {lines more : List Line} {ts us : List Token} {indent : Indent}
    (h : Lexes (joinLines indent lines) ts) (hmore : Lexes (joinLines indent more) us) :
    Lexes (joinLines indent (lines ++ more)) (ts ++ us) := by
  have hempty : Lexes (joinLines indent []) [] := lexes_of_blank (by simp [joinLines])
  by_cases hlines : lines = []
  · rw [hlines] at h
    rwa [hlines, h.unique hempty, List.nil_append, List.nil_append]
  · by_cases hlast : more = []
    · rw [hlast] at hmore
      rwa [hlast, hmore.unique hempty, List.append_nil, List.append_nil]
    · rw [joinLines_append indent hlines hlast]
      exact h.newline hmore

/-- The lines of writable siblings are read as the tokens of what is kept of them. -/
lemma lexes_allLines {o : Layout.Options} {ns : List Node}
    (h : ∀ n ∈ Node.allParts ns, n.IsWritable o.voidTags) (depth : Nat) :
    Lexes (joinLines o.indent (Node.allLines o depth ns))
      (Node.allTokens o.voidTags (Node.allKept o ns)) := by
  induction ns using Node.siblings_induction generalizing depth with
  | nil => exact lexes_of_blank (by simp [Node.allLines, joinLines])
  | text content rest ih =>
    rw [Node.forall_parts_text] at h
    rw [Node.allLines_text, Node.allKept_text]
    exact lexes_append_lines (lexes_line _ _ (lexes_text h.1)) (ih h.2 depth)
  | comment content rest ih =>
    rw [Node.forall_parts_comment] at h
    rw [Node.allLines_comment, Node.allKept_comment]
    split
    · exact ih h.2 depth
    · exact lexes_append_lines (lexes_line _ _ (lexes_comment h.1)) (ih h.2 depth)
  | element tag attributes children rest ihchildren ih =>
    obtain ⟨⟨htag, has, -⟩, hchildren, hrest⟩ := Node.forall_parts_element.1 h
    rw [Node.allLines_element, Node.allKept_element, Node.allTokens, Node.tokens]
    refine lexes_append_lines ?_ (ih hrest depth)
    split
    · have hempty : Lexes [] [] := lexes_of_blank (by simp)
      have hhead := lexes_head htag has hempty
      rw [List.append_nil, List.append_nil] at hhead
      exact lexes_line _ _ hhead
    · have hbrace : Lexes ['\x7b'] [⟨.openBrace, ""⟩] := lexes_symbol rfl
      have hopening := lexes_line o.indent depth (lexes_head htag has hbrace)
      have hclose : Lexes ['\x7d'] [⟨.closeBrace, ""⟩] := lexes_symbol rfl
      have hinner := ihchildren hchildren (depth + 1)
      exact lexes_append_lines hopening (lexes_append_lines hinner (lexes_line _ _ hclose))

end TagCall
