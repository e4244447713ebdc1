import TagCall.Proofs.Tree.Stored

/-!
# Lines and nesting

The lines of a canonical source follow a walk over the visible nodes that does not know of the
indentation (`allLines_eq_map_allWalk`). It enters each of them once, in document order
(`entered_allWalk`), and leaves each that has a body once (`left_allWalk`), right behind what is
below it (`isNested_allWalk`).
-/

namespace TagCall

open Layout

/-! ### The walk -/

inductive Visit where
  | enter (depth : Nat) (n : Node)
  | leave (depth : Nat) (n : Node)

namespace Visit

def depth : Visit → Nat
  | enter depth _ | leave depth _ => depth

def node : Visit → Node
  | enter _ n | leave _ n => n

def entered? : Visit → Option (Nat × Node)
  | enter depth n => some (depth, n)
  | leave .. => none

def left? : Visit → Option (Nat × Node)
  | enter .. => none
  | leave depth n => some (depth, n)

/-- What is written at a visit, behind the indentation. -/
def chars (tags : List String) : Visit → List Char
  | enter _ (.element tag attributes _) =>
    headChars tag attributes ++ if tag ∈ tags then [] else ['{']
  | enter _ (.text content) => textChars content
  | enter _ (.comment content) => commentChars content
  | leave .. => ['}']

def indented (indent : Indent) (tags : List String) (v : Visit) : List Char :=
  (List.replicate v.depth indent.unit).flatten ++ v.chars tags

/-- What is left of the line of a visit without the units in front. -/
def unindented (indent : Indent) (v : Visit) (line : List Char) : List Char :=
  line.drop (v.depth * indent.unit.length)

lemma unindented_indented (indent : Indent) (tags : List String) (v : Visit) :
    v.unindented indent (v.indented indent tags) = v.chars tags := by
  unfold unindented indented
  rw [List.drop_left']
  simp

section

variable (depth : Nat) (n : Node) (vs : List Visit)

@[simp]
lemma filterMap_entered?_enter :
    (enter depth n :: vs).filterMap entered? = (depth, n) :: vs.filterMap entered? := rfl

@[simp]
lemma filterMap_entered?_leave :
    (leave depth n :: vs).filterMap entered? = vs.filterMap entered? := rfl

@[simp]
lemma filterMap_left?_enter :
    (enter depth n :: vs).filterMap left? = vs.filterMap left? := rfl

@[simp]
lemma filterMap_left?_leave :
    (leave depth n :: vs).filterMap left? = (depth, n) :: vs.filterMap left? := rfl

end

end Visit

def Node.hasBody (tags : List String) : Node → Bool
  | .element tag _ _ => tag ∉ tags
  | .text _ | .comment _ => false

def Node.children : Node → List Node
  | .element _ _ children => children
  | _ => []

section

variable (hide : Bool) (tags : List String)

mutual

/-- A node, entered and left, with the walk over its children between. -/
def Node.walk (depth : Nat) : Node → List Visit
  | .element tag attributes children =>
    .enter depth (.element tag attributes children) ::
      if tag ∈ tags then []
      else Node.allWalk (depth + 1) children ++ [.leave depth (.element tag attributes children)]
  | .text content => [.enter depth (.text content)]
  | .comment content => [.enter depth (.comment content)]

def Node.allWalk (depth : Nat) : List Node → List Visit
  | [] => []
  | n :: rest =>
    if hide && n.isComment then Node.allWalk depth rest
    else n.walk depth ++ Node.allWalk depth rest

end

mutual

/-- The visible nodes with their depths, in document order. -/
def Node.shown (depth : Nat) : Node → List (Nat × Node)
  | .element tag attributes children =>
    (depth, .element tag attributes children) ::
      if tag ∈ tags then [] else Node.allShown (depth + 1) children
  | .text content => [(depth, .text content)]
  | .comment content => [(depth, .comment content)]

def Node.allShown (depth : Nat) : List Node → List (Nat × Node)
  | [] => []
  | n :: rest =>
    if hide && n.isComment then Node.allShown depth rest
    else n.shown depth ++ Node.allShown depth rest

end

variable (depth : Nat) (rest : List Node)

@[simp]
lemma Node.allWalk_text (content : String) :
    Node.allWalk hide tags depth (.text content :: rest) =
      .enter depth (.text content) :: Node.allWalk hide tags depth rest := by
  simp [Node.allWalk, Node.walk, Node.isComment]

@[simp]
lemma Node.allWalk_comment (content : String) :
    Node.allWalk hide tags depth (.comment content :: rest) =
      if hide then Node.allWalk hide tags depth rest
      else .enter depth (.comment content) :: Node.allWalk hide tags depth rest := by
  simp [Node.allWalk, Node.walk, Node.isComment]

@[simp]
lemma Node.allWalk_element (tag : String) (attributes : List Attribute) (children : List Node) :
    Node.allWalk hide tags depth (.element tag attributes children :: rest) =
      .enter depth (.element tag attributes children) ::
        ((if tag ∈ tags then []
          else Node.allWalk hide tags (depth + 1) children ++
            [.leave depth (.element tag attributes children)]) ++
          Node.allWalk hide tags depth rest) := by
  simp [Node.allWalk, Node.walk, Node.isComment]

@[simp]
lemma Node.allShown_text (content : String) :
    Node.allShown hide tags depth (.text content :: rest) =
      (depth, .text content) :: Node.allShown hide tags depth rest := by
  simp [Node.allShown, Node.shown, Node.isComment]

@[simp]
lemma Node.allShown_comment (content : String) :
    Node.allShown hide tags depth (.comment content :: rest) =
      if hide then Node.allShown hide tags depth rest
      else (depth, .comment content) :: Node.allShown hide tags depth rest := by
  simp [Node.allShown, Node.shown, Node.isComment]

@[simp]
lemma Node.allShown_element (tag : String) (attributes : List Attribute) (children : List Node) :
    Node.allShown hide tags depth (.element tag attributes children :: rest) =
      (depth, .element tag attributes children) ::
        ((if tag ∈ tags then [] else Node.allShown hide tags (depth + 1) children) ++
          Node.allShown hide tags depth rest) := by
  simp [Node.allShown, Node.shown, Node.isComment]

end

variable {hide : Bool} {tags : List String} {depth : Nat}

/-! ### What the walk passes -/

lemma entered_allWalk (depth : Nat) (ns : List Node) :
    (Node.allWalk hide tags depth ns).filterMap Visit.entered? =
      Node.allShown hide tags depth ns := by
  induction ns using Node.siblings_induction generalizing depth with
  | nil => rfl
  | text content rest ih => simp [ih]
  | comment content rest ih => cases hide <;> simp [ih]
  | element tag attributes children rest ihchildren ih =>
    by_cases htag : tag ∈ tags
    · simp [htag, ih]
    · simp [htag, ihchildren, ih]

lemma left_allWalk (depth : Nat) (ns : List Node) :
    ((Node.allWalk hide tags depth ns).filterMap Visit.left?).Perm
      ((Node.allShown hide tags depth ns).filter (·.2.hasBody tags)) := by
  induction ns using Node.siblings_induction generalizing depth with
  | nil => exact .nil
  | text content rest ih => simpa [Node.hasBody] using ih depth
  | comment content rest ih => cases hide <;> simpa [Node.hasBody] using ih depth
  | element tag attributes children rest ihchildren ih =>
    by_cases htag : tag ∈ tags
    · simpa [Node.hasBody, htag] using ih depth
    · have hbelow := (ihchildren (depth + 1)).append (ih depth)
      simpa [Node.hasBody, htag] using List.perm_middle.trans (hbelow.cons _)

lemma length_eq_entered_add_left (vs : List Visit) :
    vs.length = (vs.filterMap Visit.entered?).length + (vs.filterMap Visit.left?).length := by
  induction vs with
  | nil => rfl
  | cons v vs ih =>
    cases v with
    | enter depth n =>
      rw [Visit.filterMap_entered?_enter, Visit.filterMap_left?_enter, List.length_cons,
        List.length_cons, ih, Nat.add_right_comm]
    | leave depth n =>
      rw [Visit.filterMap_entered?_leave, Visit.filterMap_left?_leave, List.length_cons,
        List.length_cons, ih, Nat.add_assoc]

lemma forall_node_allWalk {p : Node → Prop} {ns : List Node} (h : ∀ n ∈ Node.allParts ns, p n)
    (depth : Nat) : ∀ v ∈ Node.allWalk hide tags depth ns, p v.node := by
  induction ns using Node.siblings_induction generalizing depth with
  | nil => simp [Node.allWalk]
  | text content rest ih =>
    rw [Node.forall_parts_text] at h
    rw [Node.allWalk_text, List.forall_mem_cons]
    exact ⟨h.1, ih h.2 depth⟩
  | comment content rest ih =>
    rw [Node.forall_parts_comment] at h
    rw [Node.allWalk_comment]
    split
    · exact ih h.2 depth
    · exact List.forall_mem_cons.2 ⟨h.1, ih h.2 depth⟩
  | element tag attributes children rest ihchildren ih =>
    obtain ⟨hown, hchildren, hrest⟩ := Node.forall_parts_element.1 h
    rw [Node.allWalk_element, List.forall_mem_cons, List.forall_mem_append]
    refine ⟨hown, ?_, ih hrest depth⟩
    split
    · simp
    · rw [List.forall_mem_append, List.forall_mem_singleton]
      exact ⟨ihchildren hchildren (depth + 1), hown⟩

lemma walk_ne_nil (n : Node) : n.walk hide tags depth ≠ [] := by
  cases n <;> simp [Node.walk]

lemma allWalk_eq_nil_iff {ns : List Node} :
    Node.allWalk hide tags depth ns = [] ↔ ∀ n ∈ ns, (hide && n.isComment) = true := by
  induction ns with
  | nil => simp [Node.allWalk]
  | cons n rest ih =>
    rw [Node.allWalk, List.forall_mem_cons, ← ih]
    split <;> simp_all [walk_ne_nil]

/-! ### Nesting -/

/-- Every element with a body is left right behind what is below it. -/
def IsNested (hide : Bool) (tags : List String) (vs : List Visit) : Prop :=
  ∀ front depth n back, vs = front ++ .enter depth n :: back → n.hasBody tags = true →
    ∃ more, back = Node.allWalk hide tags (depth + 1) n.children ++ .leave depth n :: more

lemma IsNested.nil : IsNested hide tags [] := by
  intro front depth n back h
  simp at h

lemma IsNested.leave (depth : Nat) (n : Node) : IsNested hide tags [.leave depth n] := by
  intro front k m back h
  simp [List.singleton_eq_append_iff] at h

lemma IsNested.enter {vs : List Visit} {n : Node} (hvs : IsNested hide tags vs)
    (h : n.hasBody tags = true →
      ∃ more, vs = Node.allWalk hide tags (depth + 1) n.children ++ .leave depth n :: more) :
    IsNested hide tags (.enter depth n :: vs) := by
  intro front k m back heq hbody
  cases front with
  | nil =>
    cases heq
    exact h hbody
  | cons v front =>
    cases heq
    exact hvs front k m back rfl hbody

lemma IsNested.append {vs ws : List Visit} (hvs : IsNested hide tags vs)
    (hws : IsNested hide tags ws) : IsNested hide tags (vs ++ ws) := by
  intro front k n back h hbody
  obtain ⟨between, rfl, hback⟩ | ⟨between, hfront, hws'⟩ := List.append_eq_append_iff.1 h
  · exact hws between k n back hback hbody
  · cases between with
    | nil => exact hws [] k n back hws'.symm hbody
    | cons v between =>
      rw [List.cons_append, List.cons.injEq] at hws'
      obtain ⟨rfl, rfl⟩ := hws'
      obtain ⟨more, rfl⟩ := hvs front k n between hfront hbody
      exact ⟨more ++ ws, by simp⟩

lemma isNested_allWalk (depth : Nat) (ns : List Node) :
    IsNested hide tags (Node.allWalk hide tags depth ns) := by
  induction ns using Node.siblings_induction generalizing depth with
  | nil => exact .nil
  | text content rest ih =>
    rw [Node.allWalk_text]
    exact (ih depth).enter nofun
  | comment content rest ih =>
    rw [Node.allWalk_comment]
    split
    · exact ih depth
    · exact (ih depth).enter nofun
  | element tag attributes children rest ihchildren ih =>
    rw [Node.allWalk_element]
    split
    · rename_i htag
      exact (ih depth).enter fun hbody => absurd hbody (by simpa [Node.hasBody] using htag)
    · have hbody := (ihchildren (depth + 1)).append
        (.leave depth (.element tag attributes children))
      exact (hbody.append (ih depth)).enter fun _ => ⟨_, List.append_assoc _ _ _⟩

/-! ### Lines -/

/-- The line of a visit. -/
def Visit.line (tags : List String) (v : Visit) : Line :=
  ⟨v.depth, v.chars tags⟩

lemma allLines_eq_map_allWalk (indent : Indent) (depth : Nat) (ns : List Node) :
    Node.allLines ⟨indent, hide, tags⟩ depth ns =
      (Node.allWalk hide tags depth ns).map (Visit.line tags) := by
  induction ns using Node.siblings_induction generalizing depth with
  | nil => rfl
  | text content rest ih => simp [ih, Visit.line, Visit.depth, Visit.chars]
  | comment content rest ih => cases hide <;> simp [ih, Visit.line, Visit.depth, Visit.chars]
  | element tag attributes children rest ihchildren ih =>
    by_cases htag : tag ∈ tags
    · simp [ih, htag, Visit.line, Visit.depth, Visit.chars]
    · simp [ih, ihchildren, htag, bodyLines, Visit.line, Visit.depth, Visit.chars]

/-- The strings of a node have no newline. -/
def Node.IsOneLine : Node → Prop
  | .element tag attributes _ =>
    '\n' ∉ tag.toList ∧ ∀ a ∈ attributes, '\n' ∉ a.key.toList ∧ '\n' ∉ a.value.toList
  | .text content | .comment content => '\n' ∉ content.toList

lemma newline_notMem_chars {v : Visit} (h : v.node.IsOneLine) : '\n' ∉ v.chars tags := by
  cases v with
  | leave depth n => simp [Visit.chars]
  | enter depth n =>
    cases n with
    | text content =>
      have hcontent : '\n' ∉ content.toList := h
      simpa [Visit.chars, textChars] using hcontent
    | comment content =>
      have hcontent : '\n' ∉ content.toList := h
      simpa [Visit.chars, commentChars] using hcontent
    | element tag attributes children =>
      have hhead := notMem_headChars (by decide) h.1 h.2
      rw [Visit.chars, List.mem_append, not_or]
      refine ⟨hhead, ?_⟩
      split <;> simp

lemma newline_notMem_levels (indent : Indent) : '\n' ∉ indent.levels depth := by
  cases indent <;> simp [Indent.levels]

/-- The lines of siblings of which some are visible, indented by so many units as they are deep. -/
lemma splitOn_joinLines {ns : List Node} (hlines : ∀ n ∈ Node.allParts ns, n.IsOneLine)
    (hshown : ∃ n ∈ ns, (hide && n.isComment) = false) (indent : Indent) :
    List.splitOn '\n' (joinLines indent (Node.allLines ⟨indent, hide, tags⟩ 0 ns)) =
      (Node.allWalk hide tags 0 ns).map (Visit.indented indent tags) := by
  have hindented : Line.indented indent ∘ Visit.line tags = Visit.indented indent tags := by
    funext v
    exact congrArg (· ++ v.chars tags) (Indent.levels_eq v.depth indent)
  rw [joinLines, allLines_eq_map_allWalk, List.map_map, hindented]
  refine List.splitOn_intercalate '\n' ?_ ?_
  · rw [List.forall_mem_map]
    intro v hv
    rw [Visit.indented, ← Indent.levels_eq, List.mem_append, not_or]
    have hnode := forall_node_allWalk hlines 0 v hv
    exact ⟨newline_notMem_levels indent, newline_notMem_chars hnode⟩
  · rw [Ne, List.map_eq_nil_iff, allWalk_eq_nil_iff]
    obtain ⟨n, hn, hvisible⟩ := hshown
    intro hhidden
    rw [hhidden n hn] at hvisible
    cases hvisible

lemma zipWith_unindented (indent : Indent) (vs : List Visit) :
    List.zipWith (Visit.unindented indent) vs (vs.map (Visit.indented indent tags)) =
      vs.map (Visit.chars tags) := by
  rw [List.zipWith_map_right, List.zipWith_self]
  simp only [Visit.unindented_indented]

lemma layout?_of_shown {d : Document} (hshown : ∃ n ∈ d.nodes, (hide && n.isComment) = false)
    {indent : Indent} (h : indent.excess? = none) :
    d.layout? ⟨indent, hide, tags⟩ = .ok (d.layout ⟨indent, hide, tags⟩) := by
  have hnot : d.nodes.all (isHidden ⟨indent, hide, tags⟩) = false := by
    simpa [isHidden, ← Bool.and_eq_true] using hshown
  refine layout?_eq_ok_iff.2 ⟨?_, rfl⟩
  rw [hnot, excess?, if_neg Bool.false_ne_true, h]

/-- The canonical source of a tree whose strings have no newlines and of which something is visible
has the lines of a walk that only nesting decides: a line for each visible node, in document order,
and a line for each visible node with a body, right behind the lines of what is below the node. A
line is indented by one unit for each level, and all indentations lead to the same lines behind it.
Only a unit for which there is no room is not written out. -/
theorem lines_follow_nesting (d : Document) (hide : Bool) (tags : List String)
    (hlines : ∀ n ∈ d.parts, n.IsOneLine)
    (hshown : ∃ n ∈ d.nodes, (hide && n.isComment) = false) :
    let walk := Node.allWalk hide tags 0 d.nodes
    let shown := Node.allShown hide tags 0 d.nodes
    let lines (indent : Indent) := List.splitOn '\n' (d.layout ⟨indent, hide, tags⟩).toList
    (∀ indent : Indent,
      (indent.excess? = none →
        d.layout? ⟨indent, hide, tags⟩ = .ok (d.layout ⟨indent, hide, tags⟩)) ∧
      lines indent = walk.map (Visit.indented indent tags)) ∧
    walk.filterMap Visit.entered? = shown ∧
    (walk.filterMap Visit.left?).Perm (shown.filter (·.2.hasBody tags)) ∧
    walk.length = shown.length + (shown.filter (·.2.hasBody tags)).length ∧
    IsNested hide tags walk ∧
    ∀ i j, (lines i).length = (lines j).length ∧
      List.zipWith (Visit.unindented i) walk (lines i) =
        List.zipWith (Visit.unindented j) walk (lines j) := by
  intro walk shown lines
  have hsplit (indent : Indent) : lines indent = walk.map (Visit.indented indent tags) := by
    have htext : (d.layout ⟨indent, hide, tags⟩).toList =
        joinLines indent (Node.allLines ⟨indent, hide, tags⟩ 0 d.nodes) := String.toList_ofList
    change List.splitOn _ _ = _
    rw [htext]
    exact splitOn_joinLines hlines hshown indent
  have hentered : walk.filterMap Visit.entered? = shown := entered_allWalk 0 d.nodes
  have hleft : (walk.filterMap Visit.left?).Perm (shown.filter (·.2.hasBody tags)) :=
    left_allWalk 0 d.nodes
  refine ⟨fun indent => ⟨layout?_of_shown hshown, hsplit indent⟩, hentered, hleft, ?_,
    isNested_allWalk 0 d.nodes, fun i j => ⟨?_, ?_⟩⟩
  · rw [length_eq_entered_add_left, hentered, hleft.length_eq]
  · rw [hsplit, hsplit, List.length_map, List.length_map]
  · rw [hsplit, hsplit, zipWith_unindented, zipWith_unindented]

/-- What is below a `br` and comments are not visible. -/
theorem lines_follow_nesting_hidden_parts :
    let br : Node := .element "br" [⟨"id", "a"⟩] [.text "b"]
    let p : Node := .element "p" [] [br, .comment "c", .element "q" [] []]
    let d : Document := ⟨[.comment "d", p, .text "e"]⟩
    (d.layout? ⟨.spaces 2, true, ["br"]⟩ = .ok (d.layout ⟨.spaces 2, true, ["br"]⟩)) ∧
      List.splitOn '\n' (d.layout ⟨.spaces 2, true, ["br"]⟩).toList =
        ["p()\x7b".toList, "  br(id=\"a\")".toList, "  q()\x7b".toList, "  \x7d".toList,
          "\x7d".toList, "\"e\"".toList] := by
  intro br p d
  have hlines : ∀ n ∈ d.parts, n.IsOneLine := by
    simp [d, p, br, Document.parts, Node.allParts, Node.parts, Node.IsOneLine]
  have hshown : ∃ n ∈ d.nodes, (true && n.isComment) = false :=
    ⟨p, by simp [d], rfl⟩
  obtain ⟨hsource, -⟩ := lines_follow_nesting d true ["br"] hlines hshown
  obtain ⟨hread, hsplit⟩ := hsource (.spaces 2)
  exact ⟨hread rfl, hsplit.trans rfl⟩

end TagCall
