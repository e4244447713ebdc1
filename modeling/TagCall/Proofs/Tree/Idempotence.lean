import TagCall.Compile
import TagCall.Proofs.Tree.RoundTrip

/-!
# The canonical source of the canonical source

A second pass gives the canonical source of what the first one keeps. It finds the same lines, less
one carriage return for each comment that ended in one, so the carriage returns of both are
counted.
-/

namespace TagCall

open Layout Token

/-- The carriage returns in lines. -/
def Layout.returns (lines : List Line) : Nat :=
  (lines.flatMap Line.chars).count '\r'

lemma returns_cons (line : Line) (lines : List Line) :
    returns (line :: lines) = line.chars.count '\r' + returns lines := by
  rw [returns, List.flatMap_cons, List.count_append]
  rfl

lemma returns_append (lines more : List Line) :
    returns (lines ++ more) = returns lines + returns more := by
  rw [returns, List.flatMap_append, List.count_append]
  rfl

lemma returns_bodyLines (depth : Nat) (tag : String) (attributes : List Attribute)
    (inner : List Line) :
    returns (bodyLines depth tag attributes inner) =
      returns (bodyLines depth tag attributes []) + returns inner := by
  simp only [bodyLines, returns_cons, returns_append, List.nil_append]
  omega

lemma count_levels (depth : Nat) (indent : Indent) : (indent.levels depth).count '\r' = 0 := by
  rw [List.count_eq_zero]
  intro h
  cases indent with
  | spaces width => exact absurd (List.eq_of_mem_replicate h) (by decide)
  | tab => exact absurd (List.eq_of_mem_replicate h) (by decide)

lemma count_joinLines (indent : Indent) (lines : List Line) :
    (joinLines indent lines).count '\r' = returns lines := by
  have hline : ∀ line : Line, (line.indented indent).count '\r' = line.chars.count '\r' := by
    intro line
    rw [Line.indented, List.count_append, count_levels, Nat.zero_add]
  induction lines with
  | nil => rfl
  | cons line lines ih =>
    rw [returns_cons]
    by_cases h : lines = []
    · rw [h, joinLines_singleton, hline]
      rfl
    · rw [joinLines_cons indent line h, List.count_append, hline,
        List.count_cons_of_ne (by decide), ih]

lemma count_dropReturn (line : List Char) :
    (dropReturn line).count '\r' + (if line.getLast? = some '\r' then 1 else 0) =
      line.count '\r' := by
  unfold dropReturn
  split
  · rename_i h
    obtain ⟨before, rfl⟩ := List.getLast?_eq_some_iff.1 h
    simp
  · rfl

lemma count_commentChars (content : String) :
    (commentChars content).count '\r' = content.toList.count '\r' := by
  simp [commentChars]

/-! ### The lines of what is kept -/

/-- Where comments are hidden, the same lines are found again. -/
lemma allLines_allKept_of_hidden {o : Layout.Options} (ho : o.ignoreComments = true)
    (ns : List Node) (depth : Nat) :
    Node.allLines o depth (Node.allKept o ns) = Node.allLines o depth ns := by
  induction ns using Node.siblings_induction generalizing depth with
  | nil => rfl
  | text content rest ih =>
    rw [Node.allKept_text, Node.allLines_text, Node.allLines_text, ih]
  | comment content rest ih =>
    rw [Node.allKept_comment, Node.allLines_comment, if_pos ho, if_pos ho, ih]
  | element tag attributes children rest ihchildren ih =>
    rw [Node.allKept_element, Node.allLines_element, Node.allLines_element, ih, ihchildren]

/-- Where comments are shown, no carriage return is gained, and if none is lost then no comment ends
in one. -/
lemma returns_allKept {o : Layout.Options} (ho : o.ignoreComments = false) {ns : List Node}
    (hbare : ∀ n ∈ Node.allParts ns, n.IsBareIfVoid o.voidTags) (depth : Nat) :
    returns (Node.allLines o depth (Node.allKept o ns)) ≤ returns (Node.allLines o depth ns) ∧
      (returns (Node.allLines o depth (Node.allKept o ns)) = returns (Node.allLines o depth ns) →
        ∀ n ∈ Node.allParts ns, ¬n.EndsInReturn) := by
  induction ns using Node.siblings_induction generalizing depth with
  | nil => exact ⟨le_rfl, fun _ => Node.forall_parts_nil⟩
  | text content rest ih =>
    rw [Node.forall_parts_text] at hbare
    obtain ⟨hle, heq⟩ := ih hbare.2 depth
    rw [Node.allKept_text, Node.allLines_text, Node.allLines_text, returns_cons, returns_cons,
      Node.forall_parts_text]
    refine ⟨by omega, ?_⟩
    intro h
    exact ⟨id, heq (by omega)⟩
  | comment content rest ih =>
    rw [Node.forall_parts_comment] at hbare
    obtain ⟨hle, heq⟩ := ih hbare.2 depth
    have hcount := count_dropReturn content.toList
    rw [Node.allKept_comment, if_neg (by simp [ho]), Node.allLines_comment, Node.allLines_comment,
      if_neg (by simp [ho]), if_neg (by simp [ho]), returns_cons, returns_cons,
      Node.forall_parts_comment]
    simp only [count_commentChars, String.toList_ofList]
    refine ⟨by omega, ?_⟩
    intro h
    refine ⟨?_, heq (by omega)⟩
    intro hreturn
    rw [if_pos (show content.toList.getLast? = some '\r' from hreturn)] at hcount
    omega
  | element tag attributes children rest ihchildren ih =>
    obtain ⟨hself, hchildren, hrest⟩ := Node.forall_parts_element.1 hbare
    obtain ⟨hle, heq⟩ := ih hrest depth
    obtain ⟨hle', heq'⟩ := ihchildren hchildren (depth + 1)
    rw [Node.allKept_element, Node.allLines_element, Node.allLines_element, returns_append,
      returns_append, Node.forall_parts_element]
    split
    · rename_i htag
      obtain rfl : children = [] := hself htag
      refine ⟨by omega, ?_⟩
      intro h
      exact ⟨id, Node.forall_parts_nil, heq (by omega)⟩
    · rw [returns_bodyLines, returns_bodyLines depth tag attributes (Node.allLines o _ children)]
      refine ⟨by omega, ?_⟩
      intro h
      exact ⟨id, heq' (by omega), heq (by omega)⟩

/-- The canonical source of what is kept is the same exactly if comments are hidden or none of them
ends in a carriage return. -/
lemma layout_kept_eq_iff {o : Layout.Options} {d : Document}
    (hbare : ∀ n ∈ d.parts, n.IsBareIfVoid o.voidTags) :
    (d.kept o).layout o = d.layout o ↔
      o.ignoreComments = true ∨ ∀ n ∈ d.parts, ¬n.EndsInReturn := by
  cases ho : o.ignoreComments with
  | true =>
    refine ⟨fun _ => .inl rfl, ?_⟩
    intro _
    rw [Document.layout, Document.kept, allLines_allKept_of_hidden ho]
    rfl
  | false =>
    simp only [Bool.false_eq_true, false_or]
    constructor
    · intro h
      have hcount := congrArg (fun s => s.toList.count '\r') h
      simp only [Document.layout, String.toList_ofList, count_joinLines] at hcount
      exact (returns_allKept ho hbare 0).2 hcount
    · intro h
      rw [Document.layout, Document.kept, (allKept_eq_self_iff ho d.nodes).2 h]
      rfl

/-! ### Two passes -/

lemma layout?_eq_ok_iff {o : Layout.Options} {d : Document} {t : String} :
    d.layout? o = .ok t ↔
      excess? o.indent (d.nodes.all (isHidden o)) = none ∧ d.layout o = t := by
  unfold Document.layout?
  cases excess? o.indent (d.nodes.all (isHidden o)) <;> simp

lemma Layout.ofSource_eq_ok_iff {o : Layout.Options} {s t : String} :
    Layout.ofSource o s = .ok t ↔
      ∃ d, Document.ofSource o.voidTags s = .ok d ∧ d.layout? o = .ok t := by
  unfold Layout.ofSource
  cases hd : Document.ofSource o.voidTags s with
  | error e => simp [Except.mapError, Bind.bind, Except.bind]
  | ok d =>
    cases ht : d.layout? o with
    | error e => simp [Except.mapError, Bind.bind, Except.bind, ht]
    | ok u => simp [Except.mapError, Bind.bind, Except.bind, ht]

lemma isHidden_kept (o : Layout.Options) (n : Node) : isHidden o (n.kept o) = isHidden o n := by
  cases n <;> rfl

lemma all_isHidden_allKept (o : Layout.Options) (ns : List Node) :
    (Node.allKept o ns).all (isHidden o) = ns.all (isHidden o) := by
  induction ns with
  | nil => rfl
  | cons n rest ih =>
    rw [Node.allKept, List.all_cons]
    by_cases h : isHidden o n
    · rw [if_pos h, h, Bool.true_and, ih]
    · rw [if_neg h, List.all_cons, isHidden_kept, ih]

/-- The canonical source has a canonical source again. It is the same text exactly if comments are
hidden or no comment of the tree ends in a carriage return. -/
theorem canonical_form_again_iff {o : Layout.Options} {s t : String}
    (h : Layout.ofSource o s = .ok t) :
    ∃ d, Document.ofSource o.voidTags s = .ok d ∧
      Layout.ofSource o t = .ok ((d.kept o).layout o) ∧
      (Layout.ofSource o t = .ok t ↔
        o.ignoreComments = true ∨ ∀ n ∈ d.parts, ¬n.EndsInReturn) := by
  obtain ⟨d, hd, hlayout⟩ := Layout.ofSource_eq_ok_iff.1 h
  obtain ⟨hexcess, rfl⟩ := layout?_eq_ok_iff.1 hlayout
  have hwritable := isWritable_of_ofSource hd
  have hbare : ∀ n ∈ d.parts, n.IsBareIfVoid o.voidTags := by
    intro n hn
    exact (hwritable n hn).isBareIfVoid
  have hagain : Layout.ofSource o (d.layout o) = .ok ((d.kept o).layout o) := by
    refine Layout.ofSource_eq_ok_iff.2 ⟨_, ofSource_layout hwritable, layout?_eq_ok_iff.2 ⟨?_, rfl⟩⟩
    rw [Document.kept, all_isHidden_allKept, hexcess]
  refine ⟨d, hd, hagain, ?_⟩
  rw [hagain, Except.ok.injEq]
  exact layout_kept_eq_iff hbare

/-- The canonical source of a comment, from the source that keeps all of it. -/
lemma ofSource_comment (content : String) (h : '\n' ∉ content.toList) :
    Layout.ofSource {} (Document.layout {} ⟨[.comment content]⟩) =
      .ok (Document.layout {} ⟨[.comment (String.ofList (dropReturn content.toList))]⟩) := by
  have hwritable : ∀ n ∈ Document.parts ⟨[.comment content]⟩, n.IsWritable defaultVoidTags := by
    simpa [Document.parts, Node.allParts, Node.parts, Node.IsWritable] using h
  exact Layout.ofSource_eq_ok_iff.2 ⟨_, ofSource_layout hwritable, rfl⟩

theorem canonical_form_again_two_returns :
    Layout.ofSource {} "// a\r\r" = .ok "// a\r" ∧
      ∃ d, Document.ofSource defaultVoidTags "// a\r\r" = .ok d ∧
        Layout.ofSource {} "// a\r" = .ok ((d.kept {}).layout {}) ∧
        (Layout.ofSource {} "// a\r" = .ok "// a\r" ↔
          ({} : Layout.Options).ignoreComments = true ∨ ∀ n ∈ d.parts, ¬n.EndsInReturn) := by
  have h : Layout.ofSource {} "// a\r\r" = .ok "// a\r" :=
    ofSource_comment "a\r\r" (by decide)
  exact ⟨h, canonical_form_again_iff h⟩

/-- A comment line that ends in two carriage returns loses one with each pass. -/
theorem canonical_form_not_canonical :
    ¬∀ (o : Layout.Options) (s t : String), Layout.ofSource o s = .ok t →
      Layout.ofSource o t = .ok t := by
  intro h
  have hfirst : Layout.ofSource {} "// a\r\r" = .ok "// a\r" :=
    ofSource_comment "a\r\r" (by decide)
  have hsecond : Layout.ofSource {} "// a\r" = .ok "// a" :=
    ofSource_comment "a\r" (by decide)
  rw [h {} _ _ hfirst] at hsecond
  exact absurd (Except.ok.inj hsecond) (by decide)

end TagCall
