import TagCall.Token.Scan
import TagCall.Tree.Basic

/-!
Reading trees from tokens. Every reader gives back what it leaves, also when it fails: a node that
fails inside a body has used up tokens, and the body goes on after them. `header_length` and
`nodes_length` say that no reader leaves more than it was given; `nodes_eq` says that a sequence of
nodes is one node after another up to the first that fails.
-/

namespace TagCall

inductive ReadError where
  /-- A token of another kind than the expected ones. What is left after the error is told too
  where it is known. -/
  | unexpected (expected : List Kind) (actual : Token) (remaining : Option (List Token))
  /-- No token where one of these kinds is needed. -/
  | notEnough (expected : List Kind)
  deriving DecidableEq, Repr

namespace ReadError

private def labels (kinds : List Kind) : String :=
  " or ".intercalate (kinds.map Kind.label)

def message : ReadError → String
  | unexpected expected actual _ =>
    "Unexpected token: expected " ++ labels expected ++ ", got " ++ actual.display
  | notEnough expected => "Token is not enough: expected " ++ labels expected

/-- The error without the tokens left after it. Two errors count as the same if these agree. -/
def core : ReadError → ReadError
  | unexpected expected actual _ => unexpected expected actual none
  | e => e

end ReadError

namespace Read

/-- What a reader yields: a value or an error, and the tokens it leaves. -/
structure Attempt (α : Type) where
  outcome : Except ReadError α
  rest : List Token

/-- Takes one token of the given kind. A token of another kind is taken as well. -/
def expect (kind : Kind) : List Token → Attempt Unit
  | [] => ⟨.error (.notEnough [kind]), []⟩
  | t :: rest =>
    if t.kind = kind then ⟨.ok (), rest⟩
    else ⟨.error (.unexpected [kind] t (some rest)), rest⟩

/-- Takes attributes as long as a whole one stands in front. -/
def attributes : List Token → List Attribute × List Token
  | ⟨.name, key⟩ :: ⟨.equals, _⟩ :: ⟨.text, value⟩ :: rest =>
    let more := attributes rest
    (⟨key, value⟩ :: more.1, more.2)
  | ts => ([], ts)

/-- The start of a node: a whole node that has no body, or an element up to its opening brace. -/
inductive Header where
  | leaf (node : Node)
  | body (tag : String) (attributes : List Attribute)

/-- The parentheses of an element of the given tag, and its opening brace if it has a body. -/
def elementHeader (tags : List String) (tag : String) (ts : List Token) : Attempt Header :=
  match expect .openParen ts with
  | ⟨.error e, rest⟩ => ⟨.error e, rest⟩
  | ⟨.ok (), rest⟩ =>
    let inside := attributes rest
    match expect .closeParen inside.2 with
    | ⟨.error e, rest⟩ => ⟨.error e, rest⟩
    | ⟨.ok (), rest⟩ =>
      if tag ∈ tags then ⟨.ok (.leaf (.element tag inside.1 [])), rest⟩
      else
        match expect .openBrace rest with
        | ⟨.error e, rest⟩ => ⟨.error e, rest⟩
        | ⟨.ok (), rest⟩ => ⟨.ok (.body tag inside.1), rest⟩

def header (tags : List String) : List Token → Attempt Header
  | [] => ⟨.error (.notEnough Kind.nodeStart), []⟩
  | t :: rest =>
    match t.kind with
    | .text => ⟨.ok (.leaf (.text t.value)), rest⟩
    | .comment => ⟨.ok (.leaf (.comment t.value)), rest⟩
    | .name => elementHeader tags t.value rest
    | _ => ⟨.error (.unexpected Kind.nodeStart t (some (t :: rest))), t :: rest⟩

theorem expect_length (kind : Kind) (ts : List Token) :
    (expect kind ts).rest.length ≤ ts.length := by
  cases ts with
  | nil => simp [expect]
  | cons t rest => by_cases h : t.kind = kind <;> simp [expect, h]

theorem attributes_length (ts : List Token) : (attributes ts).2.length ≤ ts.length := by
  fun_induction attributes ts with
  | case1 key e value rest more ih =>
    have : more.2.length ≤ rest.length := ih
    simp only [List.length_cons]
    omega
  | case2 => simp

theorem elementHeader_length (tags : List String) (tag : String) (ts : List Token) :
    (elementHeader tags tag ts).rest.length ≤ ts.length := by
  have first := expect_length .openParen ts
  unfold elementHeader
  split
  · simp_all
  · rename_i r₁ h₁
    have inside := attributes_length r₁
    have second := expect_length .closeParen (attributes r₁).2
    simp only [h₁] at first
    dsimp only
    split
    · rename_i h₂
      simp only [h₂] at second
      dsimp only
      omega
    · rename_i r₂ h₂
      simp only [h₂] at second
      split
      · dsimp only
        omega
      · have third := expect_length .openBrace r₂
        split <;> rename_i h₃ <;> simp only [h₃] at third <;> dsimp only <;> omega

theorem header_length (tags : List String) (ts : List Token) :
    (header tags ts).rest.length ≤ ts.length := by
  cases ts with
  | nil => simp [header]
  | cons t rest =>
    have := elementHeader_length tags t.value rest
    cases h : t.kind <;> simp [header, h]
    omega

theorem header_length_lt {tags : List String} {ts rest : List Token} {h : Header}
    (e : header tags ts = ⟨.ok h, rest⟩) : rest.length < ts.length := by
  cases ts with
  | nil => simp [header] at e
  | cons t tail =>
    have := elementHeader_length tags t.value tail
    cases k : t.kind <;> simp [header, k] at e
    · simp [← e.2]
    · simp [← e.2]
    · simp only [e] at this
      simp only [List.length_cons]
      omega

/-- Nodes up to the first that cannot be read, its error, and the tokens left after it. -/
structure Run where
  nodes : List Node
  stop : ReadError
  rest : List Token

/-- Reads nodes until one fails, and tells along that no more tokens are left than there were. -/
def run (tags : List String) (ts : List Token) : { r : Run // r.rest.length ≤ ts.length } :=
  match h : header tags ts with
  | ⟨.error e, rest⟩ =>
    ⟨⟨[], e, rest⟩, by have := header_length tags ts; simp only [h] at this; exact this⟩
  | ⟨.ok (.leaf n), rest⟩ =>
    have shorter := header_length_lt h
    let more := run tags rest
    ⟨⟨n :: more.1.nodes, more.1.stop, more.1.rest⟩, by have := more.2; dsimp only; omega⟩
  | ⟨.ok (.body tag as), rest⟩ =>
    have shorter := header_length_lt h
    let inner := run tags rest
    match h' : expect .closeBrace inner.1.rest with
    | ⟨.error e, rest'⟩ =>
      ⟨⟨[], e, rest'⟩, by
        have := expect_length .closeBrace inner.1.rest
        have := inner.2
        simp only [h'] at *
        omega⟩
    | ⟨.ok (), rest'⟩ =>
      have shorter' : rest'.length < ts.length := by
        have := expect_length .closeBrace inner.1.rest
        have := inner.2
        simp only [h'] at *
        omega
      let more := run tags rest'
      ⟨⟨.element tag as inner.1.nodes :: more.1.nodes, more.1.stop, more.1.rest⟩, by
        have := more.2
        dsimp only
        omega⟩
termination_by ts.length

/-- Nodes one after another. The error that ends the sequence is part of the answer. -/
def nodes (tags : List String) (ts : List Token) : Run :=
  (run tags ts).1

/-- One node: a text, a comment or an element with its body. The error that ends a body is dropped:
what counts is that a closing brace follows. -/
def node (tags : List String) (ts : List Token) : Attempt Node :=
  match header tags ts with
  | ⟨.error e, rest⟩ => ⟨.error e, rest⟩
  | ⟨.ok (.leaf n), rest⟩ => ⟨.ok n, rest⟩
  | ⟨.ok (.body tag as), rest⟩ =>
    let inner := nodes tags rest
    match expect .closeBrace inner.rest with
    | ⟨.error e, rest⟩ => ⟨.error e, rest⟩
    | ⟨.ok (), rest⟩ => ⟨.ok (.element tag as inner.nodes), rest⟩

theorem nodes_length (tags : List String) (ts : List Token) :
    (nodes tags ts).rest.length ≤ ts.length :=
  (run tags ts).2

theorem nodes_eq (tags : List String) (ts : List Token) :
    nodes tags ts =
      match node tags ts with
      | ⟨.error e, rest⟩ => ⟨[], e, rest⟩
      | ⟨.ok n, rest⟩ =>
        ⟨n :: (nodes tags rest).nodes, (nodes tags rest).stop, (nodes tags rest).rest⟩ := by
  unfold nodes node
  rw [run]
  split
  · rename_i h
    simp [h]
  · rename_i h
    simp [h]
  · rename_i h
    simp only [h, nodes]
    split <;> rename_i h' <;> simp [h']

/-- All tokens as a document: nodes that stop for want of a token, where a node could start. -/
def document (tags : List String) (ts : List Token) : Attempt Document :=
  let all := nodes tags ts
  if all.rest = [] ∧ all.stop = .notEnough Kind.nodeStart then ⟨.ok ⟨all.nodes⟩, all.rest⟩
  else ⟨.error all.stop, all.rest⟩

end Read

/-- Why a source text is no document. -/
inductive SourceError where
  | token (e : Token.Invalid)
  | read (e : ReadError)
  deriving DecidableEq, Repr

def SourceError.message : SourceError → String
  | token e => e.message
  | read e => e.message

/-- The document that a list of tokens spells. -/
def Document.ofTokens (tags : List String) (ts : List Token) : Except ReadError Document :=
  (Read.document tags ts).outcome

/-- The document that a source text spells. -/
def Document.ofSource (tags : List String) (source : String) : Except SourceError Document :=
  match Token.lex source with
  | .error e => .error (.token e)
  | .ok ts =>
    match Document.ofTokens tags ts with
    | .error e => .error (.read e)
    | .ok d => .ok d

end TagCall
