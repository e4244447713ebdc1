import TagCall.Length
import TagCall.Token.Basic

/-!
A cursor over a list of tokens. A cursor moved below zero counts from the end of the list, as far
as the list reaches. While it is not negative, what it stands for is the list of remaining tokens.
-/

namespace TagCall.Token

structure Queue where
  tokens : List Token
  cursor : Int := 0
  deriving DecidableEq, Repr

namespace Queue

def ofList (tokens : List Token) : Queue :=
  ⟨tokens, 0⟩

/-- A place before the start of the list, even counted from its end. -/
structure OutOfRange where
  deriving DecidableEq, Repr

/-- The token `offset` places after the cursor, if any is there. -/
def peek (q : Queue) (offset : Int) : Except OutOfRange (Option Token) :=
  let place := q.cursor + offset
  let count := (q.tokens.length : Int)
  if count ≤ place then .ok none
  else if 0 ≤ place then .ok q.tokens[place.toNat]?
  else if -count ≤ place then .ok q.tokens[(count + place).toNat]?
  else .error ⟨⟩

/-- The token at the cursor, and the queue past it. An empty queue stays as it is. -/
def pop (q : Queue) : Except OutOfRange (Option Token × Queue) := do
  match ← q.peek 0 with
  | none => return (none, q)
  | some t => return (some t, { q with cursor := q.cursor + 1 })

/-- Moves the cursor, at most to the end. -/
def advance (q : Queue) (count : Int) : Queue :=
  { q with cursor := min (q.cursor + count) q.tokens.length }

def isEmpty (q : Queue) : Bool :=
  q.tokens.length ≤ q.cursor

/-- The tokens from the cursor on; all of them if it is before the start even counted from the
end. -/
def remaining (q : Queue) : List Token :=
  if 0 ≤ q.cursor then q.tokens.drop q.cursor.toNat
  else q.tokens.drop (q.tokens.length + q.cursor).toNat

/-- How far the cursor is from the end. -/
def length (q : Queue) : Int :=
  q.tokens.length - q.cursor

/-- The length, if there are lists as long. -/
def length? (q : Queue) : Option Int :=
  if q.length ≤ maxLength then some q.length else none

def describe (q : Queue) : String :=
  "TokenQueue([" ++ ", ".intercalate (q.remaining.map Token.describe) ++ "])"

end Queue

end TagCall.Token
