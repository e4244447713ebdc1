import TagCall.Proofs.Token.Queue

/-!
# Calls of a queue

A queue that is only looked into and moved on cannot be told from the list of its remaining tokens:
whatever is called, in whatever order, the answers are the same, and the cursor stands behind the
tokens that were taken off the list (`calls_are_answered_as_by_list`). Calls that look or move back
are left out, since a place before the start is counted from the end.
-/

namespace TagCall.Token.Queue

inductive Call where
  | peek (offset : Int)
  | pop
  | advance (count : Int)
  | isEmpty
  | length
  | iterate
  | remaining
  deriving DecidableEq, Repr

inductive Answer where
  | done
  | token (t : Option Token)
  | truth (b : Bool)
  | number (n : Int)
  | tokens (ts : List Token)
  deriving DecidableEq, Repr

/-- Why a call has no answer: a place before the start, or a length that no list has. -/
inductive Refusal where
  | outOfRange
  | tooLong
  deriving DecidableEq, Repr

/-- The answer to a call, and the queue after it, which is the same if there is no answer. An
iteration goes over the tokens that remain when it is called for. -/
def call (q : Queue) : Call → Except Refusal Answer × Queue
  | .peek offset =>
    match q.peek offset with
    | .ok t => (.ok (.token t), q)
    | .error _ => (.error .outOfRange, q)
  | .pop =>
    match q.pop with
    | .ok (t, next) => (.ok (.token t), next)
    | .error _ => (.error .outOfRange, q)
  | .advance count => (.ok .done, q.advance count)
  | .isEmpty => (.ok (.truth q.isEmpty), q)
  | .length =>
    match q.length? with
    | some n => (.ok (.number n), q)
    | none => (.error .tooLong, q)
  | .iterate => (.ok (.tokens q.remaining), q)
  | .remaining => (.ok (.tokens q.remaining), q)

def run (q : Queue) : List Call → List (Except Refusal Answer) × Queue
  | [] => ([], q)
  | c :: calls =>
    let first := q.call c
    let more := first.2.run calls
    (first.1 :: more.1, more.2)

def Call.IsForward : Call → Prop
  | .peek offset => 0 ≤ offset
  | .advance count => 0 ≤ count
  | _ => True

/-! ### Calls of a list -/

/-- What comes of calls of a list of tokens: what is answered, the tokens taken off its front, and
those that are left. -/
structure Effect (α : Type) where
  answer : α
  taken : List Token
  left : List Token
  deriving DecidableEq, Repr

/-- A call of a queue that is the list of its tokens. -/
def Call.effect : Call → List Token → Effect Answer
  | .peek offset, ts => ⟨.token ts[offset.toNat]?, [], ts⟩
  | .pop, [] => ⟨.token none, [], []⟩
  | .pop, t :: ts => ⟨.token (some t), [t], ts⟩
  | .advance count, ts =>
    let places := min count.toNat ts.length
    ⟨.done, ts.take places, ts.drop places⟩
  | .isEmpty, ts => ⟨.truth ts.isEmpty, [], ts⟩
  | .length, ts => ⟨.number ts.length, [], ts⟩
  | .iterate, ts => ⟨.tokens ts, [], ts⟩
  | .remaining, ts => ⟨.tokens ts, [], ts⟩

def effects : List Call → List Token → Effect (List Answer)
  | [], ts => ⟨[], [], ts⟩
  | c :: calls, ts =>
    let first := c.effect ts
    let more := effects calls first.left
    ⟨first.answer :: more.answer, first.taken ++ more.taken, more.left⟩

/-- A number is given as an answer if it can be the length of a list. -/
def Answer.given : Answer → Except Refusal Answer
  | .number n => if n ≤ maxLength then .ok (.number n) else .error .tooLong
  | answer => .ok answer

lemma taken_append_left (c : Call) (ts : List Token) :
    (c.effect ts).taken ++ (c.effect ts).left = ts := by
  cases c with
  | pop => cases ts <;> rfl
  | advance count => exact List.take_append_drop _ ts
  | _ => rfl

lemma allTaken_append_left (calls : List Call) (ts : List Token) :
    (effects calls ts).taken ++ (effects calls ts).left = ts := by
  induction calls generalizing ts with
  | nil => rfl
  | cons c calls ih =>
    change ((c.effect ts).taken ++ (effects calls (c.effect ts).left).taken) ++
      (effects calls (c.effect ts).left).left = ts
    rw [List.append_assoc, ih, taken_append_left]

lemma given_answer {ts : List Token} (hts : ts.length ≤ maxLength) (c : Call) :
    (c.effect ts).answer.given = .ok (c.effect ts).answer := by
  cases c with
  | pop => cases ts <;> rfl
  | length => exact if_pos (Int.ofNat_le.2 hts)
  | _ => rfl

lemma given_answers {ts : List Token} (hts : ts.length ≤ maxLength) (calls : List Call) :
    (effects calls ts).answer.map Answer.given = (effects calls ts).answer.map .ok := by
  induction calls generalizing ts with
  | nil => rfl
  | cons c calls ih =>
    -- What is left of a list is no longer than the list.
    have hlength := congrArg List.length (taken_append_left c ts)
    rw [List.length_append] at hlength
    have hleft : (c.effect ts).left.length ≤ maxLength := by omega
    simp only [effects, List.map_cons, given_answer hts, ih hleft]

/-! ### The queue and the list -/

/-- A queue answers a call as the list of its remaining tokens, and its cursor moves over the tokens
that are taken. -/
lemma IsSound.call_eq {q : Queue} (h : q.IsSound) {c : Call} (hc : c.IsForward) :
    q.call c = ((c.effect q.remaining).answer.given,
      { q with cursor := q.cursor + (c.effect q.remaining).taken.length }) := by
  cases c with
  | peek offset =>
    obtain ⟨count, rfl⟩ := Int.eq_ofNat_of_zero_le hc
    simp [call, h.peek count, Call.effect, Answer.given]
  | pop =>
    cases hremaining : q.remaining with
    | nil => simp [call, h.pop_nil hremaining, Call.effect, Answer.given]
    | cons t rest => simp [call, h.pop_cons hremaining, Call.effect, Answer.given]
  | advance count =>
    obtain ⟨count, rfl⟩ := Int.eq_ofNat_of_zero_le hc
    simp [call, h.advance_min count, Call.effect, Answer.given]
  | isEmpty => simp [call, h.isEmpty, Call.effect, Answer.given]
  | length =>
    have hlength : q.length = q.remaining.length := h.length_remaining.symm
    by_cases hfits : q.remaining.length ≤ maxLength <;>
      simp [call, length?, hlength, hfits, Call.effect, Answer.given]
  | iterate | remaining => simp [call, Call.effect, Answer.given]

lemma IsSound.run_eq {q : Queue} (h : q.IsSound) {calls : List Call}
    (hcalls : ∀ c ∈ calls, c.IsForward) :
    q.run calls = ((effects calls q.remaining).answer.map Answer.given,
      { q with cursor := q.cursor + (effects calls q.remaining).taken.length }) := by
  induction calls generalizing q with
  | nil => simp [run, effects]
  | cons c calls ih =>
    have hstep := h.call_eq (hcalls c List.mem_cons_self)
    -- What remains in the queue after the first call is what that call leaves of the list.
    obtain ⟨hsound, hleft⟩ := h.moved (taken_append_left c q.remaining)
    have hmore := ih hsound fun c' hc' => hcalls c' (List.mem_cons_of_mem c hc')
    rw [hleft] at hmore
    simp only [run, hstep, hmore, effects, List.map_cons, List.length_append, Int.natCast_add,
      Int.add_assoc]

lemma run_ofList {ts : List Token} {calls : List Call} (hcalls : ∀ c ∈ calls, c.IsForward) :
    (ofList ts).run calls = ((effects calls ts).answer.map Answer.given,
      ⟨ts, (effects calls ts).taken.length⟩) := by
  have hrun := (isSound_ofList ts).run_eq hcalls
  rwa [remaining_ofList, ofList, Int.zero_add] at hrun

/-- Calls that do not look or move back are answered by a queue, whatever they are and in whatever
order, as by the list of its remaining tokens. Each has an answer, unless there are more tokens than
a list can have. At every point on the way the cursor stands in the queue or right behind it, after
as many tokens as were taken, and the tokens taken and those that remain are the tokens at the
start. -/
theorem calls_are_answered_as_by_list {ts : List Token} {calls : List Call}
    (hcalls : ∀ c ∈ calls, c.IsForward) :
    ((ofList ts).run calls).1 = (effects calls ts).answer.map Answer.given ∧
    (ts.length ≤ maxLength → ((ofList ts).run calls).1 = (effects calls ts).answer.map .ok) ∧
    ∀ before, before <+: calls →
      let q := ((ofList ts).run before).2
      let e := effects before ts
      q = ⟨ts, e.taken.length⟩ ∧ 0 ≤ q.cursor ∧ q.cursor ≤ ts.length ∧
        q.remaining = e.left ∧ e.taken ++ q.remaining = ts := by
  rw [run_ofList hcalls]
  refine ⟨rfl, ?_, ?_⟩
  · intro hts
    exact given_answers hts calls
  · intro before hbefore
    have hforward : ∀ c ∈ before, c.IsForward := fun c hc => hcalls c (hbefore.subset hc)
    have hsplit := allTaken_append_left before ts
    have hmoved := (isSound_ofList ts).moved hsplit
    rw [ofList, Int.zero_add] at hmoved
    obtain ⟨⟨hfront, hback⟩, hleft⟩ := hmoved
    dsimp only
    rw [run_ofList hforward, hleft]
    exact ⟨rfl, hfront, hback, rfl, hsplit⟩

/-- Calls that look and move over the end, with three tokens. -/
theorem calls_are_answered_as_by_list_over_end :
    let ts : List Token := [⟨.name, "a"⟩, ⟨.equals, ""⟩, ⟨.text, "1"⟩]
    let calls : List Call :=
      [.peek 2, .peek 3, .pop, .length, .remaining, .advance 5, .isEmpty, .pop, .length]
    (∀ c ∈ calls, c.IsForward) ∧
      (ofList ts).run calls = ([.ok (.token (some ⟨.text, "1"⟩)), .ok (.token none),
        .ok (.token (some ⟨.name, "a"⟩)), .ok (.number 2),
        .ok (.tokens [⟨.equals, ""⟩, ⟨.text, "1"⟩]), .ok .done, .ok (.truth true),
        .ok (.token none), .ok (.number 0)], ⟨ts, 3⟩) := by
  intro ts calls
  have hcalls : ∀ c ∈ calls, c.IsForward := by
    simp [calls, Call.IsForward]
  obtain ⟨-, hanswers, hpoints⟩ := @calls_are_answered_as_by_list ts calls hcalls
  obtain ⟨hqueue, -⟩ := hpoints calls List.prefix_rfl
  have hlength : ts.length ≤ maxLength := by decide
  exact ⟨hcalls, Prod.ext (hanswers hlength) hqueue⟩

/-- A place before the start is one counted from the end. -/
example : ((ofList [⟨.name, "a"⟩, ⟨.equals, ""⟩]).call (.peek (-1))).1 =
    .ok (.token (some ⟨.equals, ""⟩)) := rfl

end TagCall.Token.Queue
