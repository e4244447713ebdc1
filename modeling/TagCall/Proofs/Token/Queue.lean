import Mathlib.Tactic.Lemma
import TagCall.Token.Queue

/-!
# A queue by its remaining tokens

While the cursor stands in the list, or right behind it, looking ahead and moving on are what they
are for the list of remaining tokens, however far they reach. The cursor of a queue that is only
moved on always stands there (`isSound_iff`).
-/

namespace TagCall.Token.Queue

/-- The cursor stands in the list or right behind it. -/
def IsSound (q : Queue) : Prop :=
  0 ≤ q.cursor ∧ q.cursor ≤ q.tokens.length

lemma isSound_ofList (ts : List Token) : (ofList ts).IsSound := by
  constructor
  · exact Int.le_refl 0
  · exact Int.natCast_nonneg ts.length

lemma remaining_ofList (ts : List Token) : (ofList ts).remaining = ts :=
  rfl

lemma IsSound.remaining_eq {q : Queue} (h : q.IsSound) :
    q.remaining = q.tokens.drop q.cursor.toNat := by
  rw [remaining, if_pos h.1]

lemma IsSound.length_remaining {q : Queue} (h : q.IsSound) :
    (q.remaining.length : Int) = q.tokens.length - q.cursor := by
  obtain ⟨hfront, hback⟩ := h
  have hlength : q.remaining.length = q.tokens.length - q.cursor.toNat := by
    rw [remaining, if_pos hfront, List.length_drop]
  omega

/-- What is seen ahead is what remains, and nothing behind the end. -/
lemma IsSound.peek {q : Queue} (h : q.IsSound) (offset : Nat) :
    q.peek offset = .ok q.remaining[offset]? := by
  have hfront := h.1
  have hplace : (q.cursor + offset).toNat = q.cursor.toNat + offset := by omega
  rw [h.remaining_eq, List.getElem?_drop, Queue.peek]
  by_cases hend : (q.tokens.length : Int) ≤ q.cursor + offset
  · have hnone : q.tokens[q.cursor.toNat + offset]? = none := by
      rw [List.getElem?_eq_none_iff]
      omega
    simp only [if_pos hend, hnone]
  · have hin : 0 ≤ q.cursor + offset := by omega
    simp only [if_neg hend, if_pos hin, hplace]

lemma IsSound.pop_nil {q : Queue} (h : q.IsSound) (hend : q.remaining = []) :
    q.pop = .ok (none, q) := by
  have hpeek : q.peek 0 = .ok q.remaining[0]? := h.peek 0
  rw [pop, hpeek, hend]
  rfl

lemma IsSound.pop_cons {q : Queue} (h : q.IsSound) {t : Token} {rest : List Token}
    (hfront : q.remaining = t :: rest) :
    q.pop = .ok (some t, { q with cursor := q.cursor + 1 }) := by
  have hpeek : q.peek 0 = .ok q.remaining[0]? := h.peek 0
  rw [pop, hpeek, hfront]
  rfl

lemma IsSound.isEmpty {q : Queue} (h : q.IsSound) : q.isEmpty = q.remaining.isEmpty := by
  have hlength := h.length_remaining
  rw [Queue.isEmpty, Bool.eq_iff_iff, decide_eq_true_iff, List.isEmpty_iff_length_eq_zero]
  omega

lemma IsSound.advance {q : Queue} (h : q.IsSound) (count : Nat) : (q.advance count).IsSound := by
  obtain ⟨hfront, hback⟩ := h
  constructor
  · change 0 ≤ min (q.cursor + count) q.tokens.length
    omega
  · exact Int.min_le_right _ _

lemma IsSound.remaining_advance {q : Queue} (h : q.IsSound) (count : Nat) :
    (q.advance count).remaining = q.remaining.drop count := by
  have hfront := h.1
  rw [(h.advance count).remaining_eq, h.remaining_eq, List.drop_drop, Queue.advance]
  by_cases hend : q.cursor + count ≤ q.tokens.length
  · have hplace : (min (q.cursor + count) q.tokens.length).toNat = q.cursor.toNat + count := by
      omega
    rw [hplace]
  · have hplace : (min (q.cursor + count) q.tokens.length).toNat = q.tokens.length := by
      omega
    have hover : q.tokens.length ≤ q.cursor.toNat + count := by omega
    rw [hplace, List.drop_length, List.drop_of_length_le hover]

/-- The queues with such a cursor are those that a list of tokens is advanced to. -/
theorem isSound_iff {q : Queue} : q.IsSound ↔ ∃ (ts : List Token) (count : Nat),
    q = (ofList ts).advance count := by
  constructor
  · rintro ⟨hfront, hback⟩
    have hplace : min (0 + (q.cursor.toNat : Int)) q.tokens.length = q.cursor := by omega
    refine ⟨q.tokens, q.cursor.toNat, ?_⟩
    simp only [Queue.advance, ofList, hplace]
  · rintro ⟨ts, count, rfl⟩
    exact (isSound_ofList ts).advance count

/-- The cursor moves by the count, but over no more tokens than remain. -/
lemma IsSound.advance_min {q : Queue} (h : q.IsSound) (count : Nat) :
    q.advance count = { q with cursor := q.cursor + (min count q.remaining.length : Nat) } := by
  have hlength := h.length_remaining
  have hplace : min (q.cursor + count) q.tokens.length =
      q.cursor + (min count q.remaining.length : Nat) := by
    omega
  rw [Queue.advance, hplace]

lemma IsSound.advance_eq {q : Queue} (h : q.IsSound) {count : Nat}
    (hcount : count ≤ q.remaining.length) :
    q.advance count = { q with cursor := q.cursor + count } := by
  rw [h.advance_min, Nat.min_eq_left hcount]

lemma IsSound.remaining_moved {q : Queue} (h : q.IsSound) {count : Nat}
    (hcount : count ≤ q.remaining.length) :
    ({ q with cursor := q.cursor + count } : Queue).remaining = q.remaining.drop count := by
  rw [← h.advance_eq hcount, h.remaining_advance]

/-- A cursor moved over the tokens that are taken stands in front of those that are left. -/
lemma IsSound.moved {q : Queue} (h : q.IsSound) {taken left : List Token}
    (hsplit : taken ++ left = q.remaining) :
    ({ q with cursor := q.cursor + taken.length } : Queue).IsSound ∧
      ({ q with cursor := q.cursor + taken.length } : Queue).remaining = left := by
  have hcount : taken.length ≤ q.remaining.length := by
    rw [← hsplit, List.length_append]
    omega
  constructor
  · rw [← h.advance_eq hcount]
    exact h.advance taken.length
  · rw [h.remaining_moved hcount, ← hsplit, List.drop_left]

end TagCall.Token.Queue
