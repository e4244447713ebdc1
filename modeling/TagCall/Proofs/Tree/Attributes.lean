import TagCall.Proofs.Token.Queue
import TagCall.Proofs.Tree.Reads

/-!
# Attributes taken from a queue

A reader that has only the cursor of a queue looks three tokens ahead, over the end of the queue if
need be, and moves on by three if they are an attribute. It takes what the reader of a list takes
from the remaining tokens (`attributesAt_eq`), and only one list of attributes can be taken as long
as one stands in front.
-/

namespace TagCall.Read

open Token (Queue)

/-- The attribute that three places ahead hold, if they hold a whole one. -/
def attributeOf : Option Token → Option Token → Option Token → Option Attribute
  | some ⟨.name, key⟩, some ⟨.equals, _⟩, some ⟨.text, value⟩ => some ⟨key, value⟩
  | _, _, _ => none

/-- The attribute at the cursor, if a whole one stands there. Nothing is taken. -/
def attributeAt (q : Queue) : Except Queue.OutOfRange (Option Attribute) := do
  return attributeOf (← q.peek 0) (← q.peek 1) (← q.peek 2)

lemma cursor_lt_of_peek {q : Queue} {offset : Int} {t : Token}
    (h : q.peek offset = .ok (some t)) : q.cursor + offset < q.tokens.length := by
  unfold Queue.peek at h
  dsimp only at h
  split at h
  · cases h
  · omega

lemma exists_of_attributeOf {first second third : Option Token} {a : Attribute}
    (h : attributeOf first second third = some a) :
    ∃ e, first = some ⟨.name, a.key⟩ ∧ second = some ⟨.equals, e⟩ ∧
      third = some ⟨.text, a.value⟩ := by
  unfold attributeOf at h
  split at h
  · obtain rfl := Option.some.inj h
    exact ⟨_, rfl, rfl, rfl⟩
  · cases h

lemma cursor_lt_of_attributeAt {q : Queue} {a : Attribute}
    (h : attributeAt q = .ok (some a)) : q.cursor + 2 < q.tokens.length := by
  unfold attributeAt at h
  cases hfirst : q.peek 0 with
  | error _ => simp [hfirst, bind, Except.bind] at h
  | ok first =>
    cases hsecond : q.peek 1 with
    | error _ => simp [hfirst, hsecond, bind, Except.bind] at h
    | ok second =>
      cases hthird : q.peek 2 with
      | error _ => simp [hfirst, hsecond, hthird, bind, Except.bind] at h
      | ok third =>
        simp only [hfirst, hsecond, hthird, bind, Except.bind, pure, Except.pure,
          Except.ok.injEq] at h
        obtain ⟨_, -, -, rfl⟩ := exists_of_attributeOf h
        exact cursor_lt_of_peek hthird

/-- Takes attributes as long as a whole one stands at the cursor. -/
def attributesAt (q : Queue) : Except Queue.OutOfRange (List Attribute × Queue) :=
  match h : attributeAt q with
  | .error e => .error e
  | .ok none => .ok ([], q)
  | .ok (some a) =>
    have := cursor_lt_of_attributeAt h
    (attributesAt (q.advance 3)).map fun (as, left) => (a :: as, left)
termination_by (q.tokens.length - q.cursor).toNat
decreasing_by
  simp only [Queue.advance]
  omega

lemma attributesAt_none {q : Queue} (h : attributeAt q = .ok none) :
    attributesAt q = .ok ([], q) := by
  rw [attributesAt]
  split <;> simp_all

lemma attributesAt_some {q : Queue} {a : Attribute} (h : attributeAt q = .ok (some a)) :
    attributesAt q = (attributesAt (q.advance 3)).map fun (as, left) => (a :: as, left) := by
  rw [attributesAt]
  split <;> simp_all

/-! ### The cursor and the list -/

lemma attributeAt_eq {q : Queue} (h : q.IsSound) :
    attributeAt q = .ok (attributeOf q.remaining[0]? q.remaining[1]? q.remaining[2]?) := by
  have hfirst : q.peek 0 = .ok q.remaining[0]? := h.peek 0
  have hsecond : q.peek 1 = .ok q.remaining[1]? := h.peek 1
  have hthird : q.peek 2 = .ok q.remaining[2]? := h.peek 2
  rw [attributeAt, hfirst, hsecond, hthird]
  rfl

lemma attributeOf_eq_none {ts : List Token} (h : ¬StartsAttribute ts) :
    attributeOf ts[0]? ts[1]? ts[2]? = none := by
  rw [Option.eq_none_iff_forall_ne_some]
  intro a ha
  obtain ⟨e, hfirst, hsecond, hthird⟩ := exists_of_attributeOf ha
  rcases ts with - | ⟨first, - | ⟨second, - | ⟨third, rest⟩⟩⟩
  · cases hfirst
  · cases hsecond
  · cases hthird
  · obtain rfl := Option.some.inj hfirst
    obtain rfl := Option.some.inj hsecond
    obtain rfl := Option.some.inj hthird
    exact h ⟨a.key, e, a.value, rest, rfl⟩

/-- From the cursor on the same attributes are taken as from the list of remaining tokens, and the
cursor moves over three tokens for each. -/
lemma attributesAt_eq {q : Queue} (h : q.IsSound) :
    attributesAt q = .ok ((attributes q.remaining).1,
      { q with cursor := q.cursor + (3 * (attributes q.remaining).1.length : Nat) }) := by
  generalize hts : q.remaining = ts
  induction ts using attributes.induct generalizing q with
  | case1 key e value rest ih =>
    have hprobe : attributeAt q = .ok (some ⟨key, value⟩) := by
      rw [attributeAt_eq h, hts]
      rfl
    have hthree : 3 ≤ q.remaining.length := by
      simp [hts]
    have hnext : q.advance 3 = { q with cursor := q.cursor + 3 } := h.advance_eq hthree
    have hsound : (q.advance 3).IsSound := h.advance 3
    have hrest : (q.advance 3).remaining = q.remaining.drop 3 := h.remaining_advance 3
    rw [hts] at hrest
    have hmore := ih hsound hrest
    have hcursor : q.cursor + 3 + (3 * (attributes rest).1.length : Nat) =
        q.cursor + (3 * ((attributes rest).1.length + 1) : Nat) := by
      omega
    rw [attributesAt_some hprobe, hmore, hnext]
    simp only [Except.map, attributes, List.length_cons, hcursor]
  | case2 ts hstop =>
    have hstarts : ¬StartsAttribute ts := by
      rintro ⟨key, e, value, rest, rfl⟩
      exact hstop key e value rest rfl
    have hprobe : attributeAt q = .ok none := by
      rw [attributeAt_eq h, hts, attributeOf_eq_none hstarts]
    have hnone : attributes ([] ++ ts) = ([], ts) := attributes_append rfl hstarts
    rw [List.nil_append] at hnone
    rw [attributesAt_none hprobe, hnone]
    simp

lemma length_of_attributes {as : List Attribute} {taken : List Token}
    (h : taken.map Token.bare = as.flatMap Attribute.tokens) : taken.length = 3 * as.length := by
  have hlength := congrArg List.length h
  rw [List.length_map] at hlength
  rw [hlength]
  clear h hlength
  induction as with
  | nil => rfl
  | cons a as ih =>
    rw [List.flatMap_cons, List.length_append, ih, Attribute.tokens, List.length_cons]
    simp only [List.length_cons, List.length_nil]
    omega

/-- Attributes are taken from a queue without fault. Three tokens are gone for each, which spell the
attributes one after another, and the queue is left right behind them, where no whole attribute
stands. No other attributes are spelled by the first tokens up to such a place. -/
theorem attributes_are_taken_whole {q : Queue} (h : q.IsSound) :
    ∃ as taken rest left, attributesAt q = .ok (as, left) ∧ attributes q.remaining = (as, rest) ∧
      left = { q with cursor := q.cursor + (3 * as.length : Nat) } ∧ left.remaining = rest ∧
      q.remaining = taken ++ rest ∧ taken.length = 3 * as.length ∧
      taken.map Token.bare = as.flatMap Attribute.tokens ∧ ¬StartsAttribute rest ∧
      ∀ as' taken' rest', q.remaining = taken' ++ rest' →
        taken'.map Token.bare = as'.flatMap Attribute.tokens → ¬StartsAttribute rest' →
        as' = as ∧ taken' = taken ∧ rest' = rest := by
  obtain ⟨taken, hsplit, htaken, hend⟩ := attributes_spec q.remaining
  have hcursor := attributesAt_eq h
  rcases hread : attributes q.remaining with ⟨as, rest⟩
  simp only [hread] at hsplit htaken hend hcursor
  have hlength := length_of_attributes htaken
  have hcount : 3 * as.length ≤ q.remaining.length := by
    rw [hsplit, List.length_append]
    omega
  have hleft := h.remaining_moved hcount
  rw [hsplit, ← hlength, List.drop_left, hlength] at hleft
  refine ⟨as, taken, rest, _, hcursor, rfl, rfl, hleft, hsplit, hlength, htaken, hend, ?_⟩
  intro as' taken' rest' hsplit' htaken' hend'
  have hread' := attributes_append htaken' hend'
  rw [← hsplit', hread] at hread'
  obtain ⟨rfl, rfl⟩ := Prod.mk.inj hread'
  rw [hsplit] at hsplit'
  exact ⟨rfl, (List.append_cancel_right hsplit').symm, rfl⟩

/-- The same attribute twice, and a name with an equals sign at the end of the queue. -/
theorem attributes_are_taken_whole_part_left :
    let ts : List Token := [⟨.name, "a"⟩, ⟨.equals, ""⟩, ⟨.text, "1"⟩, ⟨.name, "a"⟩, ⟨.equals, ""⟩,
      ⟨.text, "1"⟩, ⟨.name, "b"⟩, ⟨.equals, ""⟩]
    attributesAt (Queue.ofList ts) = .ok ([⟨"a", "1"⟩, ⟨"a", "1"⟩], ⟨ts, 6⟩) ∧
      (Queue.mk ts 6).remaining = [⟨.name, "b"⟩, ⟨.equals, ""⟩] := by
  intro ts
  obtain ⟨as, taken, rest, left, hat, hread, rfl, hleft, -⟩ :=
    attributes_are_taken_whole (Queue.isSound_ofList ts)
  obtain ⟨rfl, rfl⟩ := Prod.mk.inj hread
  exact ⟨hat, hleft⟩

end TagCall.Read
