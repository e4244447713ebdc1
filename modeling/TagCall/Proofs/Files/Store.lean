import Mathlib.Tactic.Lemma
import TagCall.Files.Store

/-!
# Files after a write

A write changes what stands at one location, where no folder stands. A path that led somewhere
before leads to the same location after it, so a file that was written can be read
(`read_of_write`), and one that could be read before still can (`read_write`).
-/

namespace TagCall.Files

lemma mapError_eq_ok_iff {α ε ε' : Type} {f : ε → ε'} {x : Except ε α} {a : α} :
    x.mapError f = .ok a ↔ x = .ok a := by
  cases x with
  | error e => exact ⟨nofun, nofun⟩
  | ok b =>
    change Except.ok b = Except.ok a ↔ _
    rw [Except.ok.injEq, Except.ok.injEq]

lemma find?_replace (l m : Location) (e : Entry) (entries : List (Location × Entry)) :
    (entries.map fun old => if old.1 = l then (l, e) else old).find? (·.1 = m) =
      if m = l then (entries.find? (·.1 = m)).map fun _ => (l, e)
      else entries.find? (·.1 = m) := by
  induction entries with
  | nil => simp
  | cons old rest ih =>
    rw [List.map_cons, List.find?_cons, List.find?_cons, ih]
    by_cases hold : old.1 = l
    · by_cases hm : m = l
      · simp [hold, hm]
      · have hne : l ≠ m := fun h => hm h.symm
        simp [hold, hm, hne]
    · rw [if_neg hold]
      by_cases hm : m = l
      · simp [hold, hm]
      · simp [hm]

/-- What a path leads to once a file was written at a location. -/
def Target.after (l : Location) (c : ByteArray) : Target → Target
  | .folder m => .folder m
  | .file m old => if m = l then .file m c else .file m old
  | .vacant m => if m = l then .file m c else .vacant m

namespace Store

variable {s s' : Store} {l : Location} {c : ByteArray}

lemma find?_put (s : Store) (l m : Location) (e : Entry) :
    ((s.put l e).entries.find? (·.1 = m)).map (·.2) =
      if m = l then some e else (s.entries.find? (·.1 = m)).map (·.2) := by
  unfold put
  by_cases hany : s.entries.any (·.1 = l)
  · have hsome : (s.entries.find? (·.1 = l)).isSome := by
      rwa [List.find?_isSome, ← List.any_eq_true]
    obtain ⟨old, hold⟩ := Option.isSome_iff_exists.1 hsome
    simp only [if_pos hany, find?_replace]
    by_cases hm : m = l
    · simp [hm, hold]
    · simp [hm]
  · have hnone : s.entries.find? (·.1 = l) = none := by
      rw [List.find?_eq_none]
      intro old hold h
      exact hany (List.any_eq_true.2 ⟨old, hold, h⟩)
    simp only [if_neg hany, List.find?_append]
    by_cases hm : m = l
    · simp [hm, hnone]
    · have hne : l ≠ m := fun h => hm h.symm
      simp [hm, hne]

/-- What stands at a location once an entry was put where no folder stood. -/
lemma entry?_put (m : Location) (e : Entry) (hl : s.entry? l ≠ some .folder) :
    entry? (s.put l e) m = if m = l then some e else s.entry? m := by
  have hbase : l.isPrefixOf s.base = false := by
    rw [Bool.eq_false_iff]
    intro h
    exact hl (if_pos h)
  have hput : (s.put l e).base = s.base := rfl
  unfold entry?
  rw [hput, find?_put]
  by_cases hm : m = l
  · simp [hm, hbase]
  · simp [hm]

/-! ### Paths -/

lemma follow_put (hl : s.entry? l ≠ some .folder) {here : Location} {names : List String}
    {t : Target} (h : s.follow here names = .ok t) :
    (s.put l (.file c)).follow here names = .ok (t.after l c) := by
  fun_induction follow s here names with
  | case1 here =>
    cases h
    rfl
  | case2 here name rest hstay ih => rw [follow, if_pos hstay, ih h]
  | case3 here rest hstay ih => rw [follow, if_neg hstay, if_pos rfl, ih h]
  | case4 here name rest hstay hup hlong => cases h
  | case5 here name rest hstay hup hlong next hentry ih =>
    have hne : next ≠ l := by
      rintro rfl
      exact hl hentry
    rw [follow, if_neg hstay, if_neg hup, if_neg hlong]
    simp only [entry?_put _ _ hl, next, if_neg hne, hentry]
    exact ih h
  | case6 here name hstay hup hlong next old hentry | case8 here name hstay hup hlong next hentry =>
    cases h
    rw [follow, if_neg hstay, if_neg hup, if_neg hlong]
    simp only [entry?_put _ _ hl]
    by_cases hm : next = l
    · simp only [next] at hm
      simp only [Target.after, next, if_pos hm]
    · simp only [next] at hm hentry
      simp only [Target.after, next, if_neg hm, hentry]
  | case7 | case9 => cases h

lemma follow_file {here : Location} {names : List String}
    (h : s.follow here names = .ok (.file l c)) : s.entry? l = some (.file c) := by
  fun_induction follow s here names <;> simp_all

lemma follow_vacant {here : Location} {names : List String}
    (h : s.follow here names = .ok (.vacant l)) : s.entry? l = none := by
  fun_induction follow s here names <;> simp_all

lemma locate_eq_ok_iff {path : String} {hasRoot : Bool} {names : List String} {t : Target} :
    s.locate path hasRoot names = .ok t ↔
      ('\x00' ∉ path.toList ∧ path ≠ "" ∧ ¬maxPath < path.utf8ByteSize) ∧
        s.follow (s.start hasRoot) names = .ok t := by
  unfold locate
  by_cases hnull : '\x00' ∈ path.toList
  · simp [hnull]
  · by_cases hempty : path = ""
    · simp [hempty]
    · by_cases hlong : maxPath < path.utf8ByteSize
      · simp [hnull, hempty, hlong]
      · rw [if_neg hnull, if_neg hempty, if_neg hlong]
        rw [mapError_eq_ok_iff, and_iff_right ⟨hnull, hempty, hlong⟩]

lemma target_put (hl : s.entry? l ≠ some .folder) {p : Path} {t : Target}
    (h : s.target p = .ok t) : (s.put l (.file c)).target p = .ok (t.after l c) := by
  obtain ⟨hpath, hfollow⟩ := locate_eq_ok_iff.1 h
  exact locate_eq_ok_iff.2 ⟨hpath, follow_put hl hfollow⟩

lemma read_eq_ok_iff {p : Path} :
    s.read p = .ok c ↔ ∃ l, s.target p = .ok (.file l c) := by
  unfold read
  cases s.target p with
  | error e => simp [content]
  | ok t => cases t <;> simp [content]

lemma locate_eq_nullCharacter_iff {path : String} {hasRoot : Bool} {names : List String} :
    s.locate path hasRoot names = .error .nullCharacter ↔ '\x00' ∈ path.toList := by
  unfold locate
  split
  · rename_i h
    exact iff_of_true rfl h
  · rename_i h
    refine iff_of_false ?_ h
    split
    · simp
    · split
      · simp
      · intro heq
        cases hfollow : s.follow (s.start hasRoot) names with
        | error f =>
          rw [hfollow] at heq
          cases heq
        | ok t =>
          rw [hfollow] at heq
          cases heq

lemma content_eq_nullCharacter_iff {path : String} {t : Except Error Target} :
    content path t = .error .nullCharacter ↔ t = .error .nullCharacter := by
  rcases t with e | (l | ⟨l, old⟩ | l) <;> simp [content]

lemma read_eq_nullCharacter_iff {p : Path} :
    s.read p = .error .nullCharacter ↔ '\x00' ∈ p.toText.toList := by
  rw [read, content_eq_nullCharacter_iff, target, locate_eq_nullCharacter_iff]

lemma readGiven_eq_nullCharacter_iff {path : String} :
    s.readGiven path = .error .nullCharacter ↔ '\x00' ∈ path.toList := by
  rw [readGiven, content_eq_nullCharacter_iff, seek, locate_eq_nullCharacter_iff]

lemma write_eq_nullCharacter_iff {p : Path} :
    s.write p c = .error .nullCharacter ↔ '\x00' ∈ p.toText.toList := by
  have htarget : s.target p = .error .nullCharacter ↔ '\x00' ∈ p.toText.toList :=
    locate_eq_nullCharacter_iff
  rw [← htarget, write]
  rcases s.target p with e | (l | ⟨l, old⟩ | l) <;> simp

/-- A write puts a file at one location, where no folder stands. -/
lemma put_of_write {p : Path} (h : s.write p c = .ok s') :
    ∃ l t, s.target p = .ok t ∧ t.after l c = .file l c ∧ s.entry? l ≠ some .folder ∧
      s' = s.put l (.file c) := by
  unfold write at h
  split at h
  · rename_i l old htarget
    refine ⟨l, _, htarget, if_pos rfl, ?_, (Except.ok.inj h).symm⟩
    rw [follow_file (locate_eq_ok_iff.1 htarget).2]
    simp
  · rename_i l htarget
    refine ⟨l, _, htarget, if_pos rfl, ?_, (Except.ok.inj h).symm⟩
    rw [follow_vacant (locate_eq_ok_iff.1 htarget).2]
    simp
  · cases h
  · cases h

lemma read_of_write {p : Path} (h : s.write p c = .ok s') : s'.read p = .ok c := by
  obtain ⟨l, t, htarget, hafter, hl, rfl⟩ := put_of_write h
  rw [read_eq_ok_iff]
  refine ⟨l, ?_⟩
  rw [target_put hl htarget, hafter]

/-- A file that can be read still can after a write, with the same content or the one written. -/
lemma read_write {p q : Path} {old : ByteArray} (h : s.write p c = .ok s')
    (hq : s.read q = .ok old) : s'.read q = .ok old ∨ s'.read q = .ok c := by
  obtain ⟨l, t, -, -, hl, rfl⟩ := put_of_write h
  obtain ⟨m, hm⟩ := read_eq_ok_iff.1 hq
  have htarget := target_put (c := c) hl hm
  rw [Target.after] at htarget
  rw [read_eq_ok_iff, read_eq_ok_iff]
  split at htarget
  · exact .inr ⟨m, htarget⟩
  · exact .inl ⟨m, htarget⟩

lemma isFolder_of_read {p : Path} (h : s.read p = .ok c) : s.isFolder p = .ok false := by
  obtain ⟨l, htarget⟩ := read_eq_ok_iff.1 h
  rw [isFolder, look, htarget]
  rfl

end Store

end TagCall.Files
