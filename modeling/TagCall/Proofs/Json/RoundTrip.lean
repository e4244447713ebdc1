import Mathlib.Data.List.Basic
import Mathlib.Tactic.Lemma
import TagCall.Json.Read

/-!
# Reading what was written on one line

A value made of texts, arrays and objects is read back from its compact form, whatever stands behind
it, if no object has two fields with one key (`value_compactChars`). The length of what is read is
fuel enough.
-/

namespace TagCall.Json

/-- All scalars in a value are texts, and the fields of an object have different keys. -/
inductive IsTextual : Json → Prop where
  | text (s : String) : IsTextual (.text s)
  | array {items : List Json} : (∀ v ∈ items, IsTextual v) → IsTextual (.array items)
  | object {fields : List (String × Json)} :
    (fields.map Prod.fst).Nodup → (∀ f ∈ fields, IsTextual f.2) → IsTextual (.object fields)

/-! ### Characters -/

lemma unescape?_of_shortEscape? {c e : Char} (h : shortEscape? c = some e) :
    unescape? e = some c ∧ e ≠ 'u' := by
  have hpair : (c, e) ∈ [('"', '"'), ('\\', '\\'), ('\n', 'n'), ('\r', 'r'), ('\t', 't'),
      ('\x08', 'b'), ('\x0c', 'f')] := by
    unfold shortEscape? at h
    grind
  have hall : ∀ p ∈ [('"', '"'), ('\\', '\\'), ('\n', 'n'), ('\r', 'r'), ('\t', 't'),
      ('\x08', 'b'), ('\x0c', 'f')], unescape? p.2 = some p.1 ∧ p.2 ≠ 'u' := by decide
  exact hall (c, e) hpair

lemma shortEscape?_eq_none {c : Char} (h : shortEscape? c = none) : c ≠ '"' ∧ c ≠ '\\' := by
  grind [shortEscape?]

lemma codeUnit?_append {cs rest : List Char} {n : Nat} (h : codeUnit? cs = some (n, rest))
    (after : List Char) : codeUnit? (cs ++ after) = some (n, rest ++ after) := by
  unfold codeUnit? at h
  split at h
  · rename_i a b c d tail
    simp only [Option.bind_eq_bind, Option.bind_eq_some_iff, Option.pure_def, Option.some.injEq,
      Prod.mk.injEq] at h
    obtain ⟨x, hx, y, hy, z, hz, w, hw, hn, rfl⟩ := h
    simp [codeUnit?, hx, hy, hz, hw, hn]
  · cases h

lemma codeUnit?_hex {n : Nat} (h : n < 0x20) (after : List Char) :
    codeUnit? (Text.hex 4 n ++ after) = some (n, after) := by
  have hall : ∀ k < 0x20, codeUnit? (Text.hex 4 k) = some (k, []) := by decide
  exact codeUnit?_append (hall n h) after

lemma charOf?_toNat (c : Char) : charOf? c.toNat = some c := by
  have hvalid : c.toNat.isValidChar := c.valid
  have hc := Char.ofNat_toNat c
  rw [Char.ofNat, dif_pos hvalid] at hc
  rw [charOf?, dif_pos hvalid, hc]

lemma quotedStep_control {c : Char} (h : c.toNat < 0x20) (after : List Char) :
    quotedStep ('\\' :: 'u' :: (Text.hex 4 c.toNat ++ after)) = .char c after := by
  have hplain : ¬(0xD800 ≤ c.toNat ∧ c.toNat < 0xDC00) := by omega
  have hunit : escapedUnit? (Text.hex 4 c.toNat ++ after) = some (c, after) := by
    simp [escapedUnit?, codeUnit?_hex h, hplain, charOf?_toNat]
  rw [quotedStep, hunit]

lemma quotedStep_plain {c : Char} (hquote : c ≠ '"') (hslash : c ≠ '\\') (h : ¬c.toNat < 0x20)
    (after : List Char) : quotedStep (c :: after) = .char c after := by
  unfold quotedStep
  split <;> simp_all

lemma quotedStep_escapeChar (c : Char) (after : List Char) :
    quotedStep (escapeChar c ++ after) = .char c after := by
  unfold escapeChar
  split
  · rename_i e hshort
    obtain ⟨he, hu⟩ := unescape?_of_shortEscape? hshort
    rw [List.cons_append, List.singleton_append, quotedStep]
    · rw [he]
    · exact hu
  · rename_i hshort
    obtain ⟨hquote, hslash⟩ := shortEscape?_eq_none hshort
    split
    · rename_i hcontrol
      exact quotedStep_control hcontrol after
    · rename_i hplain
      exact quotedStep_plain hquote hslash hplain after

lemma quotedText_of_char {cs rest : List Char} {c : Char} (h : quotedStep cs = .char c rest) :
    quotedText cs = (quotedText rest).map fun (s, rest) => (c :: s, rest) := by
  rw [quotedText]
  split <;> simp_all

lemma quotedText_escaped (s after : List Char) :
    quotedText (s.flatMap escapeChar ++ '"' :: after) = some (s, after) := by
  induction s with
  | nil =>
    rw [quotedText]
    rfl
  | cons c s ih =>
    rw [List.flatMap_cons, List.append_assoc, quotedText_of_char (quotedStep_escapeChar c _), ih]
    rfl

lemma quoted_escaped (s : String) (after : List Char) :
    quoted (s.toList.flatMap escapeChar ++ '"' :: after) = .ok (s, after) := by
  have hs := String.ofList_toList (s := s)
  rw [quoted, quotedText_escaped]
  simp only [hs]

/-! ### Values -/

/-- The first character of a value says that no white space and no end stands there. -/
lemma IsTextual.exists_head {v : Json} (h : v.IsTextual) :
    ∃ c tail, compactChars v = c :: tail ∧ isSpace c = false ∧ c ≠ ']' := by
  cases h with
  | text s => exact ⟨'"', _, rfl, by decide, by decide⟩
  | array _ => exact ⟨'[', _, rfl, by decide, by decide⟩
  | object _ _ => exact ⟨'{', _, rfl, by decide, by decide⟩

lemma skipSpace_of_head {c : Char} (h : isSpace c = false) (rest : List Char) :
    skipSpace (c :: rest) = c :: rest := by
  rw [skipSpace, List.dropWhile_cons_of_neg (by simp [h])]

/-- What `value` reads of a value that was written. -/
def ReadsBack (v : Json) : Prop :=
  ∀ fuel after, (compactChars v).length ≤ fuel →
    value fuel (compactChars v ++ after) = .ok (v, after)

lemma readsBack_text (s : String) : ReadsBack (.text s) := by
  intro fuel after hfuel
  cases fuel with
  | zero => simp [compactChars, scalarChars, quote] at hfuel
  | succ fuel =>
    have hchars : compactChars (.text s) ++ after =
        '"' :: (s.toList.flatMap escapeChar ++ '"' :: after) := by
      simp [compactChars, scalarChars, quote]
    rw [hchars, value, quoted_escaped]
    rfl

lemma items_of_last {fuel : Nat} {cs rest : List Char} {v : Json}
    (h : value fuel cs = .ok (v, ']' :: rest)) : items (fuel + 1) cs = .ok ([v], rest) := by
  rw [items, h]
  rfl

lemma items_of_more {fuel : Nat} {cs rest after : List Char} {v : Json} {vs : List Json}
    (h : value fuel cs = .ok (v, ',' :: rest)) (hrest : skipSpace rest = rest)
    (hmore : items fuel rest = .ok (vs, after)) : items (fuel + 1) cs = .ok (v :: vs, after) := by
  have hcomma : skipSpace (',' :: rest) = ',' :: rest := skipSpace_of_head (by decide) rest
  rw [items, h]
  simp only [bind, Except.bind, hcomma, hrest, hmore, pure, Except.pure]

lemma compactItems_cons (v w : Json) (vs : List Json) :
    compactItems (v :: w :: vs) = compactChars v ++ ',' :: compactItems (w :: vs) := rfl

lemma exists_head_compactItems {v : Json} (h : v.IsTextual) (vs : List Json) :
    ∃ c tail, compactItems (v :: vs) = c :: tail ∧ isSpace c = false ∧ c ≠ ']' := by
  obtain ⟨c, tail, hchars, hspace, hend⟩ := h.exists_head
  cases vs with
  | nil => exact ⟨c, tail ++ [']'], by rw [compactItems, hchars, List.cons_append], hspace, hend⟩
  | cons w vs =>
    refine ⟨c, tail ++ ',' :: compactItems (w :: vs), ?_, hspace, hend⟩
    rw [compactItems_cons, hchars, List.cons_append]

lemma skipSpace_compactItems {v : Json} (h : v.IsTextual) (vs : List Json) (after : List Char) :
    skipSpace (compactItems (v :: vs) ++ after) = compactItems (v :: vs) ++ after := by
  obtain ⟨c, tail, hchars, hspace, -⟩ := exists_head_compactItems h vs
  rw [hchars, List.cons_append, skipSpace_of_head hspace]

lemma items_compactItems {v : Json} {vs : List Json} (htextual : ∀ w ∈ v :: vs, w.IsTextual)
    (hback : ∀ w ∈ v :: vs, ReadsBack w) {fuel : Nat}
    (hfuel : (compactItems (v :: vs)).length ≤ fuel) (after : List Char) :
    items fuel (compactItems (v :: vs) ++ after) = .ok (v :: vs, after) := by
  induction vs generalizing v fuel with
  | nil =>
    rw [compactItems, List.length_append, List.length_singleton] at hfuel
    obtain ⟨fuel, rfl⟩ : ∃ n, fuel = n + 1 := ⟨fuel - 1, by omega⟩
    rw [compactItems, List.append_assoc, List.singleton_append]
    exact items_of_last (hback v List.mem_cons_self fuel _ (by omega))
  | cons w vs ih =>
    rw [compactItems_cons, List.length_append, List.length_cons] at hfuel
    obtain ⟨fuel, rfl⟩ : ∃ n, fuel = n + 1 := ⟨fuel - 1, by omega⟩
    rw [List.forall_mem_cons] at htextual hback
    rw [compactItems_cons, List.append_assoc, List.cons_append]
    have hfirst := hback.1 fuel (',' :: (compactItems (w :: vs) ++ after)) (by omega)
    have hskip := skipSpace_compactItems (htextual.2 w List.mem_cons_self) vs after
    exact items_of_more hfirst hskip (ih htextual.2 hback.2 (by omega))

lemma readsBack_array {vs : List Json} (htextual : ∀ v ∈ vs, v.IsTextual)
    (hback : ∀ v ∈ vs, ReadsBack v) : ReadsBack (.array vs) := by
  intro fuel after hfuel
  rw [compactChars, List.length_cons] at hfuel
  obtain ⟨fuel, rfl⟩ : ∃ n, fuel = n + 1 := ⟨fuel - 1, by omega⟩
  cases vs with
  | nil => rfl
  | cons v vs =>
    have hskip := skipSpace_compactItems (htextual v List.mem_cons_self) vs after
    have hitems : items fuel (compactItems (v :: vs) ++ after) = .ok (v :: vs, after) :=
      items_compactItems htextual hback (by omega) after
    obtain ⟨c, tail, hchars, -, hend⟩ :=
      exists_head_compactItems (htextual v List.mem_cons_self) vs
    rw [compactChars, List.cons_append, value, hskip]
    split
    · rename_i rest hclose
      rw [hchars, List.cons_append] at hclose
      exact absurd (List.cons.inj hclose).1 hend
    · rw [hitems]
      rfl

/-! ### Objects -/

lemma setField_of_not_mem {key : String} {v : Json} {fs : List (String × Json)}
    (h : key ∉ fs.map Prod.fst) : setField key v fs = fs ++ [(key, v)] := by
  induction fs with
  | nil => rfl
  | cons f fs ih =>
    rw [List.map_cons, List.mem_cons, not_or] at h
    rw [setField, if_neg (Ne.symm h.1), ih h.2, List.cons_append]

/-- A field in front of what follows its value. -/
def fieldChars (f : String × Json) (after : List Char) : List Char :=
  quote escapeChar f.1 ++ ':' :: (compactChars f.2 ++ after)

lemma compactFields_cons (f g : String × Json) (fs : List (String × Json)) :
    compactFields (f :: g :: fs) = fieldChars f (',' :: compactFields (g :: fs)) := rfl

lemma compactFields_singleton (f : String × Json) : compactFields [f] = fieldChars f ['}'] := rfl

lemma fieldChars_append (f : String × Json) (more after : List Char) :
    fieldChars f more ++ after = fieldChars f (more ++ after) := by
  simp [fieldChars]

lemma length_fieldChars (f : String × Json) (after : List Char) :
    (compactChars f.2).length + after.length < (fieldChars f after).length := by
  simp only [fieldChars, List.length_append, List.length_cons]
  omega

lemma skipSpace_compactChars {v : Json} (h : v.IsTextual) (after : List Char) :
    skipSpace (compactChars v ++ after) = compactChars v ++ after := by
  obtain ⟨c, tail, hchars, hspace, -⟩ := h.exists_head
  rw [hchars, List.cons_append, skipSpace_of_head hspace]

lemma fieldChars_eq (f : String × Json) (after : List Char) :
    fieldChars f after =
      '"' :: (f.1.toList.flatMap escapeChar ++ '"' :: ':' :: (compactChars f.2 ++ after)) := by
  simp [fieldChars, quote]

section Fields

variable {f : String × Json} {before : List (String × Json)} {fuel : Nat} {rest : List Char}
  (htextual : f.2.IsTextual) (hback : ReadsBack f.2) (hkey : f.1 ∉ before.map Prod.fst)
  (hfuel : (compactChars f.2).length ≤ fuel)

include htextual hback hkey hfuel

lemma fields_of_last :
    fields (fuel + 1) before (fieldChars f ('}' :: rest)) = .ok (before ++ [f], rest) := by
  have hcolon (cs : List Char) : skipSpace (':' :: cs) = ':' :: cs :=
    skipSpace_of_head (by decide) cs
  have hbrace : skipSpace ('}' :: rest) = '}' :: rest := skipSpace_of_head (by decide) rest
  rw [fieldChars_eq, fields]
  simp only [bind, Except.bind, quoted_escaped, hcolon, skipSpace_compactChars htextual,
    hback fuel _ hfuel, setField_of_not_mem hkey, hbrace, pure, Except.pure]

lemma fields_of_more (hrest : skipSpace rest = rest) :
    fields (fuel + 1) before (fieldChars f (',' :: rest)) = fields fuel (before ++ [f]) rest := by
  have hcolon (cs : List Char) : skipSpace (':' :: cs) = ':' :: cs :=
    skipSpace_of_head (by decide) cs
  have hcomma : skipSpace (',' :: rest) = ',' :: rest := skipSpace_of_head (by decide) rest
  rw [fieldChars_eq, fields]
  simp only [bind, Except.bind, quoted_escaped, hcolon, skipSpace_compactChars htextual,
    hback fuel _ hfuel, setField_of_not_mem hkey, hcomma, hrest]

end Fields

lemma exists_head_compactFields (f : String × Json) (fs : List (String × Json)) :
    ∃ tail, compactFields (f :: fs) = '"' :: tail := by
  cases fs with
  | nil => exact ⟨_, rfl⟩
  | cons g fs => exact ⟨_, rfl⟩

lemma skipSpace_compactFields (f : String × Json) (fs : List (String × Json))
    (after : List Char) :
    skipSpace (compactFields (f :: fs) ++ after) = compactFields (f :: fs) ++ after := by
  obtain ⟨tail, htail⟩ := exists_head_compactFields f fs
  rw [htail, List.cons_append, skipSpace_of_head (by decide)]

lemma not_mem_of_nodup_append {f : String × Json} {fs before : List (String × Json)}
    (h : ((before ++ f :: fs).map Prod.fst).Nodup) : f.1 ∉ before.map Prod.fst := by
  rw [List.map_append, List.map_cons, List.nodup_append] at h
  intro hmem
  exact h.2.2 _ hmem _ List.mem_cons_self rfl

lemma fields_compactFields {f : String × Json} {fs before : List (String × Json)}
    (hkeys : ((before ++ f :: fs).map Prod.fst).Nodup)
    (htextual : ∀ g ∈ f :: fs, g.2.IsTextual) (hback : ∀ g ∈ f :: fs, ReadsBack g.2) {fuel : Nat}
    (hfuel : (compactFields (f :: fs)).length ≤ fuel) (after : List Char) :
    fields fuel before (compactFields (f :: fs) ++ after) = .ok (before ++ f :: fs, after) := by
  induction fs generalizing f before fuel with
  | nil =>
    have hlength := length_fieldChars f ['}']
    rw [compactFields_singleton] at hfuel ⊢
    obtain ⟨fuel, rfl⟩ : ∃ n, fuel = n + 1 := ⟨fuel - 1, by omega⟩
    rw [fieldChars_append, List.singleton_append]
    exact fields_of_last (htextual f List.mem_cons_self) (hback f List.mem_cons_self)
      (not_mem_of_nodup_append hkeys) (by omega)
  | cons g fs ih =>
    have hlength := length_fieldChars f (',' :: compactFields (g :: fs))
    rw [compactFields_cons] at hfuel ⊢
    rw [List.length_cons] at hlength
    obtain ⟨fuel, rfl⟩ : ∃ n, fuel = n + 1 := ⟨fuel - 1, by omega⟩
    have hvalue : (compactChars f.2).length ≤ fuel := by omega
    rw [fieldChars_append, List.cons_append, fields_of_more (htextual f List.mem_cons_self)
      (hback f List.mem_cons_self) (not_mem_of_nodup_append hkeys) hvalue
      (skipSpace_compactFields g fs after)]
    rw [List.forall_mem_cons] at htextual hback
    rw [List.append_cons] at hkeys
    have hmore : fields fuel (before ++ [f]) (compactFields (g :: fs) ++ after) =
        .ok (before ++ [f] ++ g :: fs, after) := ih hkeys htextual.2 hback.2 (by omega)
    rw [hmore, ← List.append_cons]

lemma readsBack_object {fs : List (String × Json)} (hkeys : (fs.map Prod.fst).Nodup)
    (htextual : ∀ f ∈ fs, f.2.IsTextual) (hback : ∀ f ∈ fs, ReadsBack f.2) :
    ReadsBack (.object fs) := by
  intro fuel after hfuel
  rw [compactChars, List.length_cons] at hfuel
  obtain ⟨fuel, rfl⟩ : ∃ n, fuel = n + 1 := ⟨fuel - 1, by omega⟩
  cases fs with
  | nil => rfl
  | cons f fs =>
    have hfields : fields fuel [] (compactFields (f :: fs) ++ after) = .ok (f :: fs, after) :=
      fields_compactFields hkeys htextual hback (by omega) after
    rw [compactChars, List.cons_append, value, skipSpace_compactFields]
    split
    · rename_i rest hclose
      obtain ⟨tail, htail⟩ := exists_head_compactFields f fs
      rw [htail, List.cons_append] at hclose
      cases hclose
    · rw [hfields]
      rfl

lemma value_compactChars {v : Json} (h : v.IsTextual) : ReadsBack v := by
  induction h with
  | text s => exact readsBack_text s
  | array htextual hback => exact readsBack_array htextual hback
  | object hkeys htextual hback => exact readsBack_object hkeys htextual hback

lemma read_compact {v : Json} (h : v.IsTextual) : read v.compact = .ok v := by
  have hskip := skipSpace_compactChars h []
  have hvalue := value_compactChars h (v.compactChars.length + 1) [] (by omega)
  rw [List.append_nil] at hskip hvalue
  rw [read, compact, String.toList_ofList, hskip, hvalue]
  rfl

end TagCall.Json
