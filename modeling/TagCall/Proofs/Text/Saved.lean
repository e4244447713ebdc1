import TagCall.Proofs.Text.Bytes
import TagCall.SourceFile

/-!
# How a text was saved

A text is read back from its file however its lines were ended and whether a byte order mark stands
in front (`ofBytes_saved`). A file that is no UTF-8 is read byte by byte (`rawChars_of_invalid`),
and its line ends are newlines then as well (`unifyLines_eq`).
-/

namespace TagCall

namespace Text

/-! ### Line ends -/

inductive LineEnd where
  | lf
  | crlf
  | cr

def LineEnd.chars : LineEnd → List Char
  | lf => ['\n']
  | crlf => ['\r', '\n']
  | cr => ['\r']

/-- The text with all its lines ended in this way. -/
def LineEnd.applied (e : LineEnd) (cs : List Char) : List Char :=
  cs.flatMap fun c => if c = '\n' then e.chars else [c]

lemma LineEnd.applied_newline (e : LineEnd) (cs : List Char) :
    e.applied ('\n' :: cs) = e.chars ++ e.applied cs := rfl

lemma LineEnd.applied_cons (e : LineEnd) {c : Char} (h : c ≠ '\n') (cs : List Char) :
    e.applied (c :: cs) = c :: e.applied cs := by
  rw [applied, List.flatMap_cons, if_neg h, List.singleton_append, applied]

/-- A character in front was in front before, or is of a line end. -/
lemma LineEnd.head?_applied {e : LineEnd} {c : Char} {cs : List Char} (hc : c ∉ e.chars)
    (h : c ≠ '\n' → cs.head? ≠ some c) : (e.applied cs).head? ≠ some c := by
  cases cs with
  | nil => simp [applied]
  | cons d cs =>
    by_cases hd : d = '\n'
    · rw [hd, applied_newline]
      cases e <;> simp_all [chars, eq_comm]
    · rw [applied_cons e hd]
      rintro ⟨⟩
      exact h hd rfl

lemma unifyLines_cons {c : Char} (h : c ≠ '\r') (cs : List Char) :
    unifyLines (c :: cs) = c :: unifyLines cs := by
  rw [unifyLines]
  all_goals simp_all

lemma unifyLines_return {cs : List Char} (h : cs.head? ≠ some '\n') :
    unifyLines ('\r' :: cs) = '\n' :: unifyLines cs := by
  rw [unifyLines]
  rintro rest rfl
  exact h rfl

lemma unifyLines_applied (e : LineEnd) {cs : List Char} (h : '\r' ∉ cs) :
    unifyLines (e.applied cs) = cs := by
  induction cs with
  | nil => rfl
  | cons c cs ih =>
    rw [List.mem_cons, not_or] at h
    by_cases hc : c = '\n'
    · rw [hc, LineEnd.applied_newline]
      cases e with
      | lf => exact (unifyLines_cons (by decide) _).trans (congrArg _ (ih h.2))
      | crlf => exact congrArg _ (ih h.2)
      | cr =>
        have hnext : (LineEnd.cr.applied cs).head? ≠ some '\n' :=
          LineEnd.head?_applied (by decide) (absurd rfl)
        exact (unifyLines_return hnext).trans (congrArg _ (ih h.2))
    · rw [LineEnd.applied_cons e hc, unifyLines_cons (Ne.symm h.1), ih h.2]

/-- A carriage return with a newline after it as the newline. -/
def foldPairs : List Char → List Char
  | [] => []
  | '\r' :: '\n' :: rest => '\n' :: foldPairs rest
  | c :: rest => c :: foldPairs rest

/-- Every carriage return as a newline. -/
def foldReturns (cs : List Char) : List Char :=
  cs.map fun c => if c = '\r' then '\n' else c

lemma unifyLines_eq (cs : List Char) : unifyLines cs = foldReturns (foldPairs cs) := by
  fun_induction unifyLines cs with
  | case1 => rfl
  | case2 rest ih =>
    rw [foldPairs, ih]
    rfl
  | case3 rest hrest ih =>
    rw [foldPairs, ih]
    · rfl
    · exact fun more _ => hrest more
  | case4 c rest hpair hreturn ih =>
    have hc : c ≠ '\r' := hreturn
    rw [foldPairs, ih, foldReturns, foldReturns, List.map_cons, if_neg hc]
    exact fun more => hpair more

/-! ### Saving -/

def markBytes : ByteArray := ⟨#[0xEF, 0xBB, 0xBF]⟩

/-- A text as a file in UTF-8. -/
def saved (hasMark : Bool) (e : LineEnd) (t : String) : ByteArray :=
  (if hasMark then markBytes else ByteArray.empty) ++ (String.ofList (e.applied t.toList)).toUTF8

lemma markBytes_eq : markBytes = (String.singleton byteOrderMark).toUTF8 := by
  decide

lemma saved_eq (hasMark : Bool) (e : LineEnd) (t : String) :
    saved hasMark e t = (String.ofList ((if hasMark then [byteOrderMark] else []) ++
      e.applied t.toList)).toUTF8 := by
  rw [saved, String.ofList_append]
  cases hasMark with
  | false => simp
  | true =>
    rw [if_pos rfl, if_pos rfl, markBytes_eq]
    simp

lemma dropMark_mark (cs : List Char) : dropMark (byteOrderMark :: cs) = cs := by
  rw [dropMark, if_pos rfl]

lemma ofBytes_saved {t : String} (hreturn : '\r' ∉ t.toList)
    (hmark : t.toList.head? ≠ some byteOrderMark) (hasMark : Bool) (e : LineEnd) :
    ofBytes (saved hasMark e t) = t := by
  have hraw : rawChars (saved hasMark e t) = e.applied t.toList := by
    rw [saved_eq, rawChars_toUTF8, String.toList_ofList]
    cases hasMark with
    | true => exact dropMark_mark _
    | false =>
      have hnone : byteOrderMark ∉ e.chars := by cases e <;> decide
      exact dropMark_eq_self (LineEnd.head?_applied hnone fun _ => hmark)
  rw [ofBytes, hraw, unifyLines_applied e hreturn, String.ofList_toList]

/-! ### Files that are no UTF-8 -/

/-- A start of the byte order mark that is not all of it. -/
def IsMarkStart (bytes : ByteArray) : Prop :=
  bytes.data.toList <+: markBytes.data.toList ∧ bytes ≠ markBytes

lemma isMarkStart_of_isCutMark {bytes : ByteArray} (h : isCutMark bytes = true) :
    IsMarkStart bytes := by
  rw [isCutMark, Bool.or_eq_true, decide_eq_true_iff, decide_eq_true_iff] at h
  obtain ⟨data⟩ := bytes
  obtain rfl | rfl := h
  · exact ⟨by decide, by decide⟩
  · exact ⟨by decide, by decide⟩

lemma rawChars_of_invalid {bytes : ByteArray} (h : ¬bytes.IsValidUTF8)
    (hcut : ¬IsMarkStart bytes) : rawChars bytes = ofSingleBytes bytes := by
  have hnone : String.fromUTF8? bytes = none := dif_neg h
  rw [rawChars, if_neg (mt isMarkStart_of_isCutMark hcut), hnone]

end Text

open Text

/-- Every file has a text, without carriage returns. A text without carriage returns and without a
byte order mark in front is read from its file whichever way its lines were ended and whether a mark
was put in front, and so are its tokens, its HTML and its layout. A file that is no UTF-8 is read
byte by byte, with its line ends as newlines. -/
theorem source_is_read_however_saved :
    (∀ bytes, ∃ s, SourceFile.text (.ok bytes) = .ok s ∧ '\r' ∉ s.toList) ∧
    (∀ t : String, '\r' ∉ t.toList → t.toList.head? ≠ some byteOrderMark →
      ∀ hasMark e, SourceFile.text (.ok (saved hasMark e t)) = .ok t ∧
        SourceFile.tokens (.ok (saved hasMark e t)) =
          (Token.lex t).mapError (fun e => .source (.token e)) ∧
        (∀ o, SourceFile.html o (.ok (saved hasMark e t)) =
          (Html.ofSource o t).mapError .source) ∧
        ∀ o, SourceFile.layout o (.ok (saved hasMark e t)) =
          (Layout.ofSource o t).mapError .ofCompile) ∧
    ∀ bytes : ByteArray, ¬bytes.IsValidUTF8 → ¬IsMarkStart bytes →
      SourceFile.text (.ok bytes) =
        .ok (String.ofList (foldReturns (foldPairs (ofSingleBytes bytes)))) := by
  refine ⟨fun bytes => ⟨ofBytes bytes, rfl, no_return_ofBytes bytes⟩, ?_, ?_⟩
  · intro t hreturn hmark hasMark e
    have htext : SourceFile.text (.ok (saved hasMark e t)) = .ok t :=
      congrArg Except.ok (ofBytes_saved hreturn hmark hasMark e)
    refine ⟨htext, ?_, fun o => ?_, fun o => ?_⟩
    · rw [SourceFile.tokens, htext]
      rfl
    · rw [SourceFile.html, htext]
      rfl
    · rw [SourceFile.layout, htext]
      rfl
  · intro bytes hinvalid hcut
    have hraw := rawChars_of_invalid hinvalid hcut
    rw [SourceFile.text, ofBytes, hraw, unifyLines_eq]

/-- A text of two lines with a mark and a carriage return between them, and the same line end in a
file where a byte that is never in UTF-8 is in front. -/
theorem source_is_read_however_saved_two_lines :
    SourceFile.text (.ok (saved true .cr "a\nb")) = .ok "a\nb" ∧
      SourceFile.text (.ok ⟨#[0xFF, 13, 98, 13, 10]⟩) = .ok "ÿ\nb\n" := by
  obtain ⟨-, hsaved, hinvalid⟩ := source_is_read_however_saved
  have hbytes : ¬ByteArray.IsValidUTF8 ⟨#[0xFF, 13, 98, 13, 10]⟩ := by
    rw [← ByteArray.validateUTF8_eq_true_iff]
    decide
  refine ⟨(hsaved "a\nb" (by decide) (by decide) true .cr).1, ?_⟩
  exact hinvalid _ hbytes fun h => absurd h.1 (by decide)

end TagCall
