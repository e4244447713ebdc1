import Mathlib.Tactic.Lemma
import TagCall.Text.Bytes

/-!
# Text that is written and read again

A text in UTF-8 is read back as it was, if it has no carriage return and no byte order mark in front
(`ofBytes_toUTF8`). A text that was read has no carriage return, but may have a second mark in
front.
-/

namespace TagCall.Text

lemma fromUTF8?_toUTF8 (s : String) : String.fromUTF8? s.toUTF8 = some s := by
  rw [String.fromUTF8?, String.toUTF8_eq_toByteArray, dif_pos s.isValidUTF8]
  rfl

lemma validateUTF8_toUTF8 (s : String) : s.toUTF8.validateUTF8 = true :=
  ByteArray.validateUTF8_eq_true_iff.2 s.isValidUTF8

/-- The start of a byte order mark is no text in UTF-8. -/
lemma isCutMark_toUTF8 (s : String) : isCutMark s.toUTF8 = false := by
  have hvalid := validateUTF8_toUTF8 s
  rw [Bool.eq_false_iff]
  intro h
  rw [isCutMark, Bool.or_eq_true, decide_eq_true_iff, decide_eq_true_iff] at h
  obtain h | h := h
  · have hbytes : s.toUTF8 = ⟨#[0xEF]⟩ := by rw [← h]
    rw [hbytes] at hvalid
    exact absurd hvalid (by decide)
  · have hbytes : s.toUTF8 = ⟨#[0xEF, 0xBB]⟩ := by rw [← h]
    rw [hbytes] at hvalid
    exact absurd hvalid (by decide)

lemma rawChars_toUTF8 (s : String) : rawChars s.toUTF8 = dropMark s.toList := by
  rw [rawChars, isCutMark_toUTF8, if_neg Bool.false_ne_true, fromUTF8?_toUTF8]

lemma unifyLines_eq_self {cs : List Char} (h : '\r' ∉ cs) : unifyLines cs = cs := by
  fun_induction unifyLines cs with
  | case1 => rfl
  | case2 rest ih | case3 rest _ ih => simp at h
  | case4 c rest _ _ ih =>
    rw [List.mem_cons, not_or] at h
    rw [ih h.2]

lemma dropMark_eq_self {cs : List Char} (h : cs.head? ≠ some byteOrderMark) :
    dropMark cs = cs := by
  cases cs with
  | nil => rfl
  | cons c rest => simp_all [dropMark]

lemma ofBytes_toUTF8 {s : String} (hreturn : '\r' ∉ s.toList)
    (hmark : s.toList.head? ≠ some byteOrderMark) : ofBytes s.toUTF8 = s := by
  rw [ofBytes, rawChars_toUTF8, dropMark_eq_self hmark, unifyLines_eq_self hreturn,
    String.ofList_toList]

lemma no_return_ofBytes (bytes : ByteArray) : '\r' ∉ (ofBytes bytes).toList := by
  rw [ofBytes, String.toList_ofList]
  exact unifyLines_no_return _

end TagCall.Text
