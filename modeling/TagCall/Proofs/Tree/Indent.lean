import TagCall.Proofs.Text.Numeral
import TagCall.Tree.Indent

/-!
# Units named by settings

The texts that name a unit of indentation, as a grammar over the text and its lower case
(`ofText?_eq_some_iff`). A unit is named by its own text, with `spaces:` in front or not.
-/

namespace TagCall

namespace Indent

open Text (IsNumeral)

/-- What a text names, by the word that it is without blanks around and in lower case: the
tabulator itself or a word for it names a tab, and a numeral, with one `spaces:` in front or not,
names so many spaces. -/
inductive Names (text : String) (word : List Char) : Indent → Prop where
  | tabulator : text = "\t" → Names text word .tab
  | tabName : word ∈ tabNames → Names text word .tab
  | number {body : List Char} {n : Nat} :
    word = body ∨ word = spacesWord ++ body → IsNumeral body n → Names text word (.spaces n)

/-! ### Words and numerals are apart -/

lemma dropSpacesWord_cases (word : List Char) :
    word = dropSpacesWord word ∨ word = spacesWord ++ dropSpacesWord word := by
  unfold dropSpacesWord
  split
  · rename_i h
    obtain ⟨body, rfl⟩ := List.isPrefixOf_iff_prefix.1 h
    exact .inr (by rw [List.drop_left])
  · exact .inl rfl

lemma dropSpacesWord_append (body : List Char) : dropSpacesWord (spacesWord ++ body) = body := by
  have h : spacesWord.isPrefixOf (spacesWord ++ body) :=
    List.isPrefixOf_iff_prefix.2 (List.prefix_append _ _)
  rw [dropSpacesWord, if_pos h, List.drop_left]

lemma dropSpacesWord_numeral {body : List Char} {n : Int} (h : IsNumeral body n) :
    dropSpacesWord body = body := by
  have hword : ¬spacesWord.isPrefixOf body := by
    intro hp
    obtain ⟨tail, rfl⟩ := List.isPrefixOf_iff_prefix.1 hp
    have hs := h.forall_isNumeralChar 's' (by simp [spacesWord])
    exact absurd hs (by decide)
  rw [dropSpacesWord, if_neg hword]

/-- What names a number of spaces is neither the tabulator nor a word for it. -/
lemma not_tab_of_number {word body : List Char} {n : Int}
    (hword : word = body ∨ word = spacesWord ++ body) (h : IsNumeral body n) :
    word ≠ [] ∧ word ∉ tabNames ∧ dropSpacesWord word = body := by
  rcases hword with rfl | rfl
  · refine ⟨h.ne_nil, ?_, dropSpacesWord_numeral h⟩
    intro htab
    have ht : 't' ∈ word := by
      revert htab
      simp only [tabNames, List.mem_cons, List.not_mem_nil, or_false]
      rintro (rfl | rfl | rfl) <;> decide
    exact absurd (h.forall_isNumeralChar 't' ht) (by decide)
  · exact ⟨by simp [spacesWord], by simp [spacesWord, tabNames], dropSpacesWord_append body⟩

/-- The texts that name a unit are read as this unit. -/
theorem ofText?_eq_some_iff {text : String} {i : Indent} :
    ofText? text = some i ↔ Names text (Text.lower (Text.strip text.toList)) i := by
  constructor
  · intro h
    unfold ofText? at h
    split at h
    · rename_i htext
      obtain rfl := Option.some.inj h
      exact .tabulator htext
    · dsimp only at h
      split at h
      · rename_i hword
        obtain rfl := Option.some.inj h
        exact .tabName hword
      · split at h
        · rename_i n hn
          obtain rfl := Option.some.inj h
          exact .number (dropSpacesWord_cases _) (Text.integer?_eq_some_iff.1 hn)
        · cases h
  · intro h
    unfold ofText?
    cases h with
    | tabulator htext => rw [if_pos htext]
    | tabName hword => simp [hword]
    | @number body n hword hbody =>
      obtain ⟨hne, htab, hdrop⟩ := not_tab_of_number hword hbody
      have htext : text ≠ "\t" := by
        rintro rfl
        exact hne (by decide)
      have hvalue : Text.integer? body = some (Int.ofNat n) := Text.integer?_eq_some_iff.2 hbody
      simp [htext, htab, hdrop, hvalue]

/-! ### Other ways of writing in lower case -/

/-- The characters that units are named by. -/
def isUnitChar (c : Char) : Bool :=
  Text.isNumeralChar c || tabNames.flatten.contains c || spacesWord.contains c

/-- A text and its lower case, told as far as units depend on it. ASCII letters are lowered one by
one. Any other character is kept, or others stand in its place; then units are named neither by it
nor by them. -/
inductive LowersTo : List Char → List Char → Prop where
  | nil : LowersTo [] []
  | ascii {c : Char} {cs ds : List Char} :
    c.toNat < 0x80 → LowersTo cs ds → LowersTo (c :: cs) (c.toLower :: ds)
  | kept {c : Char} {cs ds : List Char} :
    0x80 ≤ c.toNat → LowersTo cs ds → LowersTo (c :: cs) (c :: ds)
  | replaced {c : Char} {image cs ds : List Char} :
    0x80 ≤ c.toNat → ¬isUnitChar c → image ≠ [] → (∀ d ∈ image, ¬isUnitChar d) →
      LowersTo cs ds → LowersTo (c :: cs) (image ++ ds)

lemma toLower_of_not_ascii {c : Char} (h : 0x80 ≤ c.toNat) : c.toLower = c := by
  unfold Char.toLower
  split
  · rename_i hc
    have hbound : c.toNat ≤ 90 := hc.2
    omega
  · rfl

lemma lower_cons_of_not_ascii {c : Char} (h : 0x80 ≤ c.toNat) (cs : List Char) :
    Text.lower (c :: cs) = c :: Text.lower cs := by
  rw [Text.lower, List.map_cons, toLower_of_not_ascii h]
  rfl

/-- A word of characters that units are named by is the same in every way of lowering. -/
lemma LowersTo.eq_lower {cs word : List Char} (h : LowersTo cs word)
    (hchars : (∀ c ∈ word, isUnitChar c) ∨ ∀ c ∈ Text.lower cs, isUnitChar c) :
    word = Text.lower cs := by
  induction h with
  | nil => rfl
  | ascii _ _ ih =>
    have hrest := ih (hchars.imp (fun h c hc => h c (by simp [hc]))
      (fun h c hc => h c (List.mem_cons_of_mem _ hc)))
    rw [hrest]
    rfl
  | @kept c cs ds hc _ ih =>
    rw [lower_cons_of_not_ascii hc] at hchars ⊢
    have hrest := ih (hchars.imp (fun h d hd => h d (by simp [hd]))
      (fun h d hd => h d (by simp [hd])))
    rw [hrest]
  | @replaced c image cs ds hc hunit himage hothers _ _ =>
    exfalso
    rcases hchars with hchars | hchars
    · obtain ⟨d, tail, rfl⟩ := List.exists_cons_of_ne_nil himage
      exact hothers d (by simp) (hchars d (by simp))
    · refine hunit (hchars c ?_)
      rw [lower_cons_of_not_ascii hc]
      exact List.mem_cons_self

/-- Whatever else the word is, a tabulator names a tab. Otherwise the word is made of the characters
that units are named by. -/
lemma Names.forall_isUnitChar {text : String} {word : List Char} {i : Indent}
    (h : Names text word i) :
    text = "\t" ∧ i = .tab ∨ ∀ c ∈ word, isUnitChar c := by
  cases h with
  | tabulator htext => exact .inl ⟨htext, rfl⟩
  | tabName hword =>
    right
    intro c hc
    have hmem : c ∈ tabNames.flatten := List.mem_flatten.2 ⟨word, hword, hc⟩
    simp [isUnitChar, hmem]
  | @number body n hword hbody =>
    right
    have hnumeral : ∀ c ∈ body, isUnitChar c := by
      intro c hc
      simp [isUnitChar, hbody.forall_isNumeralChar c hc]
    rcases hword with rfl | rfl
    · exact hnumeral
    · intro c hc
      rcases List.mem_append.1 hc with hc | hc
      · simp [isUnitChar, hc]
      · exact hnumeral c hc

/-- It makes no difference for units how characters other than ASCII letters are lowered. -/
lemma LowersTo.names_iff {cs word : List Char} (h : LowersTo cs word) {text : String} {i : Indent} :
    Names text word i ↔ Names text (Text.lower cs) i := by
  constructor
  · intro hnames
    rcases hnames.forall_isUnitChar with ⟨htext, rfl⟩ | hchars
    · exact .tabulator htext
    · rwa [← h.eq_lower (.inl hchars)]
  · intro hnames
    rcases hnames.forall_isUnitChar with ⟨htext, rfl⟩ | hchars
    · exact .tabulator htext
    · rwa [h.eq_lower (.inr hchars)]

lemma lowersTo_lower (cs : List Char) : LowersTo cs (Text.lower cs) := by
  induction cs with
  | nil => exact .nil
  | cons c cs ih =>
    by_cases hc : c.toNat < 0x80
    · exact .ascii hc ih
    · have hbound : 0x80 ≤ c.toNat := by omega
      rw [lower_cons_of_not_ascii hbound]
      exact .kept hbound ih

/-! ### Units by their own text -/

lemma lower_strip_eq_self {cs : List Char} (h : ∀ c ∈ cs, ¬Text.isBlank c ∧ c.toLower = c) :
    Text.lower (Text.strip cs) = cs := by
  have hstrip : Text.strip cs = cs := Text.trimmed_eq_self fun c hc => (h c hc).1
  rw [hstrip, Text.lower, List.map_congr_left fun c hc => (h c hc).2, List.map_id']

lemma plain_of_isDigit {c : Char} (h : c.isDigit) : ¬Text.isBlank c ∧ c.toLower = c := by
  have hbounds : 48 ≤ c.toNat ∧ c.toNat ≤ 57 := by
    simpa [Char.isDigit, UInt32.le_iff_toNat_le] using h
  have hall : ∀ n ≤ 57, 48 ≤ n →
      ¬Text.isBlank (Char.ofNat n) ∧ (Char.ofNat n).toLower = Char.ofNat n := by
    decide
  have hc := hall c.toNat hbounds.2 hbounds.1
  rwa [Char.ofNat_toNat] at hc

lemma ofText?_number {text : String} {n : Nat} (hn : n < 10 ^ Text.maxDigits)
    (htext : text.toList = Nat.toDigits 10 n ∨ text.toList = spacesWord ++ Nat.toDigits 10 n) :
    ofText? text = some (.spaces n) := by
  have hdigit : ∀ c ∈ Nat.toDigits 10 n, ¬Text.isBlank c ∧ c.toLower = c := by
    intro c hc
    exact plain_of_isDigit (Nat.isDigit_of_mem_toDigits (by decide) (by decide) hc)
  have hletters : ∀ c ∈ spacesWord, ¬Text.isBlank c ∧ c.toLower = c := by
    simp [spacesWord, Text.isBlank]
  have hchars : ∀ c ∈ text.toList, ¬Text.isBlank c ∧ c.toLower = c := by
    intro c hc
    rcases htext with htext | htext <;> rw [htext] at hc
    · exact hdigit c hc
    · rcases List.mem_append.1 hc with hc | hc
      · exact hletters c hc
      · exact hdigit c hc
  rw [ofText?_eq_some_iff, lower_strip_eq_self hchars]
  exact .number htext (Text.isNumeral_toDigits hn)

lemma Names.hasNumeral {text : String} {word : List Char} {i : Indent} (h : Names text word i) :
    Text.hasNumeral i.width := by
  cases h with
  | tabulator _ => exact Text.hasNumeral_one
  | tabName _ => exact Text.hasNumeral_one
  | number _ hbody => exact hbody.hasNumeral

/-- A unit that is named can be written, and its text names it. -/
lemma ofText?_toText {i : Indent} (h : Text.hasNumeral i.width) :
    ofText? i.toText = some i ∧ (i ≠ .tab → ofText? ("spaces:" ++ i.toText) = some i) := by
  cases i with
  | tab => exact ⟨by decide, fun h => absurd rfl h⟩
  | spaces n =>
    have hn : n < 10 ^ Text.maxDigits := Text.hasNumeral_iff.1 h
    have htext : (toText (.spaces n)).toList = Nat.toDigits 10 n := by
      rw [toText, Nat.toString_eq_repr, Nat.toList_repr]
    refine ⟨ofText?_number hn (.inl htext), ?_⟩
    intro _
    apply ofText?_number hn
    right
    rw [String.toList_append, htext]
    rfl

/-! ### Settings -/

lemma ofSetting_of_plain {v : Setting} {text : String} (h : v.plain = .ok text) :
    (∀ i, ofSetting v = .ok i ↔ ofText? text = some i) ∧
      (ofText? text = none → ofSetting v = .error (.malformed v.describe)) := by
  unfold ofSetting
  rw [h]
  dsimp only
  cases ofText? text <;> simp

lemma plain_int {n : Int} (h : n.natAbs < 10 ^ Text.maxDigits) :
    (Setting.scalar (.int n)).plain = .ok (toString n) := by
  have hwritable : (Setting.scalar (.int n)).isWritable := by
    rwa [Setting.isWritable, Scalar.isWritable, Text.hasNumeral_iff]
  rw [Setting.plain, if_pos hwritable]
  rfl

/-- A text, or a whole number by its text, is read as a unit exactly if it names one, in whichever
way its word is written in lower case. All else is refused, and what is told is the setting as it
was given. A unit that was read can be written, and it is read again from its own text, also with
`spaces:` in front if it is no tab. -/
theorem units_are_read_as_named {v : Setting} {text : String} {word : List Char}
    (hv : v = .text text ∨
      ∃ n : Int, n.natAbs < 10 ^ Text.maxDigits ∧ v = .scalar (.int n) ∧ text = toString n)
    (hword : LowersTo (Text.strip text.toList) word) :
    (∀ i, ofSetting v = .ok i ↔ Names text word i) ∧
    ((∀ i, ¬Names text word i) → ∃ e, ofSetting v = .error e ∧ e = .malformed v.describe ∧
      e.message = "Invalid indent " ++ v.describe ++ ": expected a number, 'spaces:N' or 'tab'") ∧
    ∀ i, ofSetting v = .ok i → Text.hasNumeral i.width ∧ ofSetting (.text i.toText) = .ok i ∧
      (i ≠ .tab → ofSetting (.text ("spaces:" ++ i.toText)) = .ok i) := by
  have hplain : v.plain = .ok text := by
    rcases hv with rfl | ⟨n, hn, rfl, rfl⟩
    · rfl
    · exact plain_int hn
  obtain ⟨hok, herror⟩ := ofSetting_of_plain hplain
  have hnames : ∀ i, ofSetting v = .ok i ↔ Names text word i := by
    intro i
    rw [hok, ofText?_eq_some_iff, hword.names_iff]
  refine ⟨hnames, ?_, ?_⟩
  · intro hnone
    refine ⟨_, herror ?_, rfl, rfl⟩
    cases htext : ofText? text with
    | none => rfl
    | some i => exact absurd ((hnames i).1 ((hok i).2 htext)) (hnone i)
  · intro i hi
    have hnumeral := ((hnames i).1 hi).hasNumeral
    obtain ⟨hown, hspaces⟩ := ofText?_toText hnumeral
    refine ⟨hnumeral, ((ofSetting_of_plain rfl).1 i).2 hown, ?_⟩
    intro htab
    exact ((ofSetting_of_plain rfl).1 i).2 (hspaces htab)

/-- A prefix in mixed case and a sign with a blank in front of it, and a number below zero. -/
theorem units_are_read_as_named_mixed_case :
    ofSetting (.text " Spaces: +1_0\n") = .ok (.spaces 10) ∧
      ofSetting (.text "spaces:10") = .ok (.spaces 10) ∧
      ofSetting (.scalar (.int (-1))) = .error (.malformed "-1") := by
  have hword := lowersTo_lower (Text.strip " Spaces: +1_0\n".toList)
  obtain ⟨hread, -, hagain⟩ := units_are_read_as_named (.inl rfl) hword
  have hnames : ofText? " Spaces: +1_0\n" = some (.spaces 10) := by decide
  have hok := (hread (.spaces 10)).2 (ofText?_eq_some_iff.1 hnames)
  have hminus := lowersTo_lower (Text.strip "-1".toList)
  have hshort : (-1 : Int).natAbs < 10 ^ Text.maxDigits := Text.hasNumeral_iff.1 Text.hasNumeral_one
  obtain ⟨-, hrefused, -⟩ := units_are_read_as_named (.inr ⟨-1, hshort, rfl, rfl⟩) hminus
  have hnone : ∀ i, ¬Names "-1" (Text.lower (Text.strip "-1".toList)) i := by
    intro i hi
    have hsome := ofText?_eq_some_iff.2 hi
    have htext : ofText? "-1" = none := by decide
    rw [htext] at hsome
    cases hsome
  obtain ⟨e, he, rfl, -⟩ := hrefused hnone
  exact ⟨hok, (hagain _ hok).2.2 (by simp), he⟩

end Indent

end TagCall
