import Mathlib.Tactic.Lemma
import TagCall.Files.Path

/-!
# Paths as text

The text of a path leads to the path again (`ofText_toText`), for every path that a text leads to
and for what another extension makes of it.
-/

namespace TagCall.Files

lemma no_slash_splitSlashes (cs : List Char) : ∀ part ∈ splitSlashes cs, '/' ∉ part := by
  fun_induction splitSlashes cs <;> grind

lemma splitSlashes_eq_self {cs : List Char} (h : '/' ∉ cs) : splitSlashes cs = [cs] := by
  fun_induction splitSlashes cs <;> simp_all

lemma splitSlashes_append {cs : List Char} (h : '/' ∉ cs) (rest : List Char) :
    splitSlashes (cs ++ '/' :: rest) = cs :: splitSlashes rest := by
  induction cs with
  | nil => rfl
  | cons c cs ih =>
    rw [List.mem_cons, not_or] at h
    rw [List.cons_append, splitSlashes, ih h.2]
    simpa using fun hc => h.1 hc.symm

lemma splitSlashes_intercalate {names : List (List Char)} (hne : names ≠ [])
    (h : ∀ name ∈ names, '/' ∉ name) : splitSlashes (List.intercalate ['/'] names) = names := by
  induction names with
  | nil => exact absurd rfl hne
  | cons name names ih =>
    rw [List.forall_mem_cons] at h
    by_cases hnames : names = []
    · rw [hnames, List.intercalate_singleton, splitSlashes_eq_self h.1]
    · rw [List.intercalate_cons_of_ne_nil hnames, List.append_assoc, List.singleton_append,
        splitSlashes_append h.1, ih hnames h.2]

lemma mem_intercalate_slash {c : Char} (hc : c ≠ '/') {parts : List (List Char)} :
    c ∈ List.intercalate ['/'] parts ↔ ∃ part ∈ parts, c ∈ part := by
  induction parts with
  | nil => simp [List.intercalate]
  | cons part rest ih =>
    by_cases hrest : rest = []
    · simp [hrest]
    · simp [List.intercalate_cons_of_ne_nil hrest, ih, hc]

lemma mem_of_mem_splitSlashes {c : Char} {cs part : List Char} (hpart : part ∈ splitSlashes cs)
    (hc : c ∈ part) : c ∈ cs := by
  fun_induction splitSlashes cs generalizing part <;> grind

namespace Path

/-- Whether a text can lead to the path. -/
structure IsNormal (p : Path) : Prop where
  root : p.root ∈ ["", "/", "//"]
  names : ∀ name ∈ p.names, name ≠ "" ∧ name ≠ "." ∧ '/' ∉ name.toList

lemma isNormal_ofText (s : String) : (ofText s).IsNormal where
  root := by
    simp only [ofText, rootOf]
    split <;> simp
  names := by
    intro name hname
    simp only [ofText, List.mem_filter, List.mem_map, decide_eq_true_eq] at hname
    obtain ⟨⟨part, hpart, rfl⟩, hempty, hpoint⟩ := hname
    refine ⟨hempty, hpoint, ?_⟩
    rw [String.toList_ofList]
    exact no_slash_splitSlashes _ part hpart

lemma stem_subset (name : List Char) : stem name ⊆ name := by
  simp only [stem]
  split
  · exact List.Subset.refl _
  · intro c hc
    rw [List.mem_reverse] at hc
    exact List.mem_reverse.1 (List.drop_subset _ _ hc)

lemma isName_of_suffix {front suffix : List Char} (hfront : '/' ∉ front) (hsuffix : '/' ∉ suffix)
    (hne : suffix ≠ []) :
    String.ofList (front ++ '.' :: suffix) ≠ "" ∧ String.ofList (front ++ '.' :: suffix) ≠ "." ∧
      '/' ∉ (String.ofList (front ++ '.' :: suffix)).toList := by
  have hlength : 0 < suffix.length := List.length_pos_iff.2 hne
  refine ⟨?_, ?_, ?_⟩
  · intro h
    have hchars := congrArg (·.toList.length) h
    simp at hchars
  · intro h
    have hchars := congrArg (·.toList.length) h
    simp at hchars
    omega
  · simp [hfront, hsuffix]

lemma IsNormal.withExtension {p q : Path} {extension : String} (hp : p.IsNormal)
    (h : p.withExtension extension = .ok q) : q.IsNormal ∧ q.names ≠ [] := by
  unfold Path.withExtension at h
  split at h
  · cases h
  · rename_i hextension
    rw [not_or] at hextension
    cases h
    refine ⟨⟨hp.root, ?_⟩, by simp⟩
    rw [List.forall_mem_append, List.forall_mem_singleton]
    refine ⟨fun name hname => hp.names name (List.dropLast_subset _ hname), ?_⟩
    have hlast : '/' ∉ (p.names.getLast?.getD "").toList := by
      cases hlast : p.names.getLast? with
      | none => simp
      | some name => exact (hp.names name (List.mem_of_getLast? hlast)).2.2
    have hstem : '/' ∉ stem (p.names.getLast?.getD "").toList := fun h => hlast (stem_subset _ h)
    exact isName_of_suffix hstem hextension.2 (by simpa using hextension.1)

lemma toList_toText {p : Path} (h : p.names ≠ []) :
    p.toText.toList = p.root.toList ++ List.intercalate ['/'] (p.names.map String.toList) := by
  rw [toText, if_neg (fun hp => h hp.2), String.toList_append, String.toList_intercalate]
  rfl

lemma ofText_of_name {name : String} (hslash : '/' ∉ name.toList) (hempty : name ≠ "")
    (hpoint : name ≠ ".") : ofText name = ⟨"", [name]⟩ := by
  have hfront : name.toList.takeWhile (· = '/') = [] := by
    cases hchars : name.toList with
    | nil => rfl
    | cons c rest =>
      rw [hchars, List.mem_cons, not_or] at hslash
      exact List.takeWhile_cons_of_neg (by simpa using fun hc => hslash.1 hc.symm)
  rw [ofText, splitSlashes_eq_self hslash, rootOf, hfront]
  simp [hempty, hpoint]

lemma toText_of_name (name : String) : toText ⟨"", [name]⟩ = name := by
  rw [← String.toList_inj, toList_toText (List.cons_ne_nil _ _)]
  simp

/-- Characters other than slashes and points stand in the text of a path if they stand in it. -/
lemma mem_toText_iff {c : Char} (hslash : c ≠ '/') (hpoint : c ≠ '.') {p : Path} :
    c ∈ p.toText.toList ↔ c ∈ p.root.toList ∨ ∃ name ∈ p.names, c ∈ name.toList := by
  by_cases hnames : p.names = []
  · by_cases hroot : p.root = ""
    · simp [toText, hnames, hroot, hpoint]
    · simp [toText, hnames, hroot]
  · rw [toList_toText hnames, List.mem_append, mem_intercalate_slash hslash]
    refine or_congr_right ⟨?_, ?_⟩
    · rintro ⟨part, hpart, hc⟩
      obtain ⟨name, hname, rfl⟩ := List.mem_map.1 hpart
      exact ⟨name, hname, hc⟩
    · rintro ⟨name, hname, hc⟩
      exact ⟨_, List.mem_map_of_mem hname, hc⟩

lemma mem_of_mem_toText_ofText {c : Char} (hslash : c ≠ '/') (hpoint : c ≠ '.') {s : String}
    (h : c ∈ (ofText s).toText.toList) : c ∈ s.toList := by
  obtain hroot | ⟨name, hname, hc⟩ := (mem_toText_iff hslash hpoint).1 h
  · have hnormal := (isNormal_ofText s).root
    simp only [List.mem_cons, List.not_mem_nil, or_false] at hnormal
    obtain h | h | h := hnormal <;> simp [h, hslash] at hroot
  · simp only [ofText, List.mem_filter, List.mem_map] at hname
    obtain ⟨⟨part, hpart, rfl⟩, -⟩ := hname
    rw [String.toList_ofList] at hc
    exact mem_of_mem_splitSlashes hpart hc

/-- What stands in a path with another extension stands in the path or in the extension. -/
lemma mem_toText_withExtension {c : Char} (hslash : c ≠ '/') (hpoint : c ≠ '.') {p q : Path}
    {extension : String} (h : p.withExtension extension = .ok q) :
    (c ∈ extension.toList → c ∈ q.toText.toList) ∧
      (c ∈ q.toText.toList → c ∈ p.toText.toList ∨ c ∈ extension.toList) := by
  unfold withExtension at h
  split at h
  · cases h
  · cases h
    rw [mem_toText_iff hslash hpoint, mem_toText_iff hslash hpoint]
    constructor
    · intro hc
      exact .inr ⟨_, List.mem_append_right _ List.mem_cons_self, by simp [hc]⟩
    · rintro (hroot | ⟨name, hname, hc⟩)
      · exact .inl (.inl hroot)
      · obtain hname | hname := List.mem_append.1 hname
        · exact .inl (.inr ⟨name, List.dropLast_subset _ hname, hc⟩)
        · obtain rfl := List.mem_singleton.1 hname
          rw [String.toList_ofList, List.mem_append, List.mem_cons] at hc
          obtain hstem | hdot | hc := hc
          · have hlast := stem_subset _ hstem
            cases hlast' : p.names.getLast? with
            | none => simp [hlast'] at hlast
            | some last =>
              rw [hlast'] at hlast
              exact .inl (.inr ⟨last, List.mem_of_getLast? hlast', hlast⟩)
          · exact absurd hdot hpoint
          · exact .inr hc

lemma withExtension_eq_error_iff {p : Path} {extension : String} :
    (∃ e, p.withExtension extension = .error e) ↔ extension = "" ∨ '/' ∈ extension.toList := by
  unfold withExtension
  split
  · rename_i h
    exact iff_of_true ⟨_, rfl⟩ h
  · rename_i h
    exact iff_of_false nofun h

/-- A path is found again in its text. -/
lemma IsNormal.ofText_toText {p : Path} (hp : p.IsNormal) (h : p.names ≠ []) :
    ofText p.toText = p := by
  obtain ⟨root, names⟩ := p
  have hslash : ∀ name ∈ names.map String.toList, '/' ∉ name := by
    intro name hname
    obtain ⟨n, hn, rfl⟩ := List.mem_map.1 hname
    exact (hp.names n hn).2.2
  have hempty : [] ∉ names.map String.toList := by
    intro hmem
    obtain ⟨n, hn, hnil⟩ := List.mem_map.1 hmem
    exact (hp.names n hn).1 (by simpa using hnil)
  have hkeep : ∀ n ∈ names, ¬n = "" ∧ ¬n = "." := fun n hn =>
    ⟨(hp.names n hn).1, (hp.names n hn).2.1⟩
  have hsplit := splitSlashes_intercalate (by simpa using h) hslash
  have hroot := hp.root
  simp only [List.mem_cons, List.not_mem_nil, or_false] at hroot
  rw [ofText, toList_toText h]
  cases hchars : List.intercalate ['/'] (names.map String.toList) with
  | nil =>
    rw [hchars, splitSlashes] at hsplit
    exact absurd (by rw [← hsplit]; simp) hempty
  | cons c rest =>
    rw [hchars] at hsplit
    have hc : c ≠ '/' := by
      rintro rfl
      rw [splitSlashes] at hsplit
      exact hempty (by rw [← hsplit]; simp)
    obtain rfl | rfl | rfl := hroot
    · simpa [rootOf, hc, hsplit] using hkeep
    · simpa [rootOf, hc, hsplit, splitSlashes] using hkeep
    · simpa [rootOf, hc, hsplit, splitSlashes] using hkeep

end Path

end TagCall.Files
