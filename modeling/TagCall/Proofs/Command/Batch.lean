import TagCall.Command.Batch
import TagCall.Proofs.Files.Path
import TagCall.Proofs.Files.Store
import TagCall.Proofs.Tree.Stored

/-!
# Files that a batch writes

Where a batch writes canonical sources, every file it has written is in canonical form when it ends,
whichever of its files was written there last, and the HTML of a file is that of the file written
for it.
-/

namespace TagCall

open Files

/-! ### One file -/

namespace SourceFile

variable {o : Layout.Options} {bytes : ByteArray} {t : String}

lemma layout_ofBytes (h : Layout.ofSource o (Text.ofBytes bytes) = .ok t) :
    layout o (.ok bytes) = .ok t := by
  have htext : layout o (.ok bytes) =
      (Layout.ofSource o (Text.ofBytes bytes)).mapError .ofCompile := rfl
  rw [htext, h]
  rfl

lemma text_toUTF8 (h : Layout.ofSource o (Text.ofBytes bytes) = .ok t) :
    text (.ok t.toUTF8) = .ok t := by
  rw [text, ofBytes_layout h (Text.no_return_ofBytes bytes)]

lemma isCanonical_toUTF8 (h : Layout.ofSource o (Text.ofBytes bytes) = .ok t) :
    isCanonical o (.ok t.toUTF8) = .ok true := by
  have hs := Text.no_return_ofBytes bytes
  have hagain : Layout.isCanonical o t = .ok true := by
    rw [Layout.isCanonical, layout_again h hs, Except.map, decide_eq_true rfl]
  have htext : isCanonical o (.ok t.toUTF8) =
      (Layout.isCanonical o (Text.ofBytes t.toUTF8)).mapError .ofCompile := rfl
  rw [htext, ofBytes_layout h hs, hagain]
  rfl

lemma html_toUTF8 (h : Layout.ofSource o (Text.ofBytes bytes) = .ok t) :
    ∃ html, SourceFile.html ⟨o.ignoreComments, o.voidTags⟩ (.ok bytes) = .ok html ∧
      SourceFile.html ⟨o.ignoreComments, o.voidTags⟩ (.ok t.toUTF8) = .ok html := by
  have hs := Text.no_return_ofBytes bytes
  obtain ⟨html, hfirst, hsecond⟩ := html_again h hs
  have htext : ∀ (ho : Html.Options) (bytes : ByteArray), SourceFile.html ho (.ok bytes) =
      (Html.ofSource ho (Text.ofBytes bytes)).mapError .source := fun _ _ => rfl
  refine ⟨html, ?_, ?_⟩
  · rw [htext, hfirst]
    rfl
  · rw [htext, ofBytes_layout h hs, hsecond]
    rfl

end SourceFile

namespace Batch

variable {compile : Compiler} {extension : String} {s s' : Store} {name : String}

/-- What can become of a file, with a case for each way out. -/
inductive Step (compile : Compiler) (extension : String) (s : Store) (name : String) :
    Except Stop (Fate × Store) → Prop
  | unasked {e : Files.Error} (h : s.isFolder (.ofText name) = .error e) :
      Step compile extension s name (.error (.file e))
  | folder (h : s.isFolder (.ofText name) = .ok true) :
      Step compile extension s name (.ok (.folder, s))
  | unreadable {f : Fault} {path : String} (hfolder : s.isFolder (.ofText name) = .ok false)
      (h : s.read (.ofText name) = .error (.fault f path)) :
      Step compile extension s name (.ok (.unreadable (.fault f path), s))
  | noPath (hfolder : s.isFolder (.ofText name) = .ok false)
      (h : s.read (.ofText name) = .error .nullCharacter) :
      Step compile extension s name (.error (.file .nullCharacter))
  | invalid {bytes : ByteArray} {e : SourceError} (hread : s.read (.ofText name) = .ok bytes)
      (h : compile (Text.ofBytes bytes) = .error (.source e)) :
      Step compile extension s name (.ok (.invalid e, s))
  | excess {bytes : ByteArray} {e : Indent.Excess} (hread : s.read (.ofText name) = .ok bytes)
      (h : compile (Text.ofBytes bytes) = .error (.indent e)) :
      Step compile extension s name (.error (.indent e))
  | suffix {bytes : ByteArray} {result : String} {e : Path.BadSuffix}
      (hread : s.read (.ofText name) = .ok bytes)
      (hcompile : compile (Text.ofBytes bytes) = .ok result)
      (h : (Path.ofText name).withExtension extension = .error e) :
      Step compile extension s name (.error (.suffix e))
  | unwritable {bytes : ByteArray} {result : String} {output : Path} {f : Fault} {path : String}
      (hread : s.read (.ofText name) = .ok bytes)
      (hcompile : compile (Text.ofBytes bytes) = .ok result)
      (houtput : (Path.ofText name).withExtension extension = .ok output)
      (h : s.write output result.toUTF8 = .error (.fault f path)) :
      Step compile extension s name (.ok (.unwritable output (.fault f path), s))
  | noOutput {bytes : ByteArray} {result : String} {output : Path}
      (hread : s.read (.ofText name) = .ok bytes)
      (hcompile : compile (Text.ofBytes bytes) = .ok result)
      (houtput : (Path.ofText name).withExtension extension = .ok output)
      (h : s.write output result.toUTF8 = .error .nullCharacter) :
      Step compile extension s name (.error (.file .nullCharacter))
  | written {bytes : ByteArray} {result : String} {output : Path} {s' : Store}
      (hread : s.read (.ofText name) = .ok bytes)
      (hcompile : compile (Text.ofBytes bytes) = .ok result)
      (houtput : (Path.ofText name).withExtension extension = .ok output)
      (h : s.write output result.toUTF8 = .ok s') :
      Step compile extension s name (.ok (.written output, s'))

lemma step_compileFile (compile : Compiler) (extension : String) (s : Store) (name : String) :
    Step compile extension s name (compileFile compile extension s name) := by
  delta compileFile
  simp only
  split
  · rename_i e h
    exact .unasked h
  · rename_i h
    exact .folder h
  · rename_i hfolder
    split
    · rename_i e h
      cases e with
      | fault f path => exact .unreadable hfolder h
      | nullCharacter => exact .noPath hfolder h
    · rename_i bytes hread
      split
      · rename_i e h
        exact .invalid hread h
      · rename_i e h
        exact .excess hread h
      · rename_i result hcompile
        split
        · rename_i e h
          exact .suffix hread hcompile h
        · rename_i output houtput
          split
          · rename_i e h
            cases e with
            | fault f path => exact .unwritable hread hcompile houtput h
            | nullCharacter => exact .noOutput hread hcompile houtput h
          · rename_i s' h
            exact .written hread hcompile houtput h

/-- Compiling a file leaves all files as they are, or writes what the file compiles to. -/
lemma compileFile_cases {fate : Fate} (h : compileFile compile extension s name = .ok (fate, s')) :
    (s' = s ∧ ∀ output, fate ≠ .written output) ∨
      ∃ output bytes result, fate = .written output ∧ s.read (.ofText name) = .ok bytes ∧
        compile (Text.ofBytes bytes) = .ok result ∧
        (Path.ofText name).withExtension extension = .ok output ∧
        s.write output result.toUTF8 = .ok s' := by
  have hstep := step_compileFile compile extension s name
  rw [h] at hstep
  cases hstep with
  | folder | unreadable | invalid | unwritable => exact .inl ⟨rfl, nofun⟩
  | written hread hcompile houtput hwrite =>
    exact .inr ⟨_, _, _, rfl, hread, hcompile, houtput, hwrite⟩

/-- Whether a path leads to a file in canonical form. -/
def HoldsCanonical (o : Layout.Options) (s : Store) (p : Path) : Prop :=
  SourceFile.isCanonical o (s.read p) = .ok true

section

variable {o : Layout.Options} {p q : Path} {c : ByteArray}

lemma HoldsCanonical.exists_read (h : HoldsCanonical o s p) : ∃ bytes, s.read p = .ok bytes := by
  unfold HoldsCanonical at h
  cases hread : s.read p with
  | ok bytes => exact ⟨bytes, rfl⟩
  | error e =>
    rw [hread] at h
    cases h

lemma holdsCanonical_of_write (hc : SourceFile.isCanonical o (.ok c) = .ok true)
    (h : s.write p c = .ok s') : HoldsCanonical o s' p := by
  rw [HoldsCanonical, Store.read_of_write h, hc]

lemma HoldsCanonical.write (hq : HoldsCanonical o s q)
    (hc : SourceFile.isCanonical o (.ok c) = .ok true) (h : s.write p c = .ok s') :
    HoldsCanonical o s' q := by
  obtain ⟨bytes, hread⟩ := hq.exists_read
  obtain hsame | hnew := Store.read_write h hread
  · rwa [HoldsCanonical, hsame, ← hread]
  · rwa [HoldsCanonical, hnew]

lemma HoldsCanonical.judge {name : String} (h : HoldsCanonical o s (.ofText name)) :
    judge o s name = .ok .canonical := by
  obtain ⟨bytes, hread⟩ := h.exists_read
  unfold HoldsCanonical at h
  delta Batch.judge
  simp only [Store.isFolder_of_read hread, h]

lemma review_cons (o : Layout.Options) (s : Store) (first : String) (rest : List String) :
    review o s (first :: rest) =
      match judge o s first with
      | .error e => ⟨[], some e⟩
      | .ok verdict =>
        ⟨(first, verdict) :: (review o s rest).verdicts, (review o s rest).stop⟩ := by
  rfl

lemma review_of_holdsCanonical {names : List String}
    (h : ∀ name ∈ names, HoldsCanonical o s (.ofText name)) :
    review o s names = ⟨names.map (·, .canonical), none⟩ := by
  induction names with
  | nil => rfl
  | cons name rest ih =>
    rw [List.forall_mem_cons] at h
    rw [review_cons, h.1.judge, ih h.2]
    rfl

/-! ### Batches -/

lemma run_cons (compile : Compiler) (extension : String) (s : Store) (name : String)
    (rest : List String) :
    run compile extension s (name :: rest) =
      match compileFile compile extension s name with
      | .error e => ⟨[], s, some e⟩
      | .ok (fate, s') =>
        { run compile extension s' rest with
          fates := (name, fate) :: (run compile extension s' rest).fates } := by
  rfl

lemma run_cons_of_error {e : Stop} (rest : List String)
    (h : compileFile compile extension s name = .error e) :
    run compile extension s (name :: rest) = ⟨[], s, some e⟩ := by
  rw [run_cons, h]

lemma run_cons_of_ok {fate : Fate} (rest : List String)
    (h : compileFile compile extension s name = .ok (fate, s')) :
    run compile extension s (name :: rest) =
      { run compile extension s' rest with
        fates := (name, fate) :: (run compile extension s' rest).fates } := by
  rw [run_cons, h]

lemma HoldsCanonical.compileFile {fate : Fate} (hp : HoldsCanonical o s p)
    (h : compileFile (Layout.ofSource o) extension s name = .ok (fate, s')) :
    HoldsCanonical o s' p := by
  obtain ⟨rfl, -⟩ | ⟨output, bytes, t, -, -, ht, -, hwrite⟩ := compileFile_cases h
  · exact hp
  · exact hp.write (SourceFile.isCanonical_toUTF8 ht) hwrite

lemma HoldsCanonical.run {names : List String} (hp : HoldsCanonical o s p) :
    HoldsCanonical o (run (Layout.ofSource o) extension s names).store p := by
  induction names generalizing s with
  | nil => exact hp
  | cons name rest ih =>
    cases h : Batch.compileFile (Layout.ofSource o) extension s name with
    | error e =>
      rw [run_cons_of_error rest h]
      exact hp
    | ok after =>
      rw [run_cons_of_ok rest h]
      exact ih (hp.compileFile h)

/-- A file that was written is in canonical form, and its path is found in its text. -/
lemma written_spec {output : Path}
    (h : compileFile (Layout.ofSource o) extension s name = .ok (.written output, s')) :
    HoldsCanonical o s' output ∧ Path.ofText output.toText = output := by
  obtain ⟨-, hne⟩ | ⟨_, bytes, t, houtput, hread, ht, hextension, hwrite⟩ := compileFile_cases h
  · exact absurd rfl (hne output)
  · cases houtput
    have hnormal := (Path.isNormal_ofText name).withExtension hextension
    exact ⟨holdsCanonical_of_write (SourceFile.isCanonical_toUTF8 ht) hwrite,
      hnormal.1.ofText_toText hnormal.2⟩

lemma run_written {names : List String} {output : Path}
    (h : (name, .written output) ∈ (run (Layout.ofSource o) extension s names).fates) :
    HoldsCanonical o (run (Layout.ofSource o) extension s names).store output ∧
      Path.ofText output.toText = output := by
  induction names generalizing s with
  | nil => cases h
  | cons first rest ih =>
    cases hfirst : compileFile (Layout.ofSource o) extension s first with
    | error e =>
      rw [run_cons_of_error rest hfirst] at h
      cases h
    | ok after =>
      obtain ⟨fate, s'⟩ := after
      rw [run_cons_of_ok rest hfirst] at h ⊢
      obtain h | h := List.mem_cons.1 h
      · cases h
        obtain ⟨hcanonical, hpath⟩ := written_spec hfirst
        exact ⟨hcanonical.run, hpath⟩
      · exact ih h

end

/-- A file that a canonical source was written to holds that source, is in canonical form and has
the HTML of the file the source was made from. After a whole batch, a review of any files it has
written finds all of them in canonical form. -/
theorem written_files_are_canonical (o : Layout.Options) (extension : String) :
    (∀ s s' name output,
      compileFile (Layout.ofSource o) extension s name = .ok (.written output, s') →
        ∃ t html, SourceFile.layout o (s.read (.ofText name)) = .ok t ∧
          SourceFile.text (s'.read output) = .ok t ∧
          SourceFile.isCanonical o (s'.read output) = .ok true ∧
          SourceFile.html ⟨o.ignoreComments, o.voidTags⟩ (s.read (.ofText name)) = .ok html ∧
          SourceFile.html ⟨o.ignoreComments, o.voidTags⟩ (s'.read output) = .ok html) ∧
    ∀ s names (outputs : List Path),
      (∀ p ∈ outputs, ∃ name,
        (name, .written p) ∈ (run (Layout.ofSource o) extension s names).fates) →
      review o (run (Layout.ofSource o) extension s names).store (outputs.map Path.toText) =
        ⟨outputs.map fun p => (p.toText, .canonical), none⟩ := by
  constructor
  · intro s s' name output h
    obtain ⟨-, hne⟩ | ⟨_, bytes, t, houtput, hread, ht, -, hwrite⟩ := compileFile_cases h
    · exact absurd rfl (hne output)
    · cases houtput
      obtain ⟨html, hfirst, hsecond⟩ := SourceFile.html_toUTF8 ht
      rw [hread, Store.read_of_write hwrite]
      exact ⟨t, html, SourceFile.layout_ofBytes ht, SourceFile.text_toUTF8 ht,
        SourceFile.isCanonical_toUTF8 ht, hfirst, hsecond⟩
  · intro s names outputs h
    have hall : ∀ name ∈ outputs.map Path.toText,
        HoldsCanonical o (run (Layout.ofSource o) extension s names).store (.ofText name) := by
      intro name hname
      obtain ⟨p, hp, rfl⟩ := List.mem_map.1 hname
      obtain ⟨first, hwritten⟩ := h p hp
      obtain ⟨hcanonical, hpath⟩ := run_written hwritten
      rwa [hpath]
    rw [review_of_holdsCanonical hall, List.map_map]
    rfl

/-- A file with a byte order mark and line ends of two kinds. -/
def markedFile : Store :=
  ⟨[], [(["a.jtml"],
    .file ⟨#[0xEF, 0xBB, 0xBF, 0x2F, 0x2F, 0x20, 0x61, 0x0D, 0x0D, 0x0A, 0x62, 0x72, 0x28, 0x29]⟩)]⟩

theorem written_files_are_canonical_marked_file :
    compileFile (Layout.ofSource {}) "out" markedFile "a.jtml" =
        .ok (.written ⟨"", ["a.out"]⟩,
          markedFile.put ["a.out"] (.file "// a\nbr()".toUTF8)) ∧
      SourceFile.layout {} (markedFile.read (.ofText "a.jtml")) = .ok "// a\nbr()" ∧
      SourceFile.isCanonical {} (.ok "// a\nbr()".toUTF8) = .ok true ∧
      SourceFile.html {} (.ok "// a\nbr()".toUTF8) = .ok "<!--a--><br/>" ∧
      review {} (run (Layout.ofSource {}) "out" markedFile ["a.jtml"]).store ["a.out"] =
        ⟨[("a.out", .canonical)], none⟩ := by
  obtain ⟨hfile, hbatch⟩ := written_files_are_canonical {} "out"
  have h : compileFile (Layout.ofSource {}) "out" markedFile "a.jtml" =
      .ok (.written ⟨"", ["a.out"]⟩, markedFile.put ["a.out"] (.file "// a\nbr()".toUTF8)) := by
    decide +kernel
  have hlayout : SourceFile.layout {} (markedFile.read (.ofText "a.jtml")) =
      .ok "// a\nbr()" := by
    decide +kernel
  have hhtml : SourceFile.html {} (markedFile.read (.ofText "a.jtml")) =
      .ok "<!--a--><br/>" := by
    decide +kernel
  have hmember : ∃ name, (name, .written ⟨"", ["a.out"]⟩) ∈
      (run (Layout.ofSource {}) "out" markedFile ["a.jtml"]).fates :=
    ⟨"a.jtml", by decide +kernel⟩
  obtain ⟨t, html, -, -, hcanonical, hfirst, hsecond⟩ := hfile _ _ _ _ h
  cases hfirst.symm.trans hhtml
  exact ⟨h, hlayout, hcanonical, hsecond,
    hbatch markedFile ["a.jtml"] [⟨"", ["a.out"]⟩] (List.forall_mem_singleton.2 hmember)⟩

end Batch

end TagCall
