import TagCall.Proofs.Command.Batch
import TagCall.Proofs.Files.Folders

/-!
# One file among the others

A file that fails at its turn leaves all files as they are, so a batch goes on as if it were not
listed (`failed_file_is_passed_over`). All that a batch changes are outputs of its files, and each
holds what the last of the files written there came to. Only a path that has a null character, or of
which there is no answer to what stands there, ends a batch where it should be passed over.
-/

namespace TagCall.Batch

open Files

variable {compile : Compiler} {extension name : String} {s s' : Store} {fate : Fate} {l : Location}

/-! ### A file that fails -/

/-- What is wrong with a file at its turn, when `s` is stored. -/
inductive Fails (compile : Compiler) (extension : String) (s : Store) (name : String) : Fate → Prop
  | folder (h : s.isFolder (.ofText name) = .ok true) : Fails compile extension s name .folder
  | unreadable {e : Files.Error} (hfolder : s.isFolder (.ofText name) ≠ .ok true)
      (h : s.read (.ofText name) = .error e) : Fails compile extension s name (.unreadable e)
  | invalid {bytes : ByteArray} {e : SourceError} (hread : s.read (.ofText name) = .ok bytes)
      (h : compile (Text.ofBytes bytes) = .error (.source e)) :
      Fails compile extension s name (.invalid e)
  | unwritable {bytes : ByteArray} {result : String} {output : Path} {e : Files.Error}
      (hread : s.read (.ofText name) = .ok bytes)
      (hcompile : compile (Text.ofBytes bytes) = .ok result)
      (houtput : (Path.ofText name).withExtension extension = .ok output)
      (h : s.write output result.toUTF8 = .error e) :
      Fails compile extension s name (.unwritable output e)

/-- Whether what is said of a file ends the batch: there is no answer to whether it is a folder, or
its path or its output's has a null character. -/
def Escapes (s : Store) (name : String) : Fate → Prop
  | .unreadable e => (∃ f, s.isFolder (.ofText name) = .error f) ∨ e = .nullCharacter
  | .unwritable _ e => e = .nullCharacter
  | _ => False

lemma Fails.isFailure (h : Fails compile extension s name fate) :
    fate.isFailure = decide (fate ≠ .folder) := by
  cases h <;> rfl

/-- A file that fails changes nothing, and the batch goes on unless the fault ends it. -/
lemma Fails.step (h : Fails compile extension s name fate) :
    (¬Escapes s name fate ∧ compileFile compile extension s name = .ok (fate, s)) ∨
      (Escapes s name fate ∧ ∃ e, compileFile compile extension s name = .error (.file e)) := by
  unfold compileFile
  cases h with
  | folder h =>
    simp only [h]
    exact .inl ⟨id, trivial⟩
  | @unreadable e hfolder h =>
    rcases hasked : s.isFolder (.ofText name) with f | _ | _
    · exact .inr ⟨.inl ⟨f, hasked⟩, f, by simp only [hasked]⟩
    · simp only [hasked, h]
      cases e with
      | fault f path => exact .inl ⟨by simp [Escapes, hasked], rfl⟩
      | nullCharacter => exact .inr ⟨.inr rfl, _, rfl⟩
    · exact absurd hasked hfolder
  | invalid hread h =>
    simp only [Store.isFolder_of_read hread, hread, h]
    exact .inl ⟨id, trivial⟩
  | @unwritable _ _ output e hread hcompile houtput h =>
    simp only [Store.isFolder_of_read hread, hread, hcompile, houtput, h]
    cases e with
    | fault f path => exact .inl ⟨by simp [Escapes], rfl⟩
    | nullCharacter => exact .inr ⟨rfl, _, rfl⟩

def Fate.WrittenAt (s : Store) (l : Location) (fate : Fate) : Prop :=
  ∃ output, fate = .written output ∧ s.Leads output l

lemma Fate.writtenAt_iff (h : Store.SameFolders s s') :
    fate.WrittenAt s' l ↔ fate.WrittenAt s l := by
  simp only [WrittenAt, h.leads_iff]

section

variable (h : compileFile compile extension s name = .ok (fate, s'))
include h

lemma sameFolders_compileFile : Store.SameFolders s s' := by
  obtain ⟨rfl, -⟩ | ⟨output, bytes, result, -, -, -, -, hwrite⟩ := compileFile_cases h
  · exact .refl s'
  · exact (Store.write_spec hwrite).1

lemma entry?_compileFile (hl : ¬fate.WrittenAt s l) : s'.entry? l = s.entry? l := by
  obtain ⟨rfl, -⟩ | ⟨output, bytes, result, rfl, -, -, -, hwrite⟩ := compileFile_cases h
  · rfl
  · obtain ⟨-, m, hm, hentry⟩ := Store.write_spec hwrite
    rw [hentry, if_neg]
    rintro rfl
    exact hl ⟨output, rfl, hm⟩

end

lemma compileFile_written {output : Path}
    (h : compileFile compile extension s name = .ok (.written output, s')) :
    ∃ bytes result, s.read (.ofText name) = .ok bytes ∧ compile (Text.ofBytes bytes) = .ok result ∧
      (Path.ofText name).withExtension extension = .ok output ∧
      ∀ l, s.Leads output l → s'.entry? l = some (.file result.toUTF8) := by
  obtain ⟨-, hne⟩ | ⟨_, bytes, result, houtput, hread, hcompile, hnamed, hwrite⟩ :=
    compileFile_cases h
  · exact absurd rfl (hne output)
  · cases houtput
    refine ⟨bytes, result, hread, hcompile, hnamed, fun l hl => ?_⟩
    obtain ⟨-, m, hm, hentry⟩ := Store.write_spec hwrite
    rw [hentry, if_pos (hl.unique hm)]

/-! ### Whole batches -/

lemma run_nil (compile : Compiler) (extension : String) (s : Store) :
    run compile extension s [] = ⟨[], s, none⟩ := rfl

/-- A batch that is not ended early goes on from where it is. -/
lemma run_append {before : List String} (after : List String)
    (h : (run compile extension s before).stop = none) :
    run compile extension s (before ++ after) =
      { run compile extension (run compile extension s before).store after with
        fates := (run compile extension s before).fates ++
          (run compile extension (run compile extension s before).store after).fates } := by
  induction before generalizing s with
  | nil => rfl
  | cons name rest ih =>
    cases hfirst : compileFile compile extension s name with
    | error e =>
      rw [run_cons_of_error rest hfirst] at h
      cases h
    | ok next =>
      obtain ⟨fate, s'⟩ := next
      rw [run_cons_of_ok rest hfirst] at h
      rw [List.cons_append, run_cons_of_ok _ hfirst, run_cons_of_ok rest hfirst, ih h]
      rfl

lemma sameFolders_run (names : List String) :
    Store.SameFolders s (run compile extension s names).store := by
  induction names generalizing s with
  | nil => exact .refl s
  | cons name rest ih =>
    cases hfirst : compileFile compile extension s name with
    | error e =>
      rw [run_cons_of_error rest hfirst]
      exact .refl s
    | ok next =>
      obtain ⟨fate, s'⟩ := next
      rw [run_cons_of_ok rest hfirst]
      exact (sameFolders_compileFile hfirst).trans ih

/-- A file that leaves all files as they are is passed over. -/
lemma run_append_cons {before : List String} (after : List String)
    (h : (run compile extension s before).stop = none)
    (hname : compileFile compile extension (run compile extension s before).store name =
      .ok (fate, (run compile extension s before).store)) :
    run compile extension s (before ++ name :: after) =
      { run compile extension s (before ++ after) with
        fates := (run compile extension s before).fates ++ (name, fate) ::
          (run compile extension (run compile extension s before).store after).fates } := by
  rw [run_append _ h, run_cons_of_ok after hname, run_append _ h]

lemma entry?_run {names : List String}
    (h : ∀ f ∈ (run compile extension s names).fates, ¬f.2.WrittenAt s l) :
    Store.entry? (run compile extension s names).store l = s.entry? l := by
  induction names generalizing s with
  | nil => rfl
  | cons name rest ih =>
    cases hfirst : compileFile compile extension s name with
    | error e => rw [run_cons_of_error rest hfirst]
    | ok next =>
      obtain ⟨fate, s'⟩ := next
      rw [run_cons_of_ok rest hfirst] at h ⊢
      obtain ⟨hnow, hlater⟩ := List.forall_mem_cons.1 h
      have hrest : ∀ f ∈ (run compile extension s' rest).fates, ¬f.2.WrittenAt s' l := by
        intro f hf
        rw [Fate.writtenAt_iff (sameFolders_compileFile hfirst)]
        exact hlater f hf
      exact (ih hrest).trans (entry?_compileFile hfirst hnow)

/-- The last file of a batch whose output was written at a location: the files before and after it,
what it held at its turn, and what that was compiled to. -/
structure IsLastWriter (compile : Compiler) (extension : String) (s : Store) (l : Location)
    (before : List String) (name : String) (after : List String) (output : Path)
    (bytes : ByteArray) (result : String) : Prop where
  leads : s.Leads output l
  named : (Path.ofText name).withExtension extension = .ok output
  read : (run compile extension s before).store.read (.ofText name) = .ok bytes
  compiled : compile (Text.ofBytes bytes) = .ok result
  last : ∃ later, (run compile extension s (before ++ name :: after)).fates =
    (run compile extension s before).fates ++ (name, .written output) :: later ∧
      ∀ f ∈ later, ¬f.2.WrittenAt s l

lemma IsLastWriter.cons {before after : List String} {first : String} {output : Path}
    {bytes : ByteArray} {result : String}
    (h : IsLastWriter compile extension s' l before name after output bytes result)
    (hfirst : compileFile compile extension s first = .ok (fate, s')) :
    IsLastWriter compile extension s l (first :: before) name after output bytes result := by
  have hsame := sameFolders_compileFile hfirst
  obtain ⟨later, hfates, hlast⟩ := h.last
  refine ⟨hsame.leads_iff.1 h.leads, h.named, ?_, h.compiled, later, ?_, ?_⟩
  · rw [run_cons_of_ok before hfirst]
    exact h.read
  · rw [List.cons_append, run_cons_of_ok _ hfirst, run_cons_of_ok before hfirst, hfates]
    rfl
  · intro f hf
    rw [← Fate.writtenAt_iff hsame]
    exact hlast f hf

/-- A location that an output was written at holds what the last file written there came to. -/
lemma exists_isLastWriter {names : List String}
    (h : ∃ f ∈ (run compile extension s names).fates, f.2.WrittenAt s l) :
    ∃ before name after output bytes result, names = before ++ name :: after ∧
      IsLastWriter compile extension s l before name after output bytes result ∧
      Store.entry? (run compile extension s names).store l = some (.file result.toUTF8) := by
  induction names generalizing s with
  | nil =>
    obtain ⟨f, hf, -⟩ := h
    cases hf
  | cons first rest ih =>
    cases hfirst : compileFile compile extension s first with
    | error e =>
      rw [run_cons_of_error rest hfirst] at h
      obtain ⟨f, hf, -⟩ := h
      cases hf
    | ok next =>
      obtain ⟨fate, s'⟩ := next
      have hsame := sameFolders_compileFile hfirst
      -- The last one is among the later files if any of them is written there, and else this one.
      by_cases hlater : ∃ f ∈ (run compile extension s' rest).fates, f.2.WrittenAt s' l
      · obtain ⟨before, name, after, output, bytes, result, rfl, hwriter, hentry⟩ := ih hlater
        refine ⟨first :: before, name, after, output, bytes, result, rfl, hwriter.cons hfirst, ?_⟩
        rw [run_cons_of_ok _ hfirst]
        exact hentry
      · have hnone : ∀ f ∈ (run compile extension s' rest).fates, ¬f.2.WrittenAt s' l :=
          fun f hf hwritten => hlater ⟨f, hf, hwritten⟩
        obtain ⟨f, hf, hwritten⟩ := h
        rw [run_cons_of_ok rest hfirst] at hf
        obtain rfl | hf := List.mem_cons.1 hf
        · obtain ⟨output, rfl, hl⟩ := hwritten
          obtain ⟨bytes, result, hread, hcompile, hnamed, hentry⟩ := compileFile_written hfirst
          refine ⟨[], first, rest, output, bytes, result, rfl,
            ⟨hl, hnamed, hread, hcompile, (run compile extension s' rest).fates, ?_, ?_⟩, ?_⟩
          · rw [List.nil_append, run_nil, List.nil_append, run_cons_of_ok rest hfirst]
          · intro f hf
            rw [← Fate.writtenAt_iff hsame]
            exact hnone f hf
          · rw [run_cons_of_ok rest hfirst]
            exact (entry?_run hnone).trans (hentry l hl)
        · rw [← Fate.writtenAt_iff hsame] at hwritten
          exact absurd hwritten (hnone f hf)

/-- A file that fails is passed over: the batch goes on as if it were not listed, and counts one
failure more, or none more for a folder. Only where there is no answer to whether it is a folder, or
a path has a null character, does the batch end there. Whatever a batch changes is at a location
that outputs were written at, and all paths to it read what the last file written there came to. -/
theorem failed_file_is_passed_over (compile : Compiler) (extension : String) (s : Store) :
    (∀ before name after fate, (run compile extension s before).stop = none →
      Fails compile extension (run compile extension s before).store name fate →
        let first := run compile extension s before
        let rest := run compile extension first.store after
        let without := run compile extension s (before ++ after)
        let withFile := run compile extension s (before ++ name :: after)
        (¬Escapes first.store name fate →
          without = ⟨first.fates ++ rest.fates, rest.store, rest.stop⟩ ∧
            withFile = ⟨first.fates ++ (name, fate) :: rest.fates, without.store, without.stop⟩ ∧
            withFile.failures = without.failures + if fate = .folder then 0 else 1) ∧
          (Escapes first.store name fate →
            ∃ e, withFile = ⟨first.fates, first.store, some (.file e)⟩)) ∧
      ∀ names l, Store.entry? (run compile extension s names).store l ≠ s.entry? l →
        ∃ before name after output bytes result, names = before ++ name :: after ∧
          IsLastWriter compile extension s l before name after output bytes result ∧
          ∀ p, s.Leads p l →
            (run compile extension s names).store.read p = .ok result.toUTF8 := by
  constructor
  · intro before name after fate hstop hfails
    have hwithout := run_append after hstop
    obtain ⟨hstay, hstep⟩ | ⟨hend, e, hstep⟩ := hfails.step
    · have hwith := run_append_cons after hstop hstep
      refine ⟨fun _ => ⟨hwithout, hwith, ?_⟩, fun hend => absurd hend hstay⟩
      rw [hwith, hwithout, Run.failures, Run.failures, List.countP_append, List.countP_append,
        List.countP_cons, hfails.isFailure, Nat.add_assoc]
      by_cases hfolder : fate = .folder <;> simp [hfolder]
    · refine ⟨fun hstay => absurd hend hstay, fun _ => ⟨e, ?_⟩⟩
      rw [run_append _ hstop, run_cons_of_error after hstep, List.append_nil]
  · intro names l hchanged
    have hwritten : ∃ f ∈ (run compile extension s names).fates, f.2.WrittenAt s l := by
      by_contra hnone
      exact hchanged (entry?_run fun f hf h => hnone ⟨f, hf, h⟩)
    obtain ⟨before, name, after, output, bytes, result, hnames, hwriter, hentry⟩ :=
      exists_isLastWriter hwritten
    refine ⟨before, name, after, output, bytes, result, hnames, hwriter, fun p hp => ?_⟩
    rw [Store.read_eq_ok_iff_leads]
    exact ⟨l, (sameFolders_run names).leads_iff.2 hp, hentry⟩

def htmlCompiler (o : Html.Options) : Compiler :=
  fun source => (Html.ofSource o source).mapError .source

/-- A file that is no source between two that are, and what an older run has written for it. -/
def brokenAmongOthers : Store :=
  ⟨[], [(["a.jtml"], .file "br()".toUTF8), (["b.jtml"], .file "p(".toUTF8),
    (["b.html"], .file "old".toUTF8), (["c.jtml"], .file "hr()".toUTF8)]⟩

theorem failed_file_is_passed_over_broken_source :
    (run (htmlCompiler {}) "html" brokenAmongOthers ["a.jtml"]).stop = none ∧
      Fails (htmlCompiler {}) "html"
        (run (htmlCompiler {}) "html" brokenAmongOthers ["a.jtml"]).store "b.jtml"
        (.invalid (.read (.notEnough [.closeParen]))) ∧
      (run (htmlCompiler {}) "html" brokenAmongOthers ["a.jtml", "b.jtml", "c.jtml"]).store =
        (run (htmlCompiler {}) "html" brokenAmongOthers ["a.jtml", "c.jtml"]).store ∧
      (run (htmlCompiler {}) "html" brokenAmongOthers ["a.jtml", "b.jtml", "c.jtml"]).failures =
        (run (htmlCompiler {}) "html" brokenAmongOthers ["a.jtml", "c.jtml"]).failures + 1 ∧
      Store.entry? (run (htmlCompiler {}) "html" brokenAmongOthers
          ["a.jtml", "b.jtml", "c.jtml"]).store ["c.html"] ≠
        brokenAmongOthers.entry? ["c.html"] ∧
      ∃ before name after output bytes result,
        ["a.jtml", "b.jtml", "c.jtml"] = before ++ name :: after ∧
          IsLastWriter (htmlCompiler {}) "html" brokenAmongOthers ["c.html"] before name after
            output bytes result ∧
          ∀ p, brokenAmongOthers.Leads p ["c.html"] →
            Store.read (run (htmlCompiler {}) "html" brokenAmongOthers
              ["a.jtml", "b.jtml", "c.jtml"]).store p = .ok result.toUTF8 := by
  obtain ⟨hfile, hchange⟩ := failed_file_is_passed_over (htmlCompiler {}) "html" brokenAmongOthers
  have hstop : (run (htmlCompiler {}) "html" brokenAmongOthers ["a.jtml"]).stop = none := by
    decide +kernel
  have hfails : Fails (htmlCompiler {}) "html"
      (run (htmlCompiler {}) "html" brokenAmongOthers ["a.jtml"]).store "b.jtml"
      (.invalid (.read (.notEnough [.closeParen]))) :=
    @Fails.invalid _ _ _ _ "p(".toUTF8 _ (by decide +kernel) (by decide +kernel)
  have hchanged : Store.entry? (run (htmlCompiler {}) "html" brokenAmongOthers
      ["a.jtml", "b.jtml", "c.jtml"]).store ["c.html"] ≠
        brokenAmongOthers.entry? ["c.html"] := by
    decide +kernel
  obtain ⟨-, hwith, hcount⟩ := (hfile ["a.jtml"] "b.jtml" ["c.jtml"] _ hstop hfails).1 id
  have hstore := congrArg Run.store hwith
  exact ⟨hstop, hfails, hstore, hcount, hchanged, hchange _ _ hchanged⟩

/-- A name of more bytes than a name may have. -/
def overlongName : String :=
  String.ofList (List.replicate 256 'n')

lemma not_mem_overlongName {c : Char} (h : c ≠ 'n') : c ∉ overlongName.toList := by
  have hchars : overlongName.toList = List.replicate 256 'n' := String.toList_ofList
  rw [hchars, List.mem_replicate]
  exact fun hc => h hc.2

lemma target_overlongName (s : Store) :
    s.target (.ofText overlongName) = .error (.fault .tooLong overlongName) :=
  Store.target_of_overlong (not_mem_overlongName (by decide)) (not_mem_overlongName (by decide))
    (by decide +kernel) (by decide +kernel) s

/-- A file that can not be read, for its name is too long, ends the batch: the file behind it is not
compiled, though it is without it. -/
theorem overlong_name_ends_batch :
    Fails (htmlCompiler {}) "html" brokenAmongOthers overlongName
        (.unreadable (.fault .tooLong overlongName)) ∧
      (run (htmlCompiler {}) "html" brokenAmongOthers [overlongName, "c.jtml"]).store ≠
        (run (htmlCompiler {}) "html" brokenAmongOthers ["c.jtml"]).store ∧
      (run (htmlCompiler {}) "html" brokenAmongOthers [overlongName, "c.jtml"]).failures = 0 := by
  have htarget := target_overlongName brokenAmongOthers
  have hwithout : brokenAmongOthers ≠
      (run (htmlCompiler {}) "html" brokenAmongOthers ["c.jtml"]).store := by
    decide +kernel
  -- From here on only what the name leads to matters.
  generalize overlongName = name at htarget ⊢
  have hfolder := Store.isFolder_of_tooLong htarget
  have hfails : Fails (htmlCompiler {}) "html" brokenAmongOthers name
      (.unreadable (.fault .tooLong name)) :=
    .unreadable (by simp [hfolder]) (Store.read_of_error htarget)
  obtain ⟨hstay, -⟩ | ⟨-, e, hstep⟩ := hfails.step
  · exact absurd (.inl ⟨_, hfolder⟩) hstay
  · rw [run_cons_of_error ["c.jtml"] hstep]
    exact ⟨hfails, hwithout, rfl⟩

end TagCall.Batch
