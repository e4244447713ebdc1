import TagCall.Proofs.Command.Outputs
import TagCall.Proofs.Config.Tags

/-!
# Tasks that end with no status

A configuration is judged only in part when it is loaded, so a task may meet a setting that it can
not be run with. Which those are is told exactly (`perform_error_iff`); any other task ends with
status 0 or 1, once all its files are done.
-/

namespace TagCall.Batch

open Files

variable {compile : Compiler} {extension name : String} {s s' : Store} {fate : Fate}

def IsUnusable (extension : String) : Prop :=
  extension = "" ∨ '/' ∈ extension.toList ∨ '\x00' ∈ extension.toList

/-- Whether a file ends a batch: there is no answer to whether it is a folder, or its result has no
path to go to. -/
def Stops (compile : Compiler) (extension : String) (s : Store) (name : String) : Prop :=
  (∃ e, s.isFolder (.ofText name) = .error e) ∨
    (IsUnusable extension ∧ ∃ bytes result, s.read (.ofText name) = .ok bytes ∧
      compile (Text.ofBytes bytes) = .ok result)

section

variable (hcompile : ∀ source e, compile source ≠ .error (.indent e))
  (hname : '\x00' ∉ name.toList)
include hname

lemma read_ne_nullCharacter : s.read (.ofText name) ≠ .error .nullCharacter := by
  rw [ne_eq, Store.read_eq_nullCharacter_iff]
  exact fun h => hname (Path.mem_of_mem_toText_ofText (by decide) (by decide) h)

lemma null_mem_output_iff {output : Path}
    (h : (Path.ofText name).withExtension extension = .ok output) :
    '\x00' ∈ output.toText.toList ↔ '\x00' ∈ extension.toList := by
  obtain ⟨hmp, hmpr⟩ := Path.mem_toText_withExtension (c := '\x00') (by decide) (by decide) h
  refine ⟨fun hnull => ?_, hmp⟩
  obtain hpath | hextension := hmpr hnull
  · exact absurd (Path.mem_of_mem_toText_ofText (by decide) (by decide) hpath) hname
  · exact hextension

include hcompile

lemma stops_of_compileFile {e : Stop} (hend : compileFile compile extension s name = .error e) :
    Stops compile extension s name := by
  have hstep := step_compileFile compile extension s name
  rw [hend] at hstep
  clear hend
  cases hstep with
  | unasked h => exact .inl ⟨_, h⟩
  | noPath hfolder h => exact absurd h (read_ne_nullCharacter hname)
  | excess hread h => exact absurd h (hcompile _ _)
  | suffix hread hresult h =>
    obtain hempty | hslash := Path.withExtension_eq_error_iff.1 ⟨_, h⟩
    · exact .inr ⟨.inl hempty, _, _, hread, hresult⟩
    · exact .inr ⟨.inr (.inl hslash), _, _, hread, hresult⟩
  | noOutput hread hresult houtput h =>
    have hnull := (null_mem_output_iff hname houtput).1 (Store.write_eq_nullCharacter_iff.1 h)
    exact .inr ⟨.inr (.inr hnull), _, _, hread, hresult⟩

omit hcompile

lemma compileFile_of_stops (h : Stops compile extension s name) :
    ∃ e, compileFile compile extension s name = .error e := by
  unfold compileFile
  obtain ⟨e, h⟩ | ⟨hextension, bytes, result, hread, hresult⟩ := h
  · simp only [h]
    exact ⟨_, rfl⟩
  · simp only [Store.isFolder_of_read hread, hread, hresult]
    cases houtput : (Path.ofText name).withExtension extension with
    | error e => exact ⟨_, rfl⟩
    | ok output =>
      have hnamed := Config.not_of_eq_ok Path.withExtension_eq_error_iff houtput
      rw [not_or] at hnamed
      have hnull : '\x00' ∈ extension.toList :=
        (hextension.resolve_left hnamed.1).resolve_left hnamed.2
      have hwrite : s.write output result.toUTF8 = .error .nullCharacter :=
        Store.write_eq_nullCharacter_iff.2 ((null_mem_output_iff hname houtput).2 hnull)
      simp only [hwrite]
      exact ⟨_, rfl⟩

/-- A file that does not end a batch does not change which files do. -/
lemma stops_iff {other : String} (h : compileFile compile extension s name = .ok (fate, s')) :
    Stops compile extension s' other ↔ Stops compile extension s other := by
  -- With an extension that can not be used nothing is written, and else only folders matter.
  by_cases hextension : IsUnusable extension
  · obtain ⟨rfl, -⟩ | ⟨_, bytes, result, -, hread, hresult, -⟩ := compileFile_cases h
    · rfl
    · have hend : Stops compile extension s name := .inr ⟨hextension, bytes, result, hread, hresult⟩
      obtain ⟨e, he⟩ := compileFile_of_stops hname hend
      cases h.symm.trans he
  · simp only [Stops, (sameFolders_compileFile h).isFolder, hextension, false_and]

end

lemma run_stop_iff (hcompile : ∀ source e, compile source ≠ .error (.indent e))
    {names : List String} (hnames : ∀ name ∈ names, '\x00' ∉ name.toList) :
    (run compile extension s names).stop ≠ none ↔
      ∃ name ∈ names, Stops compile extension s name := by
  induction names generalizing s with
  | nil =>
    rw [run_nil]
    exact iff_of_false (fun h => h rfl) nofun
  | cons first rest ih =>
    obtain ⟨hfirst, hrest⟩ := List.forall_mem_cons.1 hnames
    cases hnext : compileFile compile extension s first with
    | error e =>
      rw [run_cons_of_error rest hnext]
      exact iff_of_true nofun
        ⟨first, List.mem_cons_self, stops_of_compileFile hcompile hfirst hnext⟩
    | ok next =>
      have hstay : ¬Stops compile extension s first := by
        intro hend
        obtain ⟨e, he⟩ := compileFile_of_stops hfirst hend
        cases hnext.symm.trans he
      rw [run_cons_of_ok rest hnext]
      rw [List.exists_mem_cons_iff, or_iff_right hstay, ih hrest]
      simp only [stops_iff hfirst hnext]

/-! ### Reviews -/

lemma ofSource_ne_indent {o : Layout.Options} (hindent : o.indent.excess? = none) {source : String}
    {e : Indent.Excess} : Layout.ofSource o source ≠ .error (.indent e) := by
  intro h
  cases hread : Document.ofSource o.voidTags source with
  | error f =>
    rw [Layout.ofSource, hread] at h
    cases h
  | ok d =>
    obtain hok | ⟨f, hf, -⟩ := ofSource_eq_layout_or_excess o hread
    · cases hok.symm.trans h
    · cases hindent.symm.trans hf

lemma isCanonical_of_read_ok {o : Layout.Options} (bytes : ByteArray)
    (hindent : o.indent.excess? = none) :
    (∃ b, SourceFile.isCanonical o (.ok bytes) = .ok b) ∨
      ∃ e, SourceFile.isCanonical o (.ok bytes) = .error (.source e) := by
  have hcanonical : SourceFile.isCanonical o (.ok bytes) =
      (Layout.isCanonical o (Text.ofBytes bytes)).mapError .ofCompile := rfl
  rw [hcanonical, Layout.isCanonical]
  cases h : Layout.ofSource o (Text.ofBytes bytes) with
  | ok result => exact .inl ⟨_, rfl⟩
  | error e =>
    cases e with
    | source e => exact .inr ⟨e, rfl⟩
    | indent e => exact absurd h (ofSource_ne_indent hindent)

lemma judge_error_iff {o : Layout.Options} (hindent : o.indent.excess? = none)
    (hname : '\x00' ∉ name.toList) :
    (∃ e, judge o s name = .error e) ↔ ∃ e, s.isFolder (.ofText name) = .error e := by
  have hnull := read_ne_nullCharacter (s := s) hname
  unfold judge
  rcases hfolder : s.isFolder (.ofText name) with e | _ | _
  · simp only [hfolder]
    exact iff_of_true ⟨_, rfl⟩ ⟨_, rfl⟩
  · simp only [hfolder]
    refine iff_of_false ?_ nofun
    rintro ⟨e, he⟩
    cases hread : s.read (.ofText name) with
    | error f =>
      have hcanonical : SourceFile.isCanonical o (.error f) = .error (.file f) := rfl
      rw [hread, hcanonical] at he
      cases f with
      | fault f path => cases he
      | nullCharacter => exact hnull hread
    | ok bytes =>
      rw [hread] at he
      obtain ⟨b, hb⟩ | ⟨f, hf⟩ := isCanonical_of_read_ok bytes hindent
      · rw [hb] at he
        cases b <;> cases he
      · rw [hf] at he
        cases he
  · simp only [hfolder]
    exact iff_of_false nofun nofun

lemma review_stop_iff {o : Layout.Options} (hindent : o.indent.excess? = none)
    {names : List String} (hnames : ∀ name ∈ names, '\x00' ∉ name.toList) :
    (review o s names).stop ≠ none ↔ ∃ name ∈ names, ∃ e, s.isFolder (.ofText name) = .error e := by
  induction names with
  | nil => exact iff_of_false (fun h => h rfl) nofun
  | cons first rest ih =>
    obtain ⟨hfirst, hrest⟩ := List.forall_mem_cons.1 hnames
    rw [List.exists_mem_cons_iff, ← judge_error_iff hindent hfirst, ← ih hrest, review_cons]
    cases judge o s first with
    | error e => exact iff_of_true nofun (.inl ⟨e, rfl⟩)
    | ok verdict => exact (or_iff_right nofun).symm

lemma map_fst_verdicts {o : Layout.Options} {names : List String}
    (h : (review o s names).stop = none) : (review o s names).verdicts.map (·.1) = names := by
  induction names with
  | nil => rfl
  | cons first rest ih =>
    rw [review_cons] at h ⊢
    cases hjudge : judge o s first with
    | error e =>
      rw [hjudge] at h
      cases h
    | ok verdict =>
      rw [hjudge] at h
      exact congrArg (first :: ·) (ih h)

end TagCall.Batch

namespace TagCall.Command

open Batch Files

namespace Task

def names : Task → List String
  | .html files _ | .layout files _ _ _ => files
  | .tree file _ _ => [file]
  | .config _ => []

def Writes : Task → Prop
  | .config (some path) => path ≠ ""
  | _ => False

def overriding (c : Config) : Task → Config
  | .html _ ignoreComments => Context.override c ignoreComments none
  | .layout _ ignoreComments indent _ => Context.override c ignoreComments indent
  | _ => c

end Task

namespace Context

variable {x : Context} {task : Task} {c : Config} {log : List Log.Line} {compile : Compiler}
  {extension : String} {files : List String}

/-- The configuration that a task is run with, and what was logged of it. -/
def RunsWith (x : Context) (task : Task) (c : Config) (log : List Log.Line) : Prop :=
  ∃ loaded, Config.load x.read x.store x.environment x.configPath = (.ok loaded, log) ∧
    c = task.overriding loaded

/-- Whether the extension of a batch can not be written, or a file ends the batch. -/
def BreaksBatch (compile : Compiler) (v : Setting) (s : Store) (files : List String) : Prop :=
  v.isWritable = false ∨ ∃ extension, Config.extensionOf v = .ok extension ∧
    ∃ name ∈ files, Stops compile extension s name

/-- Whether a task can not be run to its end with a configuration. -/
def Breaks (s : Store) (c : Config) : Task → Prop
  | .html files _ =>
    c.HasNestedTag ∨
      ∃ o, c.htmlOptions = .ok o ∧ BreaksBatch (htmlCompiler o) c.htmlExtension s files
  | .layout files _ _ false =>
    (∃ unit, c.unit = .ok unit) ∧
      (c.HasNestedTag ∨
        ∃ o, c.layoutOptions = .ok o ∧ BreaksBatch (Layout.ofSource o) c.layoutExtension s files)
  | .layout files _ _ true =>
    (∃ unit, c.unit = .ok unit) ∧
      (c.HasNestedTag ∨ ∃ name ∈ files, ∃ e, s.isFolder (.ofText name) = .error e)
  | .tree file _ _ => c.HasNestedTag ∧ ∃ bytes, s.readGiven file = .ok bytes
  | .config _ =>
    (∃ unit, c.unit = .ok unit) ∧
      (c.HasNestedTag ∨ c.HasUnorderedTags ∨
        (c.htmlExtension.isWritable = true ∧ c.layoutExtension.isWritable = true ∧
          c.HasUnwritableTag))

/-- Whether an outcome is that of a batch with all its files. -/
def IsBatch (x : Context) (log : List Log.Line) (compile : Compiler) (v : Setting)
    (files : List String) (out : Outcome) : Prop :=
  ∃ extension, Config.extensionOf v = .ok extension ∧
    let r := Batch.run compile extension x.store files
    r.fates.map (·.1) = files ∧ out = ⟨.ok (statusOf r.failures), [], log ++ r.log, r.store⟩

def IsReview (x : Context) (log : List Log.Line) (o : Layout.Options) (files : List String)
    (out : Outcome) : Prop :=
  let r := review o x.store files
  r.verdicts.map (·.1) = files ∧
    out = ⟨.ok (statusOf r.failures), r.output, log ++ r.log, x.store⟩

/-- Whether a task is done with all its files, or has ended at once for its unit of indentation. -/
def Finishes (x : Context) (c : Config) (log : List Log.Line) (task : Task) (out : Outcome) :
    Prop :=
  match task with
  | .html files _ =>
    ∃ o, c.htmlOptions = .ok o ∧ x.IsBatch log (htmlCompiler o) c.htmlExtension files out
  | .layout files _ _ false =>
    (∃ e, c.unit = .error e ∧ out = x.failed log e.message) ∨
      ∃ o, c.layoutOptions = .ok o ∧ x.IsBatch log (Layout.ofSource o) c.layoutExtension files out
  | .layout files _ _ true =>
    (∃ e, c.unit = .error e ∧ out = x.failed log e.message) ∨
      ∃ o, c.layoutOptions = .ok o ∧ x.IsReview log o files out
  | .tree _ _ _ => out.store = x.store
  | .config _ => out.store = x.store ∧ ∀ e, c.unit = .error e → out = x.failed log e.message

lemma statusOf_le (failures : Nat) : statusOf failures ≤ 1 := by
  unfold statusOf
  split <;> decide

lemma batch_isDecided (x : Context) (log : List Log.Line) (v : Setting)
    (hcompile : ∀ source e, compile source ≠ .error (.indent e))
    (hnames : ∀ name ∈ files, '\x00' ∉ name.toList) :
    (BreaksBatch compile v x.store files ∧
        ∃ e, (x.batch log compile (Config.extensionOf v) files).status = .error e) ∨
      (¬BreaksBatch compile v x.store files ∧
        x.IsBatch log compile v files (x.batch log compile (Config.extensionOf v) files)) := by
  cases hextension : Config.extensionOf v with
  | error e => exact .inl ⟨.inl (Config.extensionOf_error_iff.1 ⟨e, hextension⟩), _, rfl⟩
  | ok extension =>
    have hshort := Config.isWritable_of_extensionOf hextension
    have hbreaks : BreaksBatch compile v x.store files ↔
        (Batch.run compile extension x.store files).stop ≠ none := by
      rw [run_stop_iff hcompile hnames]
      simp [BreaksBatch, hshort, hextension]
    rw [hbreaks]
    cases hstop : (Batch.run compile extension x.store files).stop with
    | some e =>
      refine .inl ⟨nofun, .batch e, ?_⟩
      simp only [batch, hstop]
    | none =>
      refine .inr ⟨fun h => h rfl, extension, hextension, map_fst_fates hstop, ?_⟩
      simp only [batch, hstop]

lemma review_isDecided (x : Context) (log : List Log.Line) {o : Layout.Options}
    (hindent : o.indent.excess? = none) (hnames : ∀ name ∈ files, '\x00' ∉ name.toList) :
    ((∃ name ∈ files, ∃ e, x.store.isFolder (.ofText name) = .error e) ∧
        ∃ e, (x.check log o files).status = .error e) ∨
      (¬(∃ name ∈ files, ∃ e, x.store.isFolder (.ofText name) = .error e) ∧
        x.IsReview log o files (x.check log o files)) := by
  rw [← review_stop_iff hindent hnames]
  cases hstop : (review o x.store files).stop with
  | some e =>
    refine .inl ⟨nofun, .batch e, ?_⟩
    simp only [check, hstop]
  | none =>
    refine .inr ⟨fun h => h rfl, map_fst_verdicts hstop, ?_⟩
    simp only [check, hstop]

lemma IsBatch.status {v : Setting} {out : Outcome} (h : x.IsBatch log compile v files out) :
    ∃ n ≤ 1, out.status = .ok n := by
  obtain ⟨extension, -, -, rfl⟩ := h
  exact ⟨_, statusOf_le _, rfl⟩

lemma IsReview.status {o : Layout.Options} {out : Outcome} (h : x.IsReview log o files out) :
    ∃ n ≤ 1, out.status = .ok n := by
  obtain ⟨-, rfl⟩ := h
  exact ⟨_, statusOf_le _, rfl⟩

lemma perform_config {writeTo : Option String} (hwrite : ¬Task.Writes (.config writeTo)) :
    x.perform (.config writeTo) = x.showConfig := by
  cases writeTo with
  | none => rfl
  | some path =>
    obtain rfl : path = "" := not_not.1 hwrite
    rfl

/-- A task that writes no settings file is run on the configuration. -/
lemma exists_configured (x : Context) (hwrite : ¬task.Writes) :
    ∃ run, x.perform task = x.configured run := by
  cases task with
  | html | layout | tree => exact ⟨_, rfl⟩
  | config => exact ⟨_, perform_config hwrite⟩

lemma override_hasTagList {ignoreComments : Bool} {indent : Option Setting} (h : c.HasTagList) :
    (override c ignoreComments indent).HasTagList := by
  cases ignoreComments <;> cases indent <;> exact h

/-- Whether a task breaks and its outcome has no status, or it finishes and has one. -/
def IsDecided (x : Context) (c : Config) (log : List Log.Line) (task : Task) (out : Outcome) :
    Prop :=
  (Breaks x.store c task ∧ ∃ e, out.status = .error e) ∨
    (¬Breaks x.store c task ∧ (∃ n ≤ 1, out.status = .ok n) ∧ x.Finishes c log task out)

section

variable {loaded : Config}
  (hload : Config.load x.read x.store x.environment x.configPath = (.ok loaded, log))
include hload

lemma html_isDecided {ignoreComments : Bool}
    (hlist : (override loaded ignoreComments none).HasTagList)
    (hnames : ∀ name ∈ files, '\x00' ∉ name.toList) :
    x.IsDecided (override loaded ignoreComments none) log (.html files ignoreComments)
      (x.html files ignoreComments) := by
  rw [html, configured, hload]
  simp only
  generalize override loaded ignoreComments none = c at hlist ⊢
  have htags := Config.htmlOptions_error_iff hlist
  cases ho : c.htmlOptions with
  | error e => exact .inl ⟨.inl (htags.1 ⟨e, ho⟩), _, rfl⟩
  | ok o =>
    have hflat : ¬c.HasNestedTag := Config.not_of_eq_ok htags ho
    have hcompile : ∀ source e, htmlCompiler o source ≠ .error (.indent e) := by
      intro source e heq
      rw [htmlCompiler] at heq
      cases hpage : Html.ofSource o source with
      | error e =>
        rw [hpage] at heq
        cases heq
      | ok page =>
        rw [hpage] at heq
        cases heq
    obtain ⟨hbreaks, hstatus⟩ | ⟨hwhole, hbatch⟩ :=
      batch_isDecided x log c.htmlExtension hcompile hnames
    · exact .inl ⟨.inr ⟨o, ho, hbreaks⟩, hstatus⟩
    · refine .inr ⟨?_, hbatch.status, o, ho, hbatch⟩
      rintro (hnested | ⟨_, ho', hbreaks⟩)
      · exact hflat hnested
      · cases ho.symm.trans ho'
        exact hwhole hbreaks

lemma layout_isDecided {ignoreComments check : Bool} {indent : Option Setting}
    (hlist : (override loaded ignoreComments indent).HasTagList)
    (hnames : ∀ name ∈ files, '\x00' ∉ name.toList)
    (hunit : ∀ unit,
      (override loaded ignoreComments indent).unit = .ok unit → unit.excess? = none) :
    x.IsDecided (override loaded ignoreComments indent) log
      (.layout files ignoreComments indent check) (x.layout files ignoreComments indent check) := by
  rw [layout, configured, hload]
  simp only
  generalize override loaded ignoreComments indent = c at hlist hunit ⊢
  cases hc : c.unit with
  | error e =>
    have ho : c.layoutOptions = .error (.indent e) := by
      rw [Config.layoutOptions, hc]
      rfl
    have hwhole : ¬Breaks x.store c (.layout files ignoreComments indent check) := by
      cases check <;> simp [Breaks, hc]
    rw [ho]
    refine .inr ⟨hwhole, ⟨1, Nat.le_refl 1, rfl⟩, ?_⟩
    cases check <;> exact .inl ⟨e, hc, rfl⟩
  | ok unit =>
    have htags := Config.tagNames_error_iff hlist
    cases hset : c.tagNames with
    | error e =>
      have ho : c.layoutOptions = .error (.tags e) := by
        rw [Config.layoutOptions, hc, hset]
        rfl
      rw [ho]
      refine .inl ⟨?_, .tags e, rfl⟩
      cases check <;> exact ⟨⟨unit, hc⟩, .inl (htags.1 ⟨e, hset⟩)⟩
    | ok tags =>
      have hflat : ¬c.HasNestedTag := Config.not_of_eq_ok htags hset
      obtain ⟨o, ho, hindent⟩ : ∃ o, c.layoutOptions = .ok o ∧ o.indent.excess? = none := by
        rw [Config.layoutOptions, hc, hset]
        exact ⟨_, rfl, hunit unit hc⟩
      rw [ho]
      cases check with
      | true =>
        obtain ⟨hbreaks, hstatus⟩ | ⟨hwhole, hreview⟩ := review_isDecided x log hindent hnames
        · exact .inl ⟨⟨⟨unit, hc⟩, .inr hbreaks⟩, hstatus⟩
        · exact .inr ⟨fun h => h.2.elim hflat hwhole, hreview.status, .inr ⟨o, ho, hreview⟩⟩
      | false =>
        obtain ⟨hbreaks, hstatus⟩ | ⟨hwhole, hbatch⟩ :=
          batch_isDecided x log c.layoutExtension (fun _ _ => ofSource_ne_indent hindent) hnames
        · exact .inl ⟨⟨⟨unit, hc⟩, .inr ⟨o, ho, hbreaks⟩⟩, hstatus⟩
        · refine .inr ⟨?_, hbatch.status, .inr ⟨o, ho, hbatch⟩⟩
          rintro ⟨-, hnested | ⟨_, ho', hbreaks⟩⟩
          · exact hflat hnested
          · cases ho.symm.trans ho'
            exact hwhole hbreaks

lemma tree_isDecided {file : String} {asJson list : Bool} (hlist : loaded.HasTagList)
    (hname : '\x00' ∉ file.toList) :
    x.IsDecided loaded log (.tree file asJson list) (x.tree file asJson list) := by
  have htags := Config.tagNames_error_iff hlist
  rw [tree, configured, hload]
  simp only
  cases hread : x.store.readGiven file with
  | error e =>
    have hnull : e ≠ .nullCharacter := by
      rintro rfl
      exact hname (Store.readGiven_eq_nullCharacter_iff.1 hread)
    have hwhole : ¬Breaks x.store loaded (.tree file asJson list) := by simp [Breaks, hread]
    cases e with
    | fault f path => exact .inr ⟨hwhole, ⟨1, Nat.le_refl 1, rfl⟩, rfl⟩
    | nullCharacter => exact absurd rfl hnull
  | ok bytes =>
    simp only [SourceFile.text]
    cases hset : loaded.tagNames with
    | error e => exact .inl ⟨⟨htags.1 ⟨e, hset⟩, bytes, hread⟩, .tags e, rfl⟩
    | ok tags =>
      have hflat : ¬loaded.HasNestedTag := Config.not_of_eq_ok htags hset
      refine .inr ⟨fun h => hflat h.1, ?_⟩
      simp only
      cases Document.ofSource tags (Text.ofBytes bytes) with
      | error e => exact ⟨⟨1, Nat.le_refl 1, rfl⟩, rfl⟩
      | ok d => exact ⟨⟨0, Nat.zero_le 1, rfl⟩, rfl⟩

lemma showConfig_isDecided {writeTo : Option String} (hlist : loaded.HasTagList) :
    x.IsDecided loaded log (.config writeTo) x.showConfig := by
  rw [showConfig, configured, hload]
  simp only
  cases hc : loaded.unit with
  | error e =>
    have hjson : loaded.toJson = .error (.indent e) := by
      rw [Config.toJson, hc]
      rfl
    rw [hjson]
    refine .inr ⟨by simp [Breaks, hc], ⟨1, Nat.le_refl 1, rfl⟩, rfl, fun f hf => ?_⟩
    cases hc.symm.trans hf
    rfl
  | ok unit =>
    have hfault := Config.toJson_fault_iff hlist hc
    have hbreaks : Breaks x.store loaded (.config writeTo) ↔
        (∃ e, loaded.toJson = .error (.tags e)) ∨
          ∃ v, loaded.toJson = .ok v ∧ v.fault? ≠ none := by
      rw [hfault, Breaks, and_iff_right ⟨unit, hc⟩]
    have hunit : ∀ e, loaded.unit ≠ .error e := by simp [hc]
    rw [IsDecided, hbreaks, Finishes]
    cases hjson : loaded.toJson with
    | error e =>
      cases e with
      | tags e => exact .inl ⟨.inl ⟨e, rfl⟩, .tags e, rfl⟩
      | indent e | extension e =>
        exact .inr ⟨by simp, ⟨1, Nat.le_refl 1, rfl⟩, rfl, fun f hf => absurd hf (hunit f)⟩
    | ok v =>
      cases hv : v.fault? with
      | some e =>
        refine .inl ⟨.inr ⟨v, rfl, by simp [hv]⟩, .writing e, ?_⟩
        simp only [Json.indented, hv]
        rfl
      | none =>
        simp only [Json.indented, hv]
        exact .inr ⟨by simp [hv], ⟨0, Nat.zero_le 1, rfl⟩, trivial, fun f hf => absurd hf (hunit f)⟩

lemma perform_isDecided (hlist : loaded.HasTagList)
    (hnames : ∀ name ∈ task.names, '\x00' ∉ name.toList) (hwrite : ¬task.Writes)
    (hindent : ∀ unit, (task.overriding loaded).unit = .ok unit → unit.excess? = none) :
    x.IsDecided (task.overriding loaded) log task (x.perform task) := by
  cases task with
  | html files ignoreComments => exact html_isDecided hload (override_hasTagList hlist) hnames
  | layout files ignoreComments indent check =>
    exact layout_isDecided hload (override_hasTagList hlist) hnames hindent
  | tree file asJson list => exact tree_isDecided hload hlist (hnames file List.mem_cons_self)
  | config writeTo =>
    rw [perform_config hwrite]
    exact showConfig_isDecided hload hlist

end

/-- A task on a settings search that is broken off, or with a configuration that breaks it, ends
with no status; every other task ends with status 0 or 1 and is done with all its files, unless it
has ended at once for its unit of indentation. -/
theorem perform_error_iff (x : Context) (task : Task) (hread : Config.IsReader x.read)
    (hnames : ∀ name ∈ task.names, '\x00' ∉ name.toList) (hwrite : ¬task.Writes)
    (hindent : ∀ c log unit, x.RunsWith task c log → c.unit = .ok unit → unit.excess? = none) :
    ((∃ e, (x.perform task).status = .error e) ↔
        Config.IsBroken x.read x.store (Config.candidates x.environment x.configPath) ∨
          ∃ c log, x.RunsWith task c log ∧ Breaks x.store c task) ∧
      ∀ c log, x.RunsWith task c log → ¬Breaks x.store c task →
        (∃ n ≤ 1, (x.perform task).status = .ok n) ∧ x.Finishes c log task (x.perform task) := by
  rw [← Config.load_error_iff hread]
  rcases hload : Config.load x.read x.store x.environment x.configPath with ⟨e | loaded, log⟩
  · have hstatus : (x.perform task).status = .error (.config e) := by
      obtain ⟨run, hrun⟩ := exists_configured x hwrite
      rw [hrun, configured, hload]
      rfl
    refine ⟨iff_of_true ⟨_, hstatus⟩ (.inl ⟨e, rfl⟩), ?_⟩
    rintro c log' ⟨loaded, hloaded, -⟩
    cases hload.symm.trans hloaded
  · have hlist := Config.hasTagList_of_load hread hload
    have hdecided := perform_isDecided hload hlist hnames hwrite fun unit =>
      hindent _ log unit ⟨loaded, hload, rfl⟩
    have hruns : ∀ c log', x.RunsWith task c log' → c = task.overriding loaded ∧ log' = log := by
      rintro c log' ⟨other, hother, rfl⟩
      cases hload.symm.trans hother
      exact ⟨rfl, rfl⟩
    constructor
    · rw [or_iff_right (by simp)]
      obtain ⟨hbreaks, hstatus⟩ | ⟨hwhole, ⟨n, -, hn⟩, -⟩ := hdecided
      · exact iff_of_true hstatus ⟨_, log, ⟨loaded, hload, rfl⟩, hbreaks⟩
      · refine iff_of_false (by simp [hn]) ?_
        rintro ⟨c, log', hc, hbreaks⟩
        obtain ⟨rfl, -⟩ := hruns c log' hc
        exact hwhole hbreaks
    · intro c log' hc hwhole
      obtain ⟨rfl, rfl⟩ := hruns c log' hc
      obtain ⟨hbreaks, -⟩ | ⟨-, hdone⟩ := hdecided
      · exact absurd hbreaks hwhole
      · exact hdone

/-- A settings file with tags of two types, and a source. -/
def mixedTags : Context where
  read := Yaml.read
  environment := ⟨"/", none, none⟩
  configPath := none
  store := ⟨[], [(["jtml.yaml"], .file "self_terminating_tags: [br, 1]\n".toUTF8),
    (["a.jtml"], .file "br()".toUTF8)]⟩

theorem perform_error_iff_mixed_tags :
    Config.IsReader mixedTags.read ∧
      (∀ name ∈ Task.names (.layout ["a.jtml", "b.jtml"] false none false), '\x00' ∉ name.toList) ∧
      (∀ c log unit, mixedTags.RunsWith (.layout ["a.jtml", "b.jtml"] false none false) c log →
        c.unit = .ok unit → unit.excess? = none) ∧
      ∃ c log, mixedTags.RunsWith (.layout ["a.jtml", "b.jtml"] false none false) c log ∧
        ¬Breaks mixedTags.store c (.layout ["a.jtml", "b.jtml"] false none false) ∧
        mixedTags.Finishes c log (.layout ["a.jtml", "b.jtml"] false none false)
          (mixedTags.perform (.layout ["a.jtml", "b.jtml"] false none false)) := by
  have hunit : ((Config.load mixedTags.read mixedTags.store mixedTags.environment
      mixedTags.configPath).1.toOption.any fun c =>
        (override c false none).unit.toOption.any fun unit => unit.excess? = none) = true := by
    decide +kernel
  have hnames : ∀ name ∈ Task.names (.layout ["a.jtml", "b.jtml"] false none false),
      '\x00' ∉ name.toList := by
    decide +kernel
  have hindent : ∀ c log unit,
      mixedTags.RunsWith (.layout ["a.jtml", "b.jtml"] false none false) c log →
        c.unit = .ok unit → unit.excess? = none := by
    intro c log unit hruns hc
    obtain ⟨loaded, hload, hloaded⟩ := hruns
    have hc' : (override loaded false none).unit = .ok unit := by
      rw [hloaded] at hc
      exact hc
    rw [hload] at hunit
    change ((override loaded false none).unit.toOption.any _) = true at hunit
    rw [hc'] at hunit
    exact of_decide_eq_true hunit
  obtain ⟨herror, hdone⟩ := perform_error_iff mixedTags
    (.layout ["a.jtml", "b.jtml"] false none false) Config.isReader_yaml hnames nofun hindent
  have hstatus : (mixedTags.perform (.layout ["a.jtml", "b.jtml"] false none false)).status =
      .ok 1 := by
    decide +kernel
  rcases hload : Config.load mixedTags.read mixedTags.store mixedTags.environment
    mixedTags.configPath with ⟨e | loaded, log⟩
  · rw [hload] at hunit
    cases hunit
  · have hruns : mixedTags.RunsWith (.layout ["a.jtml", "b.jtml"] false none false)
        (override loaded false none) log := ⟨loaded, hload, rfl⟩
    have hwhole : ¬Breaks mixedTags.store (override loaded false none)
        (.layout ["a.jtml", "b.jtml"] false none false) := by
      intro hbreaks
      obtain ⟨e, he⟩ := herror.2 (.inr ⟨_, _, hruns, hbreaks⟩)
      cases hstatus.symm.trans he
    exact ⟨Config.isReader_yaml, hnames, hindent, _, log, hruns, hwhole, (hdone _ _ hruns hwhole).2⟩

end Context

def emptyExtension : Store :=
  ⟨[], [(["jtml.yaml"], .file "html_extension: \"\"\n".toUTF8), (["a.jtml"], .file "br()".toUTF8),
    (["b.jtml"], .file "hr()".toUTF8)]⟩

/-- An empty extension ends a batch with no status at the first file that compiles. -/
theorem empty_extension_ends_run :
    (run Yaml.read ⟨"/", none, none⟩ emptyExtension ["html", "a.jtml", "b.jtml"]).status =
        .error (.batch (.suffix ⟨"."⟩)) ∧
      (run Yaml.read ⟨"/", none, none⟩ emptyExtension ["html", "a.jtml", "b.jtml"]).store =
        emptyExtension ∧
      (run Yaml.read ⟨"/", none, none⟩ emptyExtension ["html", "a.jtml", "b.jtml"]).errors =
        "" := by
  decide +kernel

end TagCall.Command
