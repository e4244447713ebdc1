import TagCall.Command.Run
import TagCall.Proofs.Command.Isolation

/-!
# What a successful batch leaves

After a batch without failures each output holds what the last of the files with that output came
to, and that file was compiled from what it held at first unless an earlier output was put in its
place. So files of one stem in one folder share an output, of which the last one is left.
-/

namespace TagCall.Batch

open Files

variable {compile : Compiler} {extension name : String} {s s' : Store} {fate : Fate} {l : Location}

/-- Whether a file that is no folder has its output at a location. -/
def HasOutputAt (extension : String) (s : Store) (name : String) (l : Location) : Prop :=
  s.isFolder (.ofText name) = .ok false ∧
    ∃ output, (Path.ofText name).withExtension extension = .ok output ∧ s.Leads output l

/-- What a fate that is no failure says of its file, in a store with the same folders. -/
def Fate.Accounts (extension : String) (s : Store) (name : String) : Fate → Prop
  | .folder => s.isFolder (.ofText name) = .ok true
  | .written output => s.isFolder (.ofText name) = .ok false ∧
      (Path.ofText name).withExtension extension = .ok output ∧ ∃ l, s.Leads output l
  | _ => False

lemma Fate.accounts_iff (h : Store.SameFolders s s') :
    fate.Accounts extension s' name ↔ fate.Accounts extension s name := by
  cases fate with
  | folder => rw [Accounts, Accounts, h.isFolder]
  | written output => simp only [Accounts, h.isFolder, h.leads_iff]
  | unreadable e | invalid e | unwritable output e => rfl

lemma accounts_of_compileFile (h : compileFile compile extension s name = .ok (fate, s'))
    (hfate : fate.isFailure = false) : fate.Accounts extension s name := by
  have hstep := step_compileFile compile extension s name
  rw [h] at hstep
  cases hstep with
  | folder hfolder => exact hfolder
  | written hread hcompile hnamed hwrite =>
    obtain ⟨-, l, hl, -⟩ := Store.write_spec hwrite
    exact ⟨Store.isFolder_of_read hread, hnamed, l, hl⟩
  | unreadable | invalid | unwritable => cases hfate

/-! ### Batches that are not ended early -/

lemma stop_of_append {before after : List String}
    (h : (run compile extension s (before ++ after)).stop = none) :
    (run compile extension s before).stop = none := by
  induction before generalizing s with
  | nil => rfl
  | cons first rest ih =>
    cases hfirst : compileFile compile extension s first with
    | error e =>
      rw [List.cons_append, run_cons_of_error _ hfirst] at h
      cases h
    | ok next =>
      rw [List.cons_append, run_cons_of_ok _ hfirst] at h
      rw [run_cons_of_ok rest hfirst]
      exact ih h

lemma map_fst_fates {names : List String} (h : (run compile extension s names).stop = none) :
    (run compile extension s names).fates.map (·.1) = names := by
  induction names generalizing s with
  | nil => rfl
  | cons first rest ih =>
    cases hfirst : compileFile compile extension s first with
    | error e =>
      rw [run_cons_of_error rest hfirst] at h
      cases h
    | ok next =>
      rw [run_cons_of_ok rest hfirst] at h ⊢
      rw [List.map_cons, ih h]

lemma accounts_of_run {names : List String} (h : (run compile extension s names).failures = 0) :
    ∀ f ∈ (run compile extension s names).fates, f.2.Accounts extension s f.1 := by
  induction names generalizing s with
  | nil => exact fun f hf => absurd hf List.not_mem_nil
  | cons first rest ih =>
    cases hfirst : compileFile compile extension s first with
    | error e =>
      rw [run_cons_of_error rest hfirst]
      exact fun f hf => absurd hf List.not_mem_nil
    | ok next =>
      obtain ⟨fate, s'⟩ := next
      rw [run_cons_of_ok rest hfirst, Run.failures, List.countP_cons, Nat.add_eq_zero_iff] at h
      rw [run_cons_of_ok rest hfirst, List.forall_mem_cons]
      refine ⟨accounts_of_compileFile hfirst (by simpa using h.2), fun f hf => ?_⟩
      rw [← Fate.accounts_iff (sameFolders_compileFile hfirst)]
      exact ih h.1 f hf

lemma Fate.Accounts.writtenAt (h : fate.Accounts extension s name)
    (hl : HasOutputAt extension s name l) : fate.WrittenAt s l := by
  obtain ⟨hfolder, output, hnamed, hleads⟩ := hl
  cases fate with
  | folder =>
    rw [Accounts, hfolder] at h
    cases h
  | written other =>
    obtain ⟨-, hother, -⟩ := h
    cases hnamed.symm.trans hother
    exact ⟨output, rfl, hleads⟩
  | unreadable e | invalid e | unwritable output e => exact h.elim

lemma Fate.Accounts.hasOutputAt (h : fate.Accounts extension s name)
    (hl : fate.WrittenAt s l) : HasOutputAt extension s name l := by
  obtain ⟨output, rfl, hleads⟩ := hl
  exact ⟨h.1, output, h.2.1, hleads⟩

/-- In a batch without failures, no file behind the last one written at a location has its output
there. -/
lemma IsLastWriter.hasOutputAt {before after : List String} {output : Path} {bytes : ByteArray}
    {result : String}
    (h : IsLastWriter compile extension s l before name after output bytes result)
    (hstop : (run compile extension s (before ++ name :: after)).stop = none)
    (hfailures : (run compile extension s (before ++ name :: after)).failures = 0) :
    HasOutputAt extension s name l ∧ ∀ other ∈ after, ¬HasOutputAt extension s other l := by
  obtain ⟨later, hfates, hlater⟩ := h.last
  have haccounts := accounts_of_run hfailures
  have hnames := map_fst_fates hstop
  rw [hfates] at haccounts hnames
  rw [List.map_append, map_fst_fates (stop_of_append hstop), List.append_cancel_left_eq,
    List.map_cons, List.cons.injEq] at hnames
  obtain ⟨-, hlast, hrest⟩ := List.forall_mem_append.1 haccounts |>.imp_right List.forall_mem_cons.1
  refine ⟨hlast.hasOutputAt ⟨output, rfl, h.leads⟩, fun other hother hl => ?_⟩
  rw [← hnames.2] at hother
  obtain ⟨⟨_, fate⟩, hfate, rfl⟩ := List.mem_map.1 hother
  exact hlater _ hfate ((hrest _ hfate).writtenAt hl)

/-- A path that no output was put at reads what it read at first. -/
lemma read_of_run {names : List String} {p : Path} {bytes : ByteArray}
    (hfailures : (run compile extension s names).failures = 0)
    (h : ∀ other ∈ names, ∀ l, s.Leads p l → ¬HasOutputAt extension s other l)
    (hstop : (run compile extension s names).stop = none)
    (hread : (run compile extension s names).store.read p = .ok bytes) : s.read p = .ok bytes := by
  rw [← (sameFolders_run names).read_iff fun l hl => ?_]
  · exact hread
  · apply entry?_run
    intro f hf hwritten
    have hother : f.1 ∈ names := by
      rw [← map_fst_fates hstop]
      exact List.mem_map_of_mem hf
    exact h f.1 hother l hl ((accounts_of_run hfailures f hf).hasOutputAt hwritten)

/-- What the output of a file holds in the end: what the last file with this output came to from
what it held at its turn, and that is what it held at first unless an earlier output was put in its
place. -/
def HoldsLastResult (compile : Compiler) (extension : String) (s s' : Store) (names : List String)
    (name : String) : Prop :=
  ∃ output l, (Path.ofText name).withExtension extension = .ok output ∧ s.Leads output l ∧
    ∃ before last after bytes result, names = before ++ last :: after ∧
      HasOutputAt extension s last l ∧ (∀ other ∈ after, ¬HasOutputAt extension s other l) ∧
      (run compile extension s before).store.read (.ofText last) = .ok bytes ∧
      ((∀ other ∈ before, ∀ m, s.Leads (.ofText last) m → ¬HasOutputAt extension s other m) →
        s.read (.ofText last) = .ok bytes) ∧
      compile (Text.ofBytes bytes) = .ok result ∧ s'.read output = .ok result.toUTF8

lemma failures_of_append {before after : List String}
    (hstop : (run compile extension s (before ++ after)).stop = none)
    (h : (run compile extension s (before ++ after)).failures = 0) :
    (run compile extension s before).failures = 0 := by
  rw [run_append after (stop_of_append hstop), Run.failures, List.countP_append,
    Nat.add_eq_zero_iff] at h
  exact h.1

lemma holdsLastResult {names : List String} (hstop : (run compile extension s names).stop = none)
    (hfailures : (run compile extension s names).failures = 0) (hname : name ∈ names)
    (hfolder : s.isFolder (.ofText name) = .ok false) :
    HoldsLastResult compile extension s (run compile extension s names).store names name := by
  have haccounts := accounts_of_run hfailures
  rw [← map_fst_fates hstop] at hname
  obtain ⟨⟨_, fate⟩, hfate, rfl⟩ := List.mem_map.1 hname
  have haccount := haccounts _ hfate
  cases fate with
  | folder =>
    rw [Fate.Accounts, hfolder] at haccount
    cases haccount
  | unreadable e | invalid e | unwritable output e => exact haccount.elim
  | written output =>
    obtain ⟨-, hnamed, l, hl⟩ := haccount
    obtain ⟨before, last, after, other, bytes, result, rfl, hwriter, hentry⟩ :=
      exists_isLastWriter ⟨_, hfate, output, rfl, hl⟩
    obtain ⟨hlast, hafter⟩ := hwriter.hasOutputAt hstop hfailures
    have hread := fun hkept =>
      read_of_run (failures_of_append hstop hfailures) hkept (stop_of_append hstop) hwriter.read
    refine ⟨output, l, hnamed, hl, before, last, after, bytes, result, rfl, hlast, hafter,
      hwriter.read, hread, hwriter.compiled, ?_⟩
    rw [Store.read_eq_ok_iff_leads]
    exact ⟨l, (sameFolders_run _).leads_iff.2 hl, hentry⟩

/-- Where no output of another file is put in place of a file or of its own output, its output holds
what it came to from what it held at first. -/
lemma HoldsLastResult.of_distinct {s' : Store} {names : List String} (hnames : names.Nodup)
    (h : HoldsLastResult compile extension s s' names name)
    (hfolder : s.isFolder (.ofText name) = .ok false)
    (hothers : ∀ other ∈ names, other ≠ name → ∀ l, HasOutputAt extension s other l →
      ¬s.Leads (.ofText name) l ∧ ¬HasOutputAt extension s name l) :
    ∃ output bytes result, (Path.ofText name).withExtension extension = .ok output ∧
      s.read (.ofText name) = .ok bytes ∧ compile (Text.ofBytes bytes) = .ok result ∧
      s'.read output = .ok result.toUTF8 := by
  obtain ⟨output, l, hnamed, hl, before, last, after, bytes, result, rfl, hlast, -, -, hkept,
    hcompile, hread⟩ := h
  obtain rfl : last = name := by
    by_contra hne
    have hmem : last ∈ before ++ last :: after := by simp
    exact (hothers last hmem hne l hlast).2 ⟨hfolder, output, hnamed, hl⟩
  refine ⟨output, bytes, result, hnamed, hkept fun other hother m hm hput => ?_, hcompile, hread⟩
  have hne : other ≠ last := by
    rintro rfl
    exact (List.nodup_append.1 hnames).2.2 _ hother _ List.mem_cons_self rfl
  exact (hothers other (List.mem_append_left _ hother) hne m hput).1 hm

end TagCall.Batch

namespace TagCall.Command

open Batch Files

/-- The files that a task compiles into others. -/
def Task.sources : Task → List String
  | .html files _ | .layout files _ _ false => files
  | _ => []

namespace Context

variable {x : Context} {task : Task} {log : List Log.Line} {compile : Compiler} {extension : String}

/-- How a task compiles its files, and what was logged before. -/
inductive Compiles (x : Context) : Task → List Log.Line → Compiler → String → Prop
  | html {files : List String} {ignoreComments : Bool} {c : Config} {log : List Log.Line}
      {o : Html.Options} {extension : String}
      (hload : Config.load x.read x.store x.environment x.configPath = (.ok c, log))
      (ho : (override c ignoreComments none).htmlOptions = .ok o)
      (hextension : (override c ignoreComments none).htmlSuffix = .ok extension) :
      Compiles x (.html files ignoreComments) log (htmlCompiler o) extension
  | layout {files : List String} {ignoreComments : Bool} {indent : Option Setting} {c : Config}
      {log : List Log.Line} {o : Layout.Options} {extension : String}
      (hload : Config.load x.read x.store x.environment x.configPath = (.ok c, log))
      (ho : (override c ignoreComments indent).layoutOptions = .ok o)
      (hextension : (override c ignoreComments indent).layoutSuffix = .ok extension) :
      Compiles x (.layout files ignoreComments indent false) log (Layout.ofSource o) extension

lemma Compiles.perform (h : x.Compiles task log compile extension) :
    x.perform task = x.batch log compile (.ok extension) task.sources := by
  cases h with
  | html hload ho hextension =>
    simp only [Context.perform, Context.html, configured, hload, ho, hextension]
    rfl
  | layout hload ho hextension =>
    simp only [Context.perform, Context.layout, configured, hload, ho, hextension]
    rfl

lemma exists_load_of_status {run : Config → List Log.Line → Outcome} {status : Nat}
    (h : (x.configured run).status = .ok status) :
    ∃ c log, Config.load x.read x.store x.environment x.configPath = (.ok c, log) ∧
      (run c log).status = .ok status := by
  rw [configured] at h
  split at h
  · rename_i c log hload
    exact ⟨c, log, hload, h⟩
  · cases h

/-- A task that does not get to its files ends with no status, or with status 1. -/
lemma exists_compiles (h : (x.perform task).status = .ok 0) (hne : task.sources ≠ []) :
    ∃ log compile extension, x.Compiles task log compile extension := by
  cases task with
  | tree | config => exact absurd rfl hne
  | html files ignoreComments =>
    obtain ⟨c, log, hload, hstatus⟩ := exists_load_of_status h
    cases ho : (override c ignoreComments none).htmlOptions with
    | error e =>
      simp only [ho] at hstatus
      cases hstatus
    | ok o =>
      cases hextension : (override c ignoreComments none).htmlSuffix with
      | error e =>
        simp only [ho, hextension] at hstatus
        cases hstatus
      | ok extension => exact ⟨log, _, extension, .html hload ho hextension⟩
  | layout files ignoreComments indent check =>
    cases check with
    | true => exact absurd rfl hne
    | false =>
      obtain ⟨c, log, hload, hstatus⟩ := exists_load_of_status h
      cases ho : (override c ignoreComments indent).layoutOptions with
      | error e =>
        simp only [ho] at hstatus
        cases e <;> cases hstatus
      | ok o =>
        cases hextension : (override c ignoreComments indent).layoutSuffix with
        | error e =>
          simp only [ho, hextension] at hstatus
          cases hstatus
        | ok extension => exact ⟨log, _, extension, .layout hload ho hextension⟩

lemma run_of_batch {files : List String}
    (h : (x.batch log compile (.ok extension) files).status = .ok 0) :
    (Batch.run compile extension x.store files).stop = none ∧
      (Batch.run compile extension x.store files).failures = 0 := by
  simp only [batch] at h
  split at h
  · cases h
  · rename_i hstop
    refine ⟨hstop, ?_⟩
    by_contra hne
    rw [statusOf, if_neg hne] at h
    cases h

/-- When a task that compiles files ends with status 0, the output of each file that is no folder
holds what the last file with this output came to, and that was made of what the last file held at
first unless an earlier output was put in its place. In particular an output is what its own file
came to, if no output of another file is put in place of the file or of its output. -/
theorem successful_batch_holds_last_results (x : Context) (task : Task) (name : String)
    (hstatus : (x.perform task).status = .ok 0) (hname : name ∈ task.sources)
    (hfolder : x.store.isFolder (.ofText name) = .ok false) :
    ∃ log compile extension, x.Compiles task log compile extension ∧
      HoldsLastResult compile extension x.store (x.perform task).store task.sources name ∧
      (task.sources.Nodup →
        (∀ other ∈ task.sources, other ≠ name → ∀ l, HasOutputAt extension x.store other l →
          ¬x.store.Leads (.ofText name) l ∧ ¬HasOutputAt extension x.store name l) →
        ∃ output bytes result, (Path.ofText name).withExtension extension = .ok output ∧
          x.store.read (.ofText name) = .ok bytes ∧
          compile (Text.ofBytes bytes) = .ok result ∧
          (x.perform task).store.read output = .ok result.toUTF8) := by
  obtain ⟨log, compile, extension, hcompiles⟩ :=
    exists_compiles hstatus (List.ne_nil_of_mem hname)
  rw [hcompiles.perform] at hstatus ⊢
  obtain ⟨hstop, hfailures⟩ := run_of_batch hstatus
  have hholds := holdsLastResult hstop hfailures hname hfolder
  exact ⟨log, compile, extension, hcompiles, hholds,
    fun hnames => hholds.of_distinct hnames hfolder⟩

/-- Two files with outputs of their own, and a folder. -/
def pages : Context where
  read _ := .error .unreadable
  environment := ⟨"/", none, none⟩
  configPath := none
  store := ⟨[], [(["a.jtml"], .file "br()".toUTF8), (["b.jtml"], .file "hr()".toUTF8),
    (["c"], .folder)]⟩

theorem successful_batch_holds_last_results_pages :
    (pages.perform (.html ["a.jtml", "b.jtml", "c"] false)).status = .ok 0 ∧
      pages.store.isFolder (.ofText "a.jtml") = .ok false ∧
      (∀ other ∈ ["a.jtml", "b.jtml", "c"], other ≠ "a.jtml" →
        ∀ l, HasOutputAt "html" pages.store other l →
          ¬pages.store.Leads (.ofText "a.jtml") l ∧ ¬HasOutputAt "html" pages.store "a.jtml" l) ∧
      ∃ log compile, pages.Compiles (.html ["a.jtml", "b.jtml", "c"] false) log compile "html" ∧
        ∃ output bytes result, (Path.ofText "a.jtml").withExtension "html" = .ok output ∧
          pages.store.read (.ofText "a.jtml") = .ok bytes ∧
          compile (Text.ofBytes bytes) = .ok result ∧
          (pages.perform (.html ["a.jtml", "b.jtml", "c"] false)).store.read output =
            .ok result.toUTF8 := by
  have hstatus : (pages.perform (.html ["a.jtml", "b.jtml", "c"] false)).status = .ok 0 := by
    decide +kernel
  have hfolder : pages.store.isFolder (.ofText "a.jtml") = .ok false := by
    decide +kernel
  have hsource : pages.store.Leads (.ofText "a.jtml") ["a.jtml"] := ⟨_, rfl, rfl⟩
  have hfirst : ∀ l, HasOutputAt "html" pages.store "a.jtml" l → l = ["a.html"] := by
    rintro l ⟨-, output, hnamed, hl⟩
    cases hnamed
    exact hl.unique ⟨_, rfl, rfl⟩
  have hsecond : ∀ l, HasOutputAt "html" pages.store "b.jtml" l → l = ["b.html"] := by
    rintro l ⟨-, output, hnamed, hl⟩
    cases hnamed
    exact hl.unique ⟨_, rfl, rfl⟩
  have hothers : ∀ other ∈ ["a.jtml", "b.jtml", "c"], other ≠ "a.jtml" →
      ∀ l, HasOutputAt "html" pages.store other l →
        ¬pages.store.Leads (.ofText "a.jtml") l ∧ ¬HasOutputAt "html" pages.store "a.jtml" l := by
    intro other hother hne l hl
    simp only [List.mem_cons, List.not_mem_nil, or_false, hne, false_or] at hother
    obtain rfl | rfl := hother
    · obtain rfl := hsecond l hl
      refine ⟨fun hread => ?_, fun hput => ?_⟩
      · exact absurd (hsource.unique hread) (by decide)
      · exact absurd (hfirst _ hput) (by decide)
    · obtain ⟨hfile, -⟩ := hl
      exact absurd hfile (by decide +kernel)
  obtain ⟨log, compile, extension, hcompiles, -, hown⟩ :=
    successful_batch_holds_last_results _ _ _ hstatus List.mem_cons_self hfolder
  obtain rfl : extension = "html" := by
    cases hcompiles with
    | html hload ho hextension =>
      cases hload
      cases hextension
      rfl
  exact ⟨hstatus, hfolder, hothers, log, compile, hcompiles, hown (by decide) hothers⟩

def sameStem : Context :=
  { pages with
    store := ⟨[], [(["a.jtml"], .file "\"a\"".toUTF8), (["a.txt"], .file "\"b\"".toUTF8)]⟩ }

/-- Two files with the same output are no failure, and the output is that of the last one. -/
theorem same_stem_keeps_last_result :
    ["a.jtml", "a.txt"].Nodup ∧ sameStem.store.isFolder (.ofText "a.jtml") = .ok false ∧
      (Path.ofText "a.jtml").withExtension "html" = .ok (.ofText "a.html") ∧
      SourceFile.html {} (sameStem.store.read (.ofText "a.jtml")) = .ok "a" ∧
      (sameStem.perform (.html ["a.jtml", "a.txt"] false)).status = .ok 0 ∧
      (sameStem.perform (.html ["a.jtml", "a.txt"] false)).store.read (.ofText "a.html") =
        .ok "b".toUTF8 := by
  decide +kernel

end Context

end TagCall.Command
