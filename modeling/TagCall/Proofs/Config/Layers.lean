import TagCall.Command.Run
import TagCall.Proofs.Files.Folders
import TagCall.Yaml.Read

/-!
# Where a setting comes from

A setting is that of the command line, else that of the environment, else that of the first settings
file that is accepted, else the default (`load_eq_layered`). A file that is not accepted counts for
nothing, except that a number out of range in it ends the search.
-/

namespace TagCall.Config

open Files Setting

variable {read : Setting.Reader} {s s' : Store} {env : Environment} {p : Path}
  {paths rest : List Path} {entries : List (Scalar × Setting)}

/-! ### Readers -/

/-- A reader of texts whose mappings have each key once. -/
structure IsReader (read : Setting.Reader) : Prop where
  isText : ∀ bytes v, read bytes = .ok v → (String.fromUTF8? bytes).isSome
  keys : ∀ bytes entries, read bytes = .ok (.mapping entries) →
    entries.Pairwise fun a b => a.1.same b.1 = false

lemma mem_setEntry {key : Scalar} {v : Setting} {e : Scalar × Setting}
    (h : e ∈ setEntry key v entries) : e.1 = key ∨ ∃ old ∈ entries, old.1 = e.1 := by
  induction entries with
  | nil =>
    rw [setEntry, List.mem_singleton] at h
    exact .inl (congrArg Prod.fst h)
  | cons first rest ih =>
    rw [setEntry] at h
    split at h
    · obtain rfl | h := List.mem_cons.1 h
      · exact .inr ⟨first, List.mem_cons_self, rfl⟩
      · exact .inr ⟨e, List.mem_cons_of_mem _ h, rfl⟩
    · obtain rfl | h := List.mem_cons.1 h
      · exact .inr ⟨first, List.mem_cons_self, rfl⟩
      · obtain h | ⟨old, hold, h⟩ := ih h
        · exact .inl h
        · exact .inr ⟨old, List.mem_cons_of_mem _ hold, h⟩

lemma pairwise_setEntry (key : Scalar) (v : Setting)
    (h : entries.Pairwise fun a b => a.1.same b.1 = false) :
    (setEntry key v entries).Pairwise fun a b => a.1.same b.1 = false := by
  induction entries with
  | nil => exact List.pairwise_singleton _ _
  | cons first rest ih =>
    obtain ⟨hfirst, hrest⟩ := List.pairwise_cons.1 h
    rw [setEntry]
    split
    · exact List.pairwise_cons.2 ⟨hfirst, hrest⟩
    · rename_i hkey
      refine List.pairwise_cons.2 ⟨fun e he => ?_, ih hrest⟩
      obtain hnew | ⟨old, hold, hsame⟩ := mem_setEntry he
      · rw [hnew]
        exact Bool.eq_false_iff.2 hkey
      · rw [← hsame]
        exact hfirst old hold

lemma pairwise_foldl_setEntry (added : List (Scalar × Setting))
    (h : entries.Pairwise fun a b => a.1.same b.1 = false) :
    (added.foldl (fun es (key, v) => setEntry key v es) entries).Pairwise
      fun a b => a.1.same b.1 = false := by
  induction added generalizing entries with
  | nil => exact h
  | cons first rest ih => exact ih (pairwise_setEntry first.1 first.2 h)

lemma pairwise_of_value? {d : Yaml.Draft} (h : d.value? = some (.mapping entries)) :
    entries.Pairwise fun a b => a.1.same b.1 = false := by
  cases d with
  | word w =>
    rw [Yaml.Draft.value?, Option.map_eq_some_iff] at h
    obtain ⟨_, -, h⟩ := h
    cases h
  | sequence items =>
    rw [Yaml.Draft.value?, Option.map_eq_some_iff] at h
    obtain ⟨_, -, h⟩ := h
    cases h
  | mapping merges added =>
    rw [Yaml.Draft.value?, Option.bind_eq_bind, Option.bind_eq_some_iff] at h
    obtain ⟨values, -, h⟩ := h
    split at h
    · cases h
      exact pairwise_foldl_setEntry values .nil
    · cases h

lemma isReader_yaml : IsReader Yaml.read := by
  have hread : ∀ bytes v, Yaml.read bytes = .ok v →
      (String.fromUTF8? bytes).isSome ∧ ∃ d : Yaml.Draft, d.value? = some v := by
    intro bytes v h
    unfold Yaml.read Text.utf8Start at h
    cases hbytes : String.fromUTF8? bytes with
    | none =>
      simp only [hbytes, Bool.false_and, Bool.false_eq_true, if_false] at h
      split at h
      · cases h
      · split at h <;> cases h
      · cases h
    | some text =>
      simp only [hbytes] at h
      split at h
      · rename_i d hd
        split at h
        · refine ⟨rfl, d, ?_⟩
          unfold Yaml.Draft.read at h
          split at h
          · rename_i hvalue
            cases h
            exact hvalue
          · cases h
        · cases h
      · split at h <;> cases h
      · cases h
  refine ⟨fun bytes v h => (hread bytes v h).1, fun bytes entries h => ?_⟩
  obtain ⟨-, d, hd⟩ := hread bytes _ h
  exact pairwise_of_value? hd

/-! ### Settings under their keys -/

structure IsKept (key : String) (field : Config → Setting) : Prop where
  set_self : ∀ c v, field (set c key v) = v
  set_other : ∀ c other v, other ≠ key → field (set c other v) = field c

lemma entry?_cons (key : String) (first : Scalar × Setting) (rest : List (Scalar × Setting)) :
    entry? key (first :: rest) = if first.1 = .text key then some first.2 else entry? key rest := by
  unfold entry?
  rw [List.find?_cons]
  by_cases hfirst : first.1 = .text key
  · simp [hfirst]
  · simp [hfirst]

lemma entry?_eq_none (key : String) (h : ∀ e ∈ entries, Scalar.same (.text key) e.1 = false) :
    entry? key entries = none := by
  unfold entry?
  rw [Option.map_eq_none_iff, List.find?_eq_none]
  intro e he hkey
  have hsame := h e he
  rw [decide_eq_true_eq] at hkey
  simp [hkey, Scalar.same, Scalar.ratio?] at hsame

/-- Of a mapping, a setting is the value under its key, or what it was before. -/
lemma IsKept.overlay {key : String} {field : Config → Setting} (hfield : IsKept key field)
    (c : Config) (h : entries.Pairwise fun a b => a.1.same b.1 = false) :
    field (overlay c entries) = (Setting.entry? key entries).getD (field c) := by
  induction entries generalizing c with
  | nil => rfl
  | cons first rest ih =>
    obtain ⟨hfirst, hrest⟩ := List.pairwise_cons.1 h
    obtain ⟨k, v⟩ := first
    rw [entry?_cons]
    by_cases hkey : k = .text key
    · obtain rfl := hkey
      have hlater := entry?_eq_none key hfirst
      rw [if_pos rfl, Config.overlay, List.foldl_cons]
      exact (ih _ hrest).trans (by rw [hlater]; exact hfield.set_self c v)
    · rw [if_neg hkey, Config.overlay, List.foldl_cons]
      refine (ih _ hrest).trans ?_
      cases k with
      | text other => rw [hfield.set_other c other v fun h => hkey (congrArg _ h)]
      | null | bool | int | float | time => rfl

lemma isKept_indent : IsKept "indent" indent := by
  constructor <;> intros <;> unfold set <;> split <;> simp_all

lemma isKept_ignoreComments : IsKept "ignore_comments" ignoreComments := by
  constructor <;> intros <;> unfold set <;> split <;> simp_all

lemma isKept_voidTags : IsKept "self_terminating_tags" voidTags := by
  constructor <;> intros <;> unfold set <;> split <;> simp_all

lemma isKept_htmlExtension : IsKept "html_extension" htmlExtension := by
  constructor <;> intros <;> unfold set <;> split <;> simp_all

lemma isKept_layoutExtension : IsKept "formatted_extension" layoutExtension := by
  constructor <;> intros <;> unfold set <;> split <;> simp_all

abbrev Found := Path × List (Scalar × Setting)

/-- The configuration that the command line, the environment and a file come to, the first before
the second before the third. -/
def layered (ignoreComments : Bool) (indent : Option Setting) (env : Environment)
    (found : Option Found) : Config :=
  let inFile (key : String) : Option Setting := found.bind fun f => entry? key f.2
  { indent := (indent <|> env.indent.map Setting.text <|> inFile "indent").getD (.text "4")
    ignoreComments :=
      ((if ignoreComments then some (Setting.bool true) else none) <|>
        env.ignoreComments.map (fun s => Setting.bool (isYes s)) <|>
        inFile "ignore_comments").getD (.bool false)
    voidTags :=
      (inFile "self_terminating_tags").getD (.sequence (defaultVoidTags.map Setting.text))
    htmlExtension := (inFile "html_extension").getD (.text "html")
    layoutExtension := (inFile "formatted_extension").getD (.text "formatted_jtml")
    file := found.map (·.1) }

/-- The defaults under the settings of a file. -/
def ofFound : Option Found → Config
  | none => {}
  | some (p, entries) => { Config.overlay {} entries with file := some p }

lemma ofFound_eq_layered {found : Option Found}
    (h : ∀ f ∈ found, f.2.Pairwise fun a b => a.1.same b.1 = false) :
    ofFound found = layered false none ⟨"", none, none⟩ found := by
  cases found with
  | none => rfl
  | some f =>
    have hkeys := h f rfl
    simp only [ofFound, layered, isKept_indent.overlay _ hkeys,
      isKept_ignoreComments.overlay _ hkeys, isKept_voidTags.overlay _ hkeys,
      isKept_htmlExtension.overlay _ hkeys, isKept_layoutExtension.overlay _ hkeys]
    rfl

lemma override_underEnvironment (ignoreComments : Bool) (indent : Option Setting)
    (env : Environment) {found : Option Found}
    (h : ∀ f ∈ found, f.2.Pairwise fun a b => a.1.same b.1 = false) :
    Command.Context.override ((ofFound found).underEnvironment env) ignoreComments indent =
      layered ignoreComments indent env found := by
  rw [ofFound_eq_layered h]
  obtain ⟨home, envIndent, envComments⟩ := env
  cases ignoreComments <;> cases indent <;> cases envIndent <;> cases envComments <;> rfl

/-! ### The search -/

/-- The files that a configuration can come from, in order. An empty path is none. -/
def candidates (env : Environment) : Option String → List Path
  | none | some "" => searchPaths env
  | some path => [Path.ofText path]

/-- Whether a value can be taken as settings: it counts as empty, or is a mapping in which the tags
are a list, null or left out. -/
inductive AreSettings : Setting → List (Scalar × Setting) → Prop
  | empty {v : Setting} (h : v.isTruthy = false) : AreSettings v []
  | mapping {entries : List (Scalar × Setting)}
      (h : ∀ tags, entry? "self_terminating_tags" entries = some tags →
        tags = .null ∨ ∃ items, tags = .sequence items) :
      AreSettings (.mapping entries) entries

/-- Whether a file is accepted, and its entries. -/
def Accepts (read : Setting.Reader) (s : Store) (p : Path) (entries : List (Scalar × Setting)) :
    Prop :=
  ∃ bytes v, s.read p = .ok bytes ∧ (String.fromUTF8? bytes).isSome ∧ read bytes = .ok v ∧
    AreSettings v entries

/-- Whether a search ends at a path without a configuration: there is no answer to whether anything
stands there, or there is a number out of range in the file. -/
def Breaks (read : Setting.Reader) (s : Store) (p : Path) : Prop :=
  (∃ e, s.holds p = .error e) ∨ ∃ bytes, s.read p = .ok bytes ∧ read bytes = .error .outOfRange

/-- Whether a search goes on behind a path, which leads nowhere or to a file that is not
accepted. -/
def Passes (read : Setting.Reader) (s : Store) (p : Path) : Prop :=
  (∀ entries, ¬Accepts read s p entries) ∧ ¬Breaks read s p

def IsFirst (read : Setting.Reader) (s : Store) (paths : List Path) : Option Found → Prop
  | none => ∀ p ∈ paths, ∀ entries, ¬Accepts read s p entries
  | some (p, entries) => ∃ before after, paths = before ++ p :: after ∧
      (∀ q ∈ before, ∀ entries, ¬Accepts read s q entries) ∧ Accepts read s p entries

/-- Whether a search ends before a file is accepted. -/
def IsBroken (read : Setting.Reader) (s : Store) (paths : List Path) : Prop :=
  ∃ before p after, paths = before ++ p :: after ∧
    (∀ q ∈ before, ∀ entries, ¬Accepts read s q entries) ∧ Breaks read s p

lemma hasGoodTags_iff :
    hasGoodTags entries ↔ ∀ tags, entry? "self_terminating_tags" entries = some tags →
      tags = .null ∨ ∃ items, tags = .sequence items := by
  unfold hasGoodTags
  rcases entry? "self_terminating_tags" entries with _ | (v | items | fields)
  · simp
  · cases v <;> simp
  · simp
  · simp

lemma settingsOf_eq_ok_iff {v : Setting} : settingsOf v = .ok entries ↔ AreSettings v entries := by
  constructor
  · intro h
    unfold settingsOf at h
    split at h
    · split at h
      · rename_i hgood
        cases h
        exact .mapping (hasGoodTags_iff.1 hgood)
      · cases h
    · split at h
      · cases h
      · rename_i hempty
        cases h
        exact .empty (Bool.eq_false_iff.2 hempty)
  · intro h
    cases h with
    | @empty v h =>
      unfold settingsOf
      split
      · rename_i fields
        rw [Setting.isTruthy, Bool.not_eq_false', List.isEmpty_iff] at h
        rw [h]
        rfl
      · rw [h]
        rfl
    | mapping h => rw [settingsOf, if_pos (hasGoodTags_iff.2 h)]

lemma settingsOf_ne_outOfRange (v : Setting) : settingsOf v ≠ .error .outOfRange := by
  unfold settingsOf
  split <;> split <;> simp

lemma settingsAt_of_read {bytes : ByteArray} (hbytes : s.read p = .ok bytes) :
    settingsAt read s p =
      match read bytes with
      | .ok v => settingsOf v
      | .error e => .error (.ofRead e) := by
  unfold settingsAt
  rw [hbytes]
  cases h : read bytes with
  | error e => simp only [h]; rfl
  | ok v => simp only [h]; rfl

lemma settingsAt_eq_ok_iff (hread : IsReader read) :
    settingsAt read s p = .ok entries ↔ Accepts read s p entries := by
  cases hbytes : s.read p with
  | error e => simp [settingsAt, Accepts, hbytes]
  | ok bytes =>
    rw [settingsAt_of_read hbytes]
    cases hv : read bytes with
    | error e => simp [Accepts, hbytes, hv]
    | ok v =>
      have htext := hread.isText bytes v hv
      simp [Accepts, hbytes, hv, htext, settingsOf_eq_ok_iff]

lemma settingsAt_eq_outOfRange_iff :
    settingsAt read s p = .error .outOfRange ↔
      ∃ bytes, s.read p = .ok bytes ∧ read bytes = .error .outOfRange := by
  cases hbytes : s.read p with
  | error e => simp [settingsAt, hbytes]
  | ok bytes =>
    rw [settingsAt_of_read hbytes]
    cases hv : read bytes with
    | error e => cases e <;> simp [hv, Rejection.ofRead]
    | ok v => simp [hv, settingsOf_ne_outOfRange]

lemma holds_of_read {bytes : ByteArray} (h : s.read p = .ok bytes) : s.holds p = .ok true := by
  obtain ⟨l, htarget⟩ := Store.read_eq_ok_iff.1 h
  rw [Store.holds, Store.look, htarget]
  rfl

/-! A search takes a file that is accepted, ends at one that breaks it, and passes all others. -/

lemma firstOf_of_accepts (hread : IsReader read) (h : Accepts read s p entries) :
    (firstOf read s (p :: rest)).1 = .ok (ofFound (some (p, entries))) := by
  have hsettings := (settingsAt_eq_ok_iff hread).2 h
  obtain ⟨bytes, -, hbytes, -⟩ := h
  simp only [firstOf, holds_of_read hbytes, hsettings]
  rfl

lemma firstOf_of_breaks (h : Breaks read s p) :
    ∃ e, (firstOf read s (p :: rest)).1 = .error e := by
  obtain ⟨e, hholds⟩ | ⟨bytes, hbytes, hrange⟩ := h
  · exact ⟨.file e, by simp only [firstOf, hholds]⟩
  · have hsettings := settingsAt_eq_outOfRange_iff.2 ⟨bytes, hbytes, hrange⟩
    exact ⟨.outOfRange, by simp only [firstOf, holds_of_read hbytes, hsettings]⟩

lemma firstOf_of_passes (hread : IsReader read) (h : Passes read s p) :
    (firstOf read s (p :: rest)).1 = (firstOf read s rest).1 := by
  obtain ⟨haccepts, hbreaks⟩ := h
  rw [Breaks, not_or, not_exists] at hbreaks
  rw [firstOf]
  rcases hholds : s.holds p with e | _ | _
  · exact absurd hholds (hbreaks.1 e)
  · rfl
  · cases hsettings : settingsAt read s p with
    | ok entries => exact absurd ((settingsAt_eq_ok_iff hread).1 hsettings) (haccepts entries)
    | error r =>
      cases r with
      | outOfRange => exact absurd (settingsAt_eq_outOfRange_iff.1 hsettings) hbreaks.2
      | file | unreadable | notMapping | badTags => rfl

lemma not_breaks_of_accepts (h : Accepts read s p entries) : ¬Breaks read s p := by
  obtain ⟨bytes, v, hbytes, -, hv, -⟩ := h
  rintro (⟨e, hholds⟩ | ⟨other, hother, hrange⟩)
  · rw [holds_of_read hbytes] at hholds
    cases hholds
  · rw [hbytes] at hother
    cases hother
    rw [hv] at hrange
    cases hrange

lemma isBroken_cons_of_passes (h : Passes read s p) :
    IsBroken read s (p :: rest) ↔ IsBroken read s rest := by
  constructor
  · rintro ⟨before, q, after, hpaths, hbefore, hq⟩
    cases before with
    | nil =>
      cases hpaths
      exact absurd hq h.2
    | cons _ before =>
      cases hpaths
      exact ⟨before, q, after, rfl, (List.forall_mem_cons.1 hbefore).2, hq⟩
  · rintro ⟨before, q, after, rfl, hbefore, hq⟩
    exact ⟨p :: before, q, after, rfl, List.forall_mem_cons.2 ⟨h.1, hbefore⟩, hq⟩

lemma IsFirst.cons {found : Option Found} (h : IsFirst read s rest found)
    (hp : ∀ entries, ¬Accepts read s p entries) : IsFirst read s (p :: rest) found := by
  cases found with
  | none => exact List.forall_mem_cons.2 ⟨hp, h⟩
  | some f =>
    obtain ⟨before, after, rfl, hbefore, hf⟩ := h
    exact ⟨p :: before, after, rfl, List.forall_mem_cons.2 ⟨hp, hbefore⟩, hf⟩

/-- A search ends without a configuration, or with the first file that is accepted over the
defaults. -/
lemma firstOf_spec (hread : IsReader read) (s : Store) (paths : List Path) :
    (IsBroken read s paths ∧ ∃ e, (firstOf read s paths).1 = .error e) ∨
      (¬IsBroken read s paths ∧ ∃ found, IsFirst read s paths found ∧
        (firstOf read s paths).1 = .ok (ofFound found)) := by
  induction paths with
  | nil =>
    refine .inr ⟨?_, none, fun p hp => absurd hp List.not_mem_nil, rfl⟩
    rintro ⟨before, p, after, hpaths, -⟩
    exact absurd hpaths (by simp)
  | cons p rest ih =>
    -- A path is accepted, breaks the search or is passed, and only then the rest matters.
    by_cases haccepts : ∃ entries, Accepts read s p entries
    · obtain ⟨entries, haccepts⟩ := haccepts
      refine .inr ⟨?_, some (p, entries), ⟨[], rest, rfl, fun q hq => absurd hq List.not_mem_nil,
        haccepts⟩, firstOf_of_accepts hread haccepts⟩
      rintro ⟨before, q, after, hpaths, hbefore, hq⟩
      cases before with
      | nil =>
        cases hpaths
        exact not_breaks_of_accepts haccepts hq
      | cons _ before =>
        cases hpaths
        exact (List.forall_mem_cons.1 hbefore).1 entries haccepts
    · rw [not_exists] at haccepts
      by_cases hbreaks : Breaks read s p
      · exact .inl ⟨⟨[], p, rest, rfl, fun q hq => absurd hq List.not_mem_nil, hbreaks⟩,
          firstOf_of_breaks hbreaks⟩
      · have hpasses : Passes read s p := ⟨haccepts, hbreaks⟩
        rw [isBroken_cons_of_passes hpasses, firstOf_of_passes hread hpasses]
        obtain hbroken | ⟨hwhole, found, hfound, hfirst⟩ := ih
        · exact .inl hbroken
        · exact .inr ⟨hwhole, found, hfound.cons haccepts, hfirst⟩

lemma Accepts.keys (hread : IsReader read) (h : Accepts read s p entries) :
    entries.Pairwise fun a b => a.1.same b.1 = false := by
  obtain ⟨bytes, v, -, -, hv, hsettings⟩ := h
  cases hsettings with
  | empty => exact .nil
  | mapping => exact hread.keys bytes entries hv

/-! ### Two stores -/

lemma target_of_look {t : Target} (h : s.look p = .ok (some t)) : s.target p = .ok t := by
  unfold Store.look at h
  split at h
  · cases h
  · rename_i htarget
    cases h
    exact htarget
  · cases h
  · cases h

lemma read_of_look (h : s'.look p = s.look p) (hholds : s.holds p = .ok true) :
    s'.read p = s.read p := by
  rw [Store.holds] at hholds
  rcases hlook : s.look p with e | _ | t
  · rw [hlook] at hholds
    cases hholds
  · rw [hlook] at hholds
    cases hholds
  · rw [Store.read, Store.read, target_of_look hlook, target_of_look (h.trans hlook)]

lemma firstOf_congr (hread : IsReader read)
    (h : ∀ p ∈ paths, s'.look p = s.look p ∨ (Passes read s p ∧ s'.look p = .ok none)) :
    (firstOf read s' paths).1 = (firstOf read s paths).1 := by
  induction paths with
  | nil => rfl
  | cons p rest ih =>
    obtain ⟨hp, hrest⟩ := List.forall_mem_cons.1 h
    obtain hlook | ⟨hpasses, hnone⟩ := hp
    · have hholds : s'.holds p = s.holds p := by rw [Store.holds, Store.holds, hlook]
      rw [firstOf, firstOf, hholds]
      split
      · rfl
      · exact ih hrest
      · rename_i htrue
        rw [settingsAt, settingsAt, read_of_look hlook htrue]
        split
        · rfl
        · rfl
        · exact ih hrest
    · have hmissing : s'.holds p = .ok false := by
        rw [Store.holds, hnone]
        rfl
      rw [firstOf_of_passes hread hpasses, firstOf, hmissing]
      exact ih hrest

instance {ε α : Type} [DecidableEq ε] : (x : Except ε α) → (e : ε) → Decidable (x = .error e)
  | .error e', e => decidable_of_iff (e' = e) (by simp)
  | .ok _, _ => .isFalse nofun

/-- Whether the content of a settings file is passed over. -/
def IsRejected (read : Setting.Reader) (content : ByteArray) : Prop :=
  (∀ v, read content = .ok v → ∀ entries, ¬AreSettings v entries) ∧
    read content ≠ .error .outOfRange

lemma IsRejected.passes {l : Location} {content : ByteArray} (h : IsRejected read content)
    (hp : s.target p = .ok (.file l content)) : Passes read s p := by
  have hbytes : s.read p = .ok content := Store.read_eq_ok_iff.2 ⟨l, hp⟩
  constructor
  · rintro entries ⟨bytes, v, hread, -, hv, hsettings⟩
    cases hbytes.symm.trans hread
    exact h.1 v hv entries hsettings
  · rintro (⟨e, hholds⟩ | ⟨bytes, hread, hrange⟩)
    · rw [holds_of_read hbytes] at hholds
      cases hholds
    · cases hbytes.symm.trans hread
      exact h.2 hrange

/-! ### The configuration -/

lemma load_fst (read : Setting.Reader) (s : Store) (env : Environment) (path : Option String) :
    (load read s env path).1 =
      (firstOf read s (candidates env path)).1.map (·.underEnvironment env) := by
  unfold load
  split
  · rfl
  · rfl
  · rename_i given hne
    have hcandidates : candidates env (some given) = [Path.ofText given] := by
      unfold candidates
      split
      · contradiction
      · rename_i h
        exact absurd (Option.some.inj h) hne
      · rename_i h
        cases h
        rfl
    rw [hcandidates]
    split
    · rename_i hfirst
      rw [hfirst]
      rfl
    · rename_i hfirst
      rw [hfirst]
      rfl

lemma load_error_iff (hread : IsReader read) (s : Store) (env : Environment)
    (path : Option String) :
    (∃ e, (load read s env path).1 = .error e) ↔ IsBroken read s (candidates env path) := by
  rw [load_fst]
  obtain ⟨hbroken, e, he⟩ | ⟨hwhole, found, -, hfound⟩ := firstOf_spec hread s (candidates env path)
  · exact iff_of_true ⟨e, by rw [he]; rfl⟩ hbroken
  · refine iff_of_false ?_ hwhole
    rintro ⟨e, he⟩
    rw [hfound] at he
    cases he

/-- A configuration is that of the first file that is accepted, under the environment and the
command line, key by key; there is none just if a path of which there is no answer to whether
anything stands there, or a number out of range, is met before. Nothing else about a file that is
not accepted matters: without it the configuration is the same. -/
theorem load_eq_layered (hread : IsReader read) (s : Store) (env : Environment)
    (path : Option String) :
    ((∃ e, (load read s env path).1 = .error e) ↔ IsBroken read s (candidates env path)) ∧
    (¬IsBroken read s (candidates env path) → ∃ found c,
      IsFirst read s (candidates env path) found ∧ (load read s env path).1 = .ok c ∧
      ∀ ignoreComments indent, Command.Context.override c ignoreComments indent =
        layered ignoreComments indent env found) ∧
    (∀ s', (∀ p ∈ candidates env path,
        s'.look p = s.look p ∨ (Passes read s p ∧ s'.look p = .ok none)) →
      (load read s' env path).1 = (load read s env path).1) ∧
    ∀ l content, s.entry? l = some (.file content) → IsRejected read content →
      (load read (s.without l) env path).1 = (load read s env path).1 := by
  have hsame : ∀ s', (∀ p ∈ candidates env path,
      s'.look p = s.look p ∨ (Passes read s p ∧ s'.look p = .ok none)) →
      (load read s' env path).1 = (load read s env path).1 := by
    intro s' h
    rw [load_fst, load_fst, firstOf_congr hread h]
  refine ⟨load_error_iff hread s env path, ?_, hsame, fun l content hl hrejected =>
    hsame _ fun p _ => ?_⟩
  · intro hwhole
    rw [load_fst]
    obtain ⟨hbroken, -⟩ | ⟨-, found, hfirst, hfound⟩ := firstOf_spec hread s (candidates env path)
    · exact absurd hbroken hwhole
    · refine ⟨found, _, hfirst, by rw [hfound]; rfl, fun ignoreComments indent => ?_⟩
      refine override_underEnvironment ignoreComments indent env fun f hf => ?_
      cases hf
      obtain ⟨-, -, -, -, haccepts⟩ := hfirst
      exact haccepts.keys hread
  · obtain hlook | ⟨htarget, hnone⟩ := Store.look_without hl p
    · exact .inl hlook
    · exact .inr ⟨hrejected.passes htarget, hnone⟩

/-- A settings file whose tags are no list, beside a user's own. -/
def badTagsBesideHome : Store :=
  ⟨[], [(["jtml.yaml"], .file "self_terminating_tags: br\nindent: 2\n".toUTF8), (["u"], .folder),
    (["u", ".jtml"], .folder),
    (["u", ".jtml", "config.yaml"], .file "html_extension: htm\n".toUTF8)]⟩

theorem load_eq_layered_bad_tags :
    IsReader Yaml.read ∧
      IsRejected Yaml.read "self_terminating_tags: br\nindent: 2\n".toUTF8 ∧
      ¬IsBroken Yaml.read badTagsBesideHome (candidates ⟨"/u", none, some "yes"⟩ none) ∧
      (∃ found c,
        IsFirst Yaml.read badTagsBesideHome (candidates ⟨"/u", none, some "yes"⟩ none) found ∧
        (load Yaml.read badTagsBesideHome ⟨"/u", none, some "yes"⟩ none).1 = .ok c ∧
        ∀ ignoreComments indent, Command.Context.override c ignoreComments indent =
          layered ignoreComments indent ⟨"/u", none, some "yes"⟩ found) ∧
      (load Yaml.read (badTagsBesideHome.without ["jtml.yaml"]) ⟨"/u", none, some "yes"⟩ none).1 =
        (load Yaml.read badTagsBesideHome ⟨"/u", none, some "yes"⟩ none).1 := by
  have hrejected : IsRejected Yaml.read "self_terminating_tags: br\nindent: 2\n".toUTF8 := by
    have hbad : (match Yaml.read "self_terminating_tags: br\nindent: 2\n".toUTF8 with
        | .ok v => decide (settingsOf v = .error .badTags)
        | .error _ => false) = true := by
      decide +kernel
    split at hbad
    · rename_i v hv
      rw [IsRejected, hv]
      refine ⟨fun w hw entries hsettings => ?_, nofun⟩
      cases hw
      rw [settingsOf_eq_ok_iff.2 hsettings] at hbad
      cases hbad
    · cases hbad
  obtain ⟨hbroken, hlayered, -, hwithout⟩ :=
    load_eq_layered isReader_yaml badTagsBesideHome ⟨"/u", none, some "yes"⟩ none
  have hwhole :
      ¬IsBroken Yaml.read badTagsBesideHome (candidates ⟨"/u", none, some "yes"⟩ none) := by
    rw [← hbroken]
    rintro ⟨e, he⟩
    have hsome :
        (load Yaml.read badTagsBesideHome ⟨"/u", none, some "yes"⟩ none).1.toOption.isSome := by
      decide +kernel
    rw [he] at hsome
    cases hsome
  exact ⟨isReader_yaml, hrejected, hwhole, hlayered hwhole, hwithout ["jtml.yaml"] _ rfl hrejected⟩

def numberOutOfRange : Store :=
  ⟨[], [(["jtml.yaml"], .file "indent: \"\\UFFFFFFFF\"\n".toUTF8)]⟩

/-- A settings file with a number out of range is not accepted, and there is no configuration,
though there is one without the file. -/
theorem number_out_of_range_ends_search :
    (∀ entries, ¬Accepts Yaml.read numberOutOfRange (.ofText "jtml.yaml") entries) ∧
      (load Yaml.read numberOutOfRange ⟨"/", none, none⟩ none).1 = .error .outOfRange ∧
      (load Yaml.read (numberOutOfRange.without ["jtml.yaml"]) ⟨"/", none, none⟩ none).1 =
        .ok {} := by
  have hrange : Yaml.read "indent: \"\\UFFFFFFFF\"\n".toUTF8 = .error .outOfRange := by
    decide +kernel
  refine ⟨?_, by decide +kernel, rfl⟩
  rintro entries ⟨bytes, v, hread, -, hv, -⟩
  cases hread
  rw [hrange] at hv
  cases hv

end TagCall.Config
