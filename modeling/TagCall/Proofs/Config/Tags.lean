import Mathlib.Tactic.ByContra
import TagCall.Proofs.Config.Layers

/-!
# The tags of a configuration

A configuration that was loaded has a list of tags, or null. Its members are judged only when they
are asked for: they have to be scalars to make a set, to have a common order to be shown, and to
have a written form to be written.
-/

namespace TagCall.Config

open Setting

variable {c : Config}

def HasTagList (c : Config) : Prop :=
  c.voidTags = .null ∨ ∃ items, c.voidTags = .sequence items

/-- Whether a member of the list of tags is a list or a mapping itself. -/
def HasNestedTag (c : Config) : Prop :=
  ∃ items v, c.voidTags = .sequence items ∧ v ∈ items ∧ ∀ s, v ≠ .scalar s

def HasUnorderedTags (c : Config) : Prop :=
  ∃ tags, c.tagSet = .ok tags ∧ ¬tags.Pairwise fun v w => (v.le? w).isSome

/-- Whether a tag is a time, or a whole number of too many digits. -/
def HasUnwritableTag (c : Config) : Prop :=
  ∃ tags v, c.tagSet = .ok tags ∧ v ∈ tags ∧ ((∃ t, v = .time t) ∨ v.isWritable = false)

lemma hasTagList_ofFound {read : Setting.Reader} {s : Files.Store} {paths : List Files.Path}
    {found : Option Found} (hread : IsReader read) (h : IsFirst read s paths found) :
    (ofFound found).HasTagList := by
  cases found with
  | none => exact .inr ⟨_, rfl⟩
  | some f =>
    obtain ⟨p, entries⟩ := f
    obtain ⟨-, -, -, -, haccepts⟩ := h
    have htags : (ofFound (some (p, entries))).voidTags =
        (Setting.entry? "self_terminating_tags" entries).getD ({} : Config).voidTags :=
      isKept_voidTags.overlay {} (haccepts.keys hread)
    obtain ⟨-, v, -, -, -, hsettings⟩ := haccepts
    rw [HasTagList, htags]
    cases hsettings with
    | empty h => exact .inr ⟨_, rfl⟩
    | mapping h =>
      cases htag : entry? "self_terminating_tags" entries with
      | none => exact .inr ⟨_, rfl⟩
      | some tags => exact h tags htag

lemma hasTagList_of_load {read : Setting.Reader} {s : Files.Store} {env : Environment}
    {path : Option String} {log : List Log.Line} (hread : IsReader read)
    (h : load read s env path = (.ok c, log)) : c.HasTagList := by
  have hfst := load_fst read s env path
  rw [h] at hfst
  obtain ⟨-, e, he⟩ | ⟨-, found, hfound, hok⟩ := firstOf_spec hread s (candidates env path)
  · rw [he] at hfst
    cases hfst
  · rw [hok] at hfst
    cases hfst
    have htags : ((ofFound found).underEnvironment env).voidTags = (ofFound found).voidTags := by
      unfold underEnvironment
      cases env.indent <;> cases env.ignoreComments <;> rfl
    rw [HasTagList, htags]
    exact hasTagList_ofFound hread hfound

lemma not_of_eq_ok {ε α : Type} {result : Except ε α} {a : α} {P : Prop}
    (hiff : (∃ e, result = .error e) ↔ P) (h : result = .ok a) : ¬P := by
  rw [← hiff, h]
  exact nofun

lemma scalars_error_iff {items : List Setting} :
    (∃ e, scalars items = .error e) ↔ ∃ v ∈ items, ∀ s, v ≠ .scalar s := by
  induction items with
  | nil => simp [scalars]
  | cons v rest ih =>
    cases v with
    | scalar s =>
      have hrest :
          (∃ e, scalars (.scalar s :: rest) = .error e) ↔ ∃ e, scalars rest = .error e := by
        rw [scalars]
        cases scalars rest <;> simp [Except.map]
      rw [hrest, ih]
      simp
    | sequence items | mapping entries => exact iff_of_true ⟨_, rfl⟩ ⟨_, List.mem_cons_self, nofun⟩

lemma tagSet_error_iff (h : c.HasTagList) : (∃ e, c.tagSet = .error e) ↔ c.HasNestedTag := by
  obtain h | ⟨items, h⟩ := h
  · simp [HasNestedTag, tagSet, h, Scalar.isTruthy]
  · have hscalars : (∃ e, c.tagSet = .error e) ↔ ∃ e, scalars items = .error e := by
      simp only [tagSet, h]
      cases scalars items <;> simp [Except.map]
    rw [hscalars, scalars_error_iff]
    simp [HasNestedTag, h]

lemma comparable_iff {tags : List Scalar} :
    comparable tags ↔ tags.Pairwise fun v w => (v.le? w).isSome := by
  induction tags with
  | nil => simp [comparable]
  | cons v rest ih => simp [comparable, ih]

lemma tagNames_error_iff (h : c.HasTagList) :
    (∃ e, c.tagNames = .error e) ↔ c.HasNestedTag := by
  rw [← tagSet_error_iff h, tagNames]
  cases c.tagSet <;> simp [Except.map]

lemma htmlOptions_error_iff (h : c.HasTagList) :
    (∃ e, c.htmlOptions = .error e) ↔ c.HasNestedTag := by
  rw [← tagNames_error_iff h, htmlOptions]
  cases c.tagNames <;> simp [Except.map]

lemma extensionOf_error_iff {v : Setting} :
    (∃ e, extensionOf v = .error e) ↔ v.isWritable = false := by
  unfold extensionOf plain
  cases v.isWritable with
  | false => exact iff_of_true ⟨⟨⟩, rfl⟩ rfl
  | true => exact iff_of_false nofun nofun

lemma isWritable_of_extensionOf {v : Setting} {extension : String}
    (h : extensionOf v = .ok extension) : v.isWritable = true :=
  Bool.not_eq_false _ |>.mp (not_of_eq_ok extensionOf_error_iff h)

lemma sortedTags_of_tagSet {tags : List Scalar} (h : c.tagSet = .ok tags) :
    c.sortedTags =
      if comparable tags then .ok (tags.mergeSort fun v w => (v.le? w).getD true)
      else .error .unordered := by
  rw [sortedTags, h]
  rfl

lemma sortedTags_error_iff (h : c.HasTagList) :
    (∃ e, c.sortedTags = .error e) ↔ c.HasNestedTag ∨ c.HasUnorderedTags := by
  rw [← tagSet_error_iff h, HasUnorderedTags]
  cases htags : c.tagSet with
  | error e =>
    refine iff_of_true ⟨e, ?_⟩ (.inl ⟨e, rfl⟩)
    rw [sortedTags, htags]
    rfl
  | ok tags =>
    rw [sortedTags_of_tagSet htags]
    by_cases hcomparable : comparable tags
    · simp [hcomparable, comparable_iff.1 hcomparable]
    · simp [hcomparable, ← comparable_iff]

lemma itemsFault?_eq_none_iff {items : List Json} :
    Json.itemsFault? items = none ↔ ∀ v ∈ items, Json.fault? v = none := by
  induction items with
  | nil => simp [Json.itemsFault?]
  | cons v rest ih => simp [Json.itemsFault?, ih]

lemma scalarFault?_eq_none_iff {v : Scalar} :
    Json.scalarFault? v = none ↔ (∀ t, v ≠ .time t) ∧ v.isWritable = true := by
  cases v <;> simp [Json.scalarFault?]

lemma fault?_toJson {unit : Indent} {tags : List Scalar} {html layout : String} {v : Json}
    (hunit : c.unit = .ok unit) (htags : c.sortedTags = .ok tags) (hhtml : c.htmlSuffix = .ok html)
    (hlayout : c.layoutSuffix = .ok layout) (h : c.toJson = .ok v) :
    v.fault? = none ↔ ∀ t ∈ tags, Json.scalarFault? t = none := by
  have hfile : Json.fault? ((c.file.map fun p => Json.text p.toText).getD .null) = none := by
    cases c.file <;> rfl
  rw [toJson, hunit, htags, hhtml, hlayout] at h
  cases h
  simp [Json.fault?, Json.fieldsFault?, hfile, itemsFault?_eq_none_iff, scalarFault?_eq_none_iff,
    Scalar.isWritable]

lemma mem_of_sortedTags {tags : List Scalar} (h : c.sortedTags = .ok tags) :
    ∃ set, c.tagSet = .ok set ∧ ∀ v, v ∈ tags ↔ v ∈ set := by
  cases hset : c.tagSet with
  | error e =>
    rw [sortedTags, hset] at h
    cases h
  | ok set =>
    rw [sortedTags_of_tagSet hset] at h
    split at h
    · cases h
      exact ⟨set, rfl, fun v => List.mem_mergeSort⟩
    · cases h

lemma hasUnwritableTag_iff {tags : List Scalar} (h : c.sortedTags = .ok tags) :
    c.HasUnwritableTag ↔ ¬∀ t ∈ tags, Json.scalarFault? t = none := by
  obtain ⟨set, hset, hmem⟩ := mem_of_sortedTags h
  simp only [HasUnwritableTag, hset, hmem, scalarFault?_eq_none_iff, Except.ok.injEq]
  constructor
  · rintro ⟨_, v, rfl, hv, hfault⟩ hall
    obtain ⟨htime, hwritable⟩ := hall v hv
    obtain ⟨t, ht⟩ | hlong := hfault
    · exact htime t ht
    · rw [hwritable] at hlong
      cases hlong
  · intro h
    by_contra hnone
    refine h fun v hv => ⟨fun t ht => hnone ⟨set, v, rfl, hv, .inl ⟨t, ht⟩⟩, ?_⟩
    by_contra hlong
    exact hnone ⟨set, v, rfl, hv, .inr (Bool.eq_false_iff.2 hlong)⟩

/-- What stands in the way of showing a configuration with a unit, other than an extension. -/
lemma toJson_fault_iff {unit : Indent} (hlist : c.HasTagList) (hunit : c.unit = .ok unit) :
    ((∃ e, c.toJson = .error (.tags e)) ∨ ∃ v, c.toJson = .ok v ∧ v.fault? ≠ none) ↔
      c.HasNestedTag ∨ c.HasUnorderedTags ∨
        (c.htmlExtension.isWritable = true ∧ c.layoutExtension.isWritable = true ∧
          c.HasUnwritableTag) := by
  rw [← or_assoc, ← sortedTags_error_iff hlist]
  cases htags : c.sortedTags with
  | error e =>
    refine iff_of_true (.inl ⟨e, ?_⟩) (.inl ⟨e, rfl⟩)
    rw [toJson, hunit, htags]
    rfl
  | ok tags =>
    cases hhtml : c.htmlSuffix with
    | error e =>
      have hjson : c.toJson = .error (.extension e) := by
        rw [toJson, hunit, htags, hhtml]
        rfl
      have hlong := extensionOf_error_iff.1 ⟨e, hhtml⟩
      simp [hjson, hlong]
    | ok html =>
      cases hlayout : c.layoutSuffix with
      | error e =>
        have hjson : c.toJson = .error (.extension e) := by
          rw [toJson, hunit, htags, hhtml, hlayout]
          rfl
        have hlong := extensionOf_error_iff.1 ⟨e, hlayout⟩
        simp [hjson, hlong]
      | ok layout =>
        have hjson : ∃ v, c.toJson = .ok v := by
          rw [toJson, hunit, htags, hhtml, hlayout]
          exact ⟨_, rfl⟩
        obtain ⟨v, hv⟩ := hjson
        have hfault := fault?_toJson hunit htags hhtml hlayout hv
        have hshort : c.htmlExtension.isWritable = true ∧ c.layoutExtension.isWritable = true :=
          ⟨isWritable_of_extensionOf hhtml, isWritable_of_extensionOf hlayout⟩
        simp [hv, hshort, hasUnwritableTag_iff htags, ← hfault]

end TagCall.Config
