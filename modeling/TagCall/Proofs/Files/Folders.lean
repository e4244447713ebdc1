import TagCall.Proofs.Files.Path
import TagCall.Proofs.Files.Store

/-!
# Stores with the same folders

A write makes no folder, and neither does taking a file away. So a path leads to the same location
before and after, or can be followed neither before nor after, and what is read there changes only
if the entry at that location does (`SameFolders.read_iff`).
-/

namespace TagCall.Files

def Target.location : Target → Location
  | .folder l | .file l _ | .vacant l => l

namespace Store

variable {s s' s'' : Store} {l : Location} {c : ByteArray} {p : Path}

/-! ### Following names -/

/-- What stands at a location that no folder has. -/
def standing (s : Store) (l : Location) : Target :=
  match s.entry? l with
  | some (.file c) => .file l c
  | _ => .vacant l

lemma standing_cases (s : Store) (l : Location) :
    (∃ c, s.standing l = .file l c) ∨ s.standing l = .vacant l := by
  unfold standing
  split
  · exact .inl ⟨_, rfl⟩
  · exact .inr rfl

lemma location_standing (s : Store) (l : Location) : (s.standing l).location = l := by
  obtain ⟨c, h⟩ | h := s.standing_cases l
  · rw [h, Target.location]
  · rw [h, Target.location]

/-- What stands in the way of going on from a location that no folder has. -/
def obstacle (s : Store) (l : Location) : Fault :=
  if s.entry? l = none then .missing else .notFolder

lemma obstacle_ne_tooLong (s : Store) (l : Location) : s.obstacle l ≠ .tooLong := by
  unfold obstacle
  split <;> simp

lemma follow_cons_of_name {here : Location} {name : String} (rest : List String)
    (hstay : ¬(name = "" ∨ name = ".")) (hup : name ≠ "..")
    (hshort : ¬maxName < name.utf8ByteSize) :
    s.follow here (name :: rest) =
      if s.entry? (here ++ [name]) = some .folder then s.follow (here ++ [name]) rest
      else if rest = [] then .ok (s.standing (here ++ [name]))
      else .error (s.obstacle (here ++ [name])) := by
  rw [follow, if_neg hstay, if_neg hup, if_neg hshort, standing, obstacle]
  rcases hentry : s.entry? (here ++ [name]) with _ | _ | c <;> cases rest <;> simp [hentry]

/-! ### One path in two stores -/

structure SameFolders (s s' : Store) : Prop where
  base : s'.base = s.base
  folders : ∀ l, s'.entry? l = some .folder ↔ s.entry? l = some .folder

/-- What one path leads to in two stores with the same folders. A path that breaks off does so in
both, but it may meet a file in one and nothing in the other. -/
inductive Alike (s s' : Store) : Except Error Target → Except Error Target → Prop
  | folder (l : Location) : Alike s s' (.ok (.folder l)) (.ok (.folder l))
  | place (l : Location) : Alike s s' (.ok (s.standing l)) (.ok (s'.standing l))
  | refused (e : Error) : Alike s s' (.error e) (.error e)
  | broken (l : Location) (path : String) :
      Alike s s' (.error (.fault (s.obstacle l) path)) (.error (.fault (s'.obstacle l) path))

def Leads (s : Store) (p : Path) (l : Location) : Prop :=
  ∃ t, s.target p = .ok t ∧ t.location = l

/-- Whether a folder stands at a path. There is no answer just if the path is too long, which is so
by the faults that a store has. -/
lemma isFolder_eq (s : Store) (p : Path) :
    s.isFolder p =
      match s.target p with
      | .ok (.folder _) => .ok true
      | .error (.fault .tooLong path) => .error (.fault .tooLong path)
      | _ => .ok false := by
  unfold isFolder look
  rcases s.target p with (⟨f, path⟩ | _) | (l | ⟨l, c⟩ | l)
  · cases f <;> rfl
  all_goals rfl

lemma isFolder_of_tooLong {path : String} (h : s.target p = .error (.fault .tooLong path)) :
    s.isFolder p = .error (.fault .tooLong path) := by
  rw [isFolder_eq, h]

lemma read_of_error {e : Error} (h : s.target p = .error e) : s.read p = .error e := by
  rw [read, h, content]

/-- A name that is too long is refused, whatever is stored. -/
lemma target_of_overlong {name : String} (hslash : '/' ∉ name.toList)
    (hnull : '\x00' ∉ name.toList) (hname : maxName < name.utf8ByteSize)
    (hpath : name.utf8ByteSize ≤ maxPath) (s : Store) :
    s.target (.ofText name) = .error (.fault .tooLong name) := by
  have hne : ∀ short : String, short.utf8ByteSize ≤ maxName → name ≠ short := by
    rintro _ hshort rfl
    omega
  have hempty := hne "" (by decide)
  have hpoint := hne "." (by decide)
  rw [Path.ofText_of_name hslash hempty hpoint, target, Path.toText_of_name, locate, if_neg hnull,
    if_neg hempty, if_neg (Nat.not_lt.2 hpath), follow, if_neg (not_or.2 ⟨hempty, hpoint⟩),
    if_neg (hne ".." (by decide)), if_pos hname]
  rfl

/-- Only a folder with folders above it is reached as one. -/
lemma follow_folder {here : Location} {names : List String}
    (hhere : ∀ m, m <+: here → s.entry? m = some .folder)
    (h : s.follow here names = .ok (.folder l)) : s.entry? l = some .folder := by
  fun_induction follow s here names with
  | case1 here =>
    cases h
    exact hhere _ (List.prefix_refl _)
  | case2 here name rest hstay ih => exact ih hhere h
  | case3 here rest hstay ih =>
    exact ih (fun m hm => hhere m (hm.trans (List.dropLast_prefix here))) h
  | case5 here name rest hstay hup hlong next hentry ih =>
    refine ih (fun m hm => ?_) h
    obtain rfl | hm := List.prefix_concat_iff.1 hm
    · exact hentry
    · exact hhere m hm
  | case4 | case6 | case7 | case8 | case9 => cases h

lemma entry?_start (hasRoot : Bool) :
    ∀ m, m <+: s.start hasRoot → s.entry? m = some .folder := by
  intro m hm
  have hbase : m.isPrefixOf s.base := by
    rw [List.isPrefixOf_iff_prefix]
    cases hasRoot with
    | false => exact hm
    | true =>
      obtain rfl := List.prefix_nil.1 hm
      exact List.nil_prefix
  unfold entry?
  rw [if_pos hbase]

/-- A path reads what stands at the location it leads to. -/
lemma read_eq_ok_iff_leads :
    s.read p = .ok c ↔ ∃ l, s.Leads p l ∧ s.entry? l = some (.file c) := by
  rw [read_eq_ok_iff]
  apply exists_congr
  intro l
  constructor
  · intro h
    exact ⟨⟨_, h, rfl⟩, follow_file (locate_eq_ok_iff.1 h).2⟩
  · rintro ⟨⟨t, ht, rfl⟩, hentry⟩
    have hfollow := (locate_eq_ok_iff.1 ht).2
    cases t with
    | folder m =>
      have hfolder := follow_folder (entry?_start _) hfollow
      rw [Target.location, hfolder] at hentry
      cases hentry
    | file m old =>
      have hfile := follow_file hfollow
      rw [Target.location, hfile] at hentry
      cases hentry
      exact ht
    | vacant m =>
      have hvacant := follow_vacant hfollow
      rw [Target.location, hvacant] at hentry
      cases hentry

namespace SameFolders

lemma refl (s : Store) : SameFolders s s :=
  ⟨rfl, fun _ => Iff.rfl⟩

lemma trans (h : SameFolders s s') (h' : SameFolders s' s'') : SameFolders s s'' :=
  ⟨h'.base.trans h.base, fun l => (h'.folders l).trans (h.folders l)⟩

lemma follow (h : SameFolders s s') (path : String) (here : Location) (names : List String) :
    Alike s s' ((s.follow here names).mapError (.fault · path))
      ((s'.follow here names).mapError (.fault · path)) := by
  induction names generalizing here with
  | nil => exact .folder here
  | cons name rest ih =>
    by_cases hstay : name = "" ∨ name = "."
    · rw [Store.follow, Store.follow, if_pos hstay, if_pos hstay]
      exact ih here
    · by_cases hup : name = ".."
      · rw [Store.follow, Store.follow, if_neg hstay, if_neg hstay, if_pos hup, if_pos hup]
        exact ih here.dropLast
      · by_cases hlong : maxName < name.utf8ByteSize
        · rw [Store.follow, Store.follow, if_neg hstay, if_neg hstay, if_neg hup, if_neg hup,
            if_pos hlong, if_pos hlong]
          exact .refused _
        · rw [follow_cons_of_name rest hstay hup hlong, follow_cons_of_name rest hstay hup hlong]
          -- Without a folder there the stores may differ in whether there is a file.
          by_cases hfolder : s.entry? (here ++ [name]) = some .folder
          · rw [if_pos hfolder, if_pos ((h.folders _).2 hfolder)]
            exact ih (here ++ [name])
          · rw [if_neg hfolder, if_neg fun hnew => hfolder ((h.folders _).1 hnew)]
            split
            · exact .place _
            · exact .broken _ path

lemma target (h : SameFolders s s') (p : Path) : Alike s s' (s.target p) (s'.target p) := by
  have hstart : s'.start (p.root ≠ "") = s.start (p.root ≠ "") := by rw [start, start, h.base]
  unfold Store.target locate
  rw [hstart]
  split
  · exact .refused _
  · split
    · exact .refused _
    · split
      · exact .refused _
      · exact h.follow _ _ _

lemma isFolder (h : SameFolders s s') (p : Path) : s'.isFolder p = s.isFolder p := by
  have htarget := h.target p
  rw [isFolder_eq, isFolder_eq]
  generalize s.target p = t at htarget
  generalize s'.target p = t' at htarget
  cases htarget with
  | folder l => rfl
  | place l =>
    obtain ⟨c, hold⟩ | hold := s.standing_cases l <;>
      obtain ⟨c', hnew⟩ | hnew := s'.standing_cases l <;> rw [hold, hnew]
  | refused e => rfl
  | broken l path => simp [obstacle_ne_tooLong]

lemma leads_iff (h : SameFolders s s') : s'.Leads p l ↔ s.Leads p l := by
  have htarget := h.target p
  unfold Leads
  generalize s.target p = t at htarget
  generalize s'.target p = t' at htarget
  cases htarget with
  | folder m => rfl
  | place m => simp [location_standing]
  | refused e => rfl
  | broken m path => simp

/-- A path reads alike in both where the entries are alike at the location it leads to. -/
lemma read_iff (h : SameFolders s s') (hentry : ∀ l, s.Leads p l → s'.entry? l = s.entry? l) :
    s'.read p = .ok c ↔ s.read p = .ok c := by
  rw [read_eq_ok_iff_leads, read_eq_ok_iff_leads]
  apply exists_congr
  intro l
  rw [h.leads_iff]
  exact and_congr_right fun hl => by rw [hentry l hl]

end SameFolders

/-! ### After a write -/

lemma sameFolders_put (hl : s.entry? l ≠ some .folder) : SameFolders s (s.put l (.file c)) where
  base := rfl
  folders m := by
    rw [entry?_put m _ hl]
    by_cases hm : m = l
    · simp [hm, hl]
    · rw [if_neg hm]

/-- A write puts a file at the location its path leads to, and nothing anywhere else. -/
lemma write_spec (h : s.write p c = .ok s') :
    SameFolders s s' ∧ ∃ l, s.Leads p l ∧
      ∀ m, s'.entry? m = if m = l then some (.file c) else s.entry? m := by
  obtain ⟨l, t, htarget, hafter, hl, rfl⟩ := put_of_write h
  refine ⟨sameFolders_put hl, l, ⟨t, htarget, ?_⟩, fun m => entry?_put m _ hl⟩
  cases t with
  | folder m => cases hafter
  | file m old | vacant m =>
    rw [Target.after] at hafter
    split at hafter <;> simp_all [Target.location]

lemma Leads.unique {m : Location} (h : s.Leads p l) (h' : s.Leads p m) : l = m := by
  obtain ⟨t, ht, rfl⟩ := h
  obtain ⟨t', ht', rfl⟩ := h'
  rw [ht] at ht'
  cases ht'
  rfl

/-! ### Without a file -/

def without (s : Store) (l : Location) : Store :=
  { s with entries := s.entries.filter (·.1 ≠ l) }

lemma entry?_without (hl : s.entry? l = some (.file c)) (m : Location) :
    Store.entry? (s.without l) m = if m = l then none else s.entry? m := by
  have hbase : ¬l.isPrefixOf s.base := by
    intro h
    unfold entry? at hl
    rw [if_pos h] at hl
    cases hl
  by_cases hm : m = l
  · simp [Store.entry?, without, hm, hbase, List.find?_filter]
  · have hfind : ∀ e : Location × Entry,
        decide (decide (e.1 ≠ l) = true ∧ decide (e.1 = m) = true) = decide (e.1 = m) := by
      intro e
      by_cases he : e.1 = m
      · simp [he, hm]
      · simp [he]
    rw [if_neg hm, Store.entry?, Store.entry?, without, List.find?_filter]
    simp only [hfind]

lemma sameFolders_without (hl : s.entry? l = some (.file c)) : SameFolders s (s.without l) where
  base := rfl
  folders m := by
    rw [entry?_without hl]
    by_cases hm : m = l
    · simp [hm, hl]
    · rw [if_neg hm]

/-- Only a path that led to the file sees another thing without it, and that is nothing. -/
lemma look_without (hl : s.entry? l = some (.file c)) (p : Path) :
    (s.without l).look p = s.look p ∨
      (s.target p = .ok (.file l c) ∧ (s.without l).look p = .ok none) := by
  have htarget := (sameFolders_without hl).target p
  unfold look
  generalize s.target p = t at htarget
  generalize (s.without l).target p = t' at htarget
  cases htarget with
  | folder m | refused e => exact .inl rfl
  | place m =>
    have hstanding : (s.without l).standing m = if m = l then .vacant l else s.standing m := by
      unfold standing
      rw [entry?_without hl]
      by_cases hm : m = l
      · simp [hm]
      · simp [hm]
    rw [hstanding]
    by_cases hm : m = l
    · obtain rfl := hm
      rw [if_pos rfl, standing, hl]
      exact .inr ⟨rfl, rfl⟩
    · rw [if_neg hm]
      exact .inl rfl
  | broken m path => exact .inl (by simp [obstacle_ne_tooLong])

end Store

end TagCall.Files
