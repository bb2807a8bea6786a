import LabelPress.Files.Tree
import LabelPress.Proofs.Association
import LabelPress.Proofs.Label.Step
import Mathlib.Tactic.SplitIfs

/-!
# What a written file holds

A path leads to the same place in a tree with the same folders or more of them (`FileTree.locate_mono`).
So a path leads where it led before when a file has been written: there the file holds what was written
(`FileTree.read_write`). All other files hold what they held (`FileTree.read_write_of_ne`), also when
folders have been made, which only come where nothing was (`FileTree.Grown.read`).
-/

namespace LabelPress.FileTree

variable {t u v : FileTree} {p r : Path} {c d : Contents} {folder place : Place} {name : String}
  {rest : List String}

/-! ## Places -/

/-- A folder is one that was made, or one on the way to the working directory. -/
theorem isFolder_iff {q : Place} : t.isFolder q = true ↔ q <+: t.here ∨ q ∈ t.folders := by
  simp [isFolder]

/-- A walk that goes on: it goes back, or it ends, or it goes into a folder. -/
theorem walk_cons_eq_ok_iff :
    t.walk folder (name :: rest) = .ok place ↔
      (name = ".." ∧ t.walk folder.dropLast rest = .ok place) ∨
        name ≠ ".." ∧ ¬ 255 < nameSize name ∧
          ((rest = [] ∧ folder ++ [name] = place) ∨
            rest ≠ [] ∧ t.isFolder (folder ++ [name]) = true ∧
              t.walk (folder ++ [name]) rest = .ok place) := by
  rw [walk]
  by_cases hup : name = ".."
  · simp [hup]
  · by_cases hlong : 255 < nameSize name
    · simp [hup, hlong]
    · by_cases hlast : rest = []
      · simp [hup, hlong, hlast]
      · by_cases hfolder : t.isFolder (folder ++ [name]) = true
        · simp [hup, hlong, hlast, hfolder]
        · cases hfile : (t.file? (folder ++ [name])).isSome <;>
            simp [hup, hlong, hlast, hfolder, hfile]

/-- A walk looks at folders only, and there may be more of them. -/
theorem walk_mono (h : ∀ q, t.isFolder q = true → u.isFolder q = true) {names : List String}
    (hwalk : t.walk folder names = .ok place) : u.walk folder names = .ok place := by
  induction names generalizing folder with
  | nil => exact hwalk
  | cons name rest ih =>
    rw [walk_cons_eq_ok_iff] at hwalk ⊢
    refine hwalk.imp (And.imp_right ih) (And.imp_right (And.imp_right (Or.imp_right ?_)))
    rintro ⟨hrest, hfolder, hwalk⟩
    exact ⟨hrest, h _ hfolder, ih hwalk⟩

/-- A walk leads to a folder, or to its last name. -/
theorem isFolder_or_getLast?_of_walk (hfolder : ∀ q, q <+: folder → t.isFolder q = true)
    {names : List String} (hwalk : t.walk folder names = .ok place) :
    t.isFolder place = true ∨ place.getLast? = names.getLast? := by
  induction names generalizing folder with
  | nil =>
    cases hwalk
    exact .inl (hfolder _ List.prefix_rfl)
  | cons name rest ih =>
    -- behind a folder on the way the walk ends as its rest ends
    have hbehind {next : Place} (hnext : ∀ q, q <+: next → t.isFolder q = true)
        (h : t.walk next rest = .ok place) :
        t.isFolder place = true ∨ place.getLast? = (name :: rest).getLast? := by
      cases rest with
      | nil =>
        cases h
        exact .inl (hnext _ List.prefix_rfl)
      | cons other rest =>
        rw [List.getLast?_cons_cons]
        exact ih hnext h
    rcases walk_cons_eq_ok_iff.1 hwalk with ⟨-, h⟩ | ⟨-, -, ⟨rfl, rfl⟩ | ⟨-, hname, h⟩⟩
    · exact hbehind (fun q hq => hfolder q (hq.trans (List.dropLast_prefix folder))) h
    · exact .inr (by simp)
    · refine hbehind (fun q hq => ?_) h
      rcases List.prefix_concat_iff.1 hq with rfl | hq
      · exact hname
      · exact hfolder q hq

/-- A path can be located if it can be walked along. -/
theorem walk_of_locate (h : t.locate p = .ok place) :
    t.walk (if p.root = "" then t.here else []) p.parts = .ok place := by
  unfold locate at h
  split at h
  · cases h
  · split at h
    · cases h
    · split at h
      · next hwalk =>
        cases h
        exact hwalk
      · cases h

/-- A path leads to the same place if no folder was lost. -/
theorem locate_mono (hhere : u.here = t.here) (h : ∀ q, t.isFolder q = true → u.isFolder q = true)
    (hplace : t.locate p = .ok place) : u.locate p = .ok place := by
  have hwalk := walk_mono h (walk_of_locate hplace)
  unfold locate at hplace ⊢
  split at hplace
  · cases hplace
  · next hnul =>
    split at hplace
    · cases hplace
    · next hlong => rw [if_neg hnul, if_neg hlong, hhere, hwalk]

/-- A place that is no folder has the last name of the path that leads there. -/
theorem getLast?_of_locate (h : t.locate p = .ok place) (hplace : t.isFolder place = false) :
    place.getLast? = p.parts.getLast? := by
  have hstart : ∀ q, q <+: (if p.root = "" then t.here else []) → t.isFolder q = true := by
    intro q hq
    have hhere : q <+: t.here := by
      split_ifs at hq
      · exact hq
      · exact hq.trans List.nil_prefix
    exact isFolder_iff.2 (.inl hhere)
  refine (isFolder_or_getLast?_of_walk hstart (walk_of_locate h)).resolve_left ?_
  simp [hplace]

/-! ## Reading and writing -/

/-- A file is read where its path leads, unless a folder is there. -/
theorem read_eq_ok_iff :
    t.read p = .ok c ↔
      ∃ place, t.locate p = .ok place ∧ t.isFolder place = false ∧ t.file? place = some c := by
  unfold read
  rw [Except.bind_eq_ok]
  refine exists_congr fun place => and_congr_right fun _ => ?_
  cases hfolder : t.isFolder place
  · cases hfile : t.file? place with
    | none => simp
    | some e => simp [pure, Except.pure]
  · simp

/-- A file is written where its path leads, unless a folder is there, and nothing else is
changed. -/
theorem write_eq_ok_iff :
    t.write p c = .ok u ↔
      ∃ place, t.locate p = .ok place ∧ t.isFolder place = false ∧
        { t with files := setFile t.files place c } = u := by
  unfold write
  rw [Except.bind_eq_ok]
  refine exists_congr fun place => and_congr_right fun _ => ?_
  cases hfolder : t.isFolder place
  · simp [pure, Except.pure]
  · simp

/-- What has been written can be read. -/
theorem read_write (h : t.write p c = .ok u) : u.read p = .ok c := by
  obtain ⟨place, hplace, hfolder, rfl⟩ := write_eq_ok_iff.1 h
  exact read_eq_ok_iff.2 ⟨place, locate_mono (t := t) rfl (fun _ => id) hplace, hfolder,
    Association.get?_set_self t.files place c⟩

/-- What is elsewhere can be read as before. -/
theorem read_write_of_ne (h : t.write p c = .ok u) (hread : t.read r = .ok d)
    (hne : t.locate r ≠ t.locate p) : u.read r = .ok d := by
  obtain ⟨place, hplace, -, rfl⟩ := write_eq_ok_iff.1 h
  obtain ⟨other, hother, hfolder, hfile⟩ := read_eq_ok_iff.1 hread
  have hplaces : place ≠ other := fun heq => hne (by rw [hother, hplace, heq])
  refine read_eq_ok_iff.2 ⟨other, locate_mono (t := t) rfl (fun _ => id) hother, hfolder, ?_⟩
  exact (Association.get?_set_of_ne hplaces t.files c).trans hfile

/-- Names tell files apart: what is behind another name can be read as before. -/
theorem read_write_of_name (h : t.write p c = .ok u) (hread : t.read r = .ok d)
    (hne : r.parts.getLast? ≠ p.parts.getLast?) : u.read r = .ok d := by
  refine read_write_of_ne h hread fun hplaces => hne ?_
  obtain ⟨place, hplace, hfolder, -⟩ := write_eq_ok_iff.1 h
  rw [← getLast?_of_locate hplace hfolder, getLast?_of_locate (hplaces.trans hplace) hfolder]

/-! ## Making folders -/

/-- The tree has become another one by folders alone, which were made where there was nothing. -/
structure Grown (t u : FileTree) : Prop where
  here : u.here = t.here
  files : u.files = t.files
  kept : ∀ q, t.isFolder q = true → u.isFolder q = true
  fresh : ∀ q, u.isFolder q = true → t.isFolder q = true ∨ t.file? q = none

theorem Grown.refl (t : FileTree) : Grown t t := ⟨rfl, rfl, fun _ => id, fun _ => .inl⟩

theorem Grown.trans (h : Grown t u) (h' : Grown u v) : Grown t v where
  here := h'.here.trans h.here
  files := h'.files.trans h.files
  kept q hq := h'.kept q (h.kept q hq)
  fresh q hq := by
    rcases h'.fresh q hq with hq | hq
    · exact h.fresh q hq
    · refine .inr ?_
      unfold file? at hq ⊢
      rwa [h.files] at hq

theorem Grown.locate (h : Grown t u) (hplace : t.locate p = .ok place) : u.locate p = .ok place :=
  locate_mono h.here h.kept hplace

/-- A file is not affected by new folders. -/
theorem Grown.read (h : Grown t u) (hread : t.read p = .ok c) : u.read p = .ok c := by
  obtain ⟨place, hplace, hfolder, hfile⟩ := read_eq_ok_iff.1 hread
  refine read_eq_ok_iff.2 ⟨place, h.locate hplace, ?_, ?_⟩
  · rw [← Bool.not_eq_true]
    intro hnew
    rcases h.fresh place hnew with hold | hnone
    · simp [hfolder] at hold
    · simp [hfile] at hnone
  · unfold file? at hfile ⊢
    rwa [h.files]

/-- To make a folder adds it and loses nothing. -/
theorem grown_makeFolder (h : t.makeFolder p = .ok u) : Grown t u := by
  obtain ⟨place, -, h⟩ := Except.bind_eq_ok.1 h
  split at h
  · cases h
  · next hnone =>
    rw [Bool.or_eq_true, not_or] at hnone
    cases h
    refine ⟨rfl, rfl, fun q hq => ?_, fun q hq => ?_⟩
    · rw [isFolder_iff] at hq ⊢
      exact hq.imp_right (List.mem_append_left _)
    · rw [isFolder_iff, List.mem_append, List.mem_singleton] at hq
      rcases hq with hq | hq | rfl
      · exact .inl (isFolder_iff.2 (.inl hq))
      · exact .inl (isFolder_iff.2 (.inr hq))
      · exact .inr (by simpa using hnone.2)

theorem grown_ensureFolder (h : t.ensureFolder p = .ok u) : Grown t u := by
  unfold ensureFolder at h
  split at h
  · next hmake =>
    cases h
    exact grown_makeFolder hmake
  · split at h <;> cases h
    exact .refl t

/-- Folders on the way are made one after the other. -/
theorem grown_ensureFolders (h : t.ensureFolders p = .ok u) : Grown t u := by
  -- induction on the length of the path, for a missing parent is made first
  induction hn : p.parts.length using Nat.strongRecOn generalizing t u p with
  | _ n ih =>
    rw [ensureFolders] at h
    split at h
    · next hmake =>
      cases h
      exact grown_makeFolder hmake
    · split at h
      · cases h
      · next hparts =>
        obtain ⟨v, hparent, hfolder⟩ := Except.bind_eq_ok.1 h
        have hshorter := p.length_parts_parent hparts
        exact (ih _ (hn ▸ hshorter) hparent rfl).trans (grown_ensureFolder hfolder)
    · split at h <;> cases h
      exact .refl t

end LabelPress.FileTree
