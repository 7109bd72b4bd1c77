import Vernacular.File.Tree

/-!
# What writing changes

A path that can be written to leads to one place, and only the content of that place changes.  The
path leads there again afterwards, so that what was written is what is read.
-/

namespace Vernacular.File.Tree

variable {t changed : Tree} {path : Path} {content : List UInt8} {place other : List String}

/-! ## Places -/

/-- A file may be put at a place: there is one already, or there is nothing. -/
def Spot.Holds (place : List String) (spot : Spot) : Prop :=
  spot = .free place ∨ ∃ content, spot = .file place content

/-- Where writing to a path puts the content. -/
def LeadsTo (t : Tree) (path : Path) (place : List String) : Prop :=
  path.hasNull = false ∧ (t.find path).Holds place

theorem create_eq_ok_iff {opened : Tree} :
    t.create path = .ok (place, opened) ↔ t.LeadsTo path place ∧ opened = t.put place [] := by
  unfold create LeadsTo Spot.Holds
  split
  · next hnull => simp [hnull]
  · next hnull =>
    cases t.find path with
    | file found content =>
      simp only [hnull, Except.ok.injEq, Prod.mk.injEq, Spot.file.injEq, reduceCtorEq, false_or,
        true_and, exists_and_left, exists_eq', and_true, eq_comm (a := opened)]
      exact and_congr_right fun heq => by rw [heq]
    | free found =>
      simp only [hnull, Except.ok.injEq, Prod.mk.injEq, Spot.free.injEq, reduceCtorEq, exists_false,
        or_false, true_and, eq_comm (a := opened)]
      exact and_congr_right fun heq => by rw [heq]
    | directory => simp
    | trouble found => simp

/-! ## One place changes -/

theorem lookup_filter_of_ne {files : List (List String × List UInt8)} (h : other ≠ place) :
    (files.filter fun file => file.1 ≠ place).lookup other = files.lookup other := by
  induction files with
  | nil => rfl
  | cons file rest ih =>
    obtain ⟨key, held⟩ := file
    by_cases hkey : key = place
    · subst hkey
      rw [List.filter_cons_of_neg (by simp), ih, List.lookup_cons, beq_eq_false_iff_ne.mpr h]
    · rw [List.filter_cons_of_pos (by simpa using hkey), List.lookup_cons, List.lookup_cons, ih]

@[simp] theorem file?_put_self (t : Tree) (place : List String) (content : List UInt8) :
    (t.put place content).file? place = some content := by
  simp [put, file?]

theorem file?_put_of_ne (t : Tree) (content : List UInt8) (h : other ≠ place) :
    (t.put place content).file? other = t.file? other := by
  rw [file?, put, List.lookup_cons, beq_eq_false_iff_ne.mpr h]
  exact lookup_filter_of_ne h

theorem isDirectory_eq_true_iff :
    t.isDirectory other = true ↔
      other = [] ∨ ∃ file ∈ t.files, other <+: file.1 ∧ other ≠ file.1 := by
  simp [isDirectory, List.isPrefixOf_iff_prefix]

/-- Directories stay where they are. -/
theorem isDirectory_put (content : List UInt8) (h : t.isDirectory other = true) :
    (t.put place content).isDirectory other = true := by
  rw [isDirectory_eq_true_iff] at h ⊢
  refine h.imp_right ?_
  rintro ⟨file, hfile, hbelow⟩
  by_cases hplace : file.1 = place
  · exact ⟨(place, content), List.mem_cons_self, hplace ▸ hbelow⟩
  · refine ⟨file, List.mem_cons_of_mem _ ?_, hbelow⟩
    exact List.mem_filter.mpr ⟨hfile, by simpa using hplace⟩

/-! ## Walking again -/

variable {here : Option (List String)} {parts : List String}

/-- A walk that ends at a place goes through no directory there. -/
theorem Spot.Holds.ne_of_isDirectory (h : Spot.Holds place (t.walk here parts))
    (hfile : t.file? other = none) (hdirectory : t.isDirectory other = true) : other ≠ place := by
  rintro rfl
  -- The walk ends at a place in two cases only: there is a file, or nothing yet.
  fun_induction walk t here parts with
  | case1 here => simp [Spot.Holds] at h
  | case2 rest ih => exact ih h
  | case3 part rest hpart => simp [Spot.Holds] at h
  | case4 here rest ih => exact ih h
  | case5 here part hpart content hfound =>
    obtain ⟨_, hspot⟩ := h.resolve_left nofun
    obtain ⟨rfl, -⟩ := Spot.file.inj hspot
    simp [hfound] at hfile
  | case6 here part rest hpart content hfound hrest => simp [Spot.Holds] at h
  | case7 here part rest hpart hfound hbelow ih => exact ih h
  | case8 here part hpart hfound hbelow =>
    obtain rfl := Spot.free.inj (h.resolve_right nofun)
    exact hbelow hdirectory
  | case9 here part rest hpart hfound hbelow hrest => simp [Spot.Holds] at h

/-- The same steps lead to the place once there is a file. -/
theorem walk_put (content : List UInt8) (h : Spot.Holds place (t.walk here parts)) :
    (t.put place content).walk here parts = .file place content := by
  fun_induction walk t here parts with
  | case1 here => simp [Spot.Holds] at h
  | case2 rest ih =>
    rw [walk, if_pos rfl]
    exact ih h
  | case3 part rest hpart => simp [Spot.Holds] at h
  | case4 here rest ih =>
    rw [walk, if_pos rfl]
    exact ih h
  | case5 here part hpart held hfound =>
    obtain ⟨_, hspot⟩ := h.resolve_left nofun
    obtain ⟨rfl, -⟩ := Spot.file.inj hspot
    rw [walk, if_neg hpart, file?_put_self]
    rfl
  | case6 here part rest hpart held hfound hrest => simp [Spot.Holds] at h
  | case7 here part rest hpart hfound hbelow ih =>
    have hne := h.ne_of_isDirectory hfound hbelow
    have hstill : (t.put place content).file? (here ++ [part]) = none := by
      rw [file?_put_of_ne t content hne, hfound]
    rw [walk, if_neg hpart, hstill]
    simp only [isDirectory_put content hbelow, if_true]
    exact ih h
  | case8 here part hpart hfound hbelow =>
    obtain rfl := Spot.free.inj (h.resolve_right nofun)
    rw [walk, if_neg hpart, file?_put_self]
    rfl
  | case9 here part rest hpart hfound hbelow hrest => simp [Spot.Holds] at h

/-- What was written to a path is what is read from it. -/
theorem read_put (content : List UInt8) (h : t.LeadsTo path place) :
    (t.put place content).read path = .ok content := by
  rw [read, h.1, find, walk_put content h.2]
  rfl

/-- Opening a file for writing leaves no trace once it is written. -/
theorem put_put (t : Tree) (place : List String) (content more : List UInt8) :
    (t.put place content).put place more = t.put place more := by
  simp [put, List.filter_filter]

end Vernacular.File.Tree
