import Vernacular.Proofs.Bimap.Pairs
import Vernacular.Proofs.Locale.Matching

/-!
# The closest name

A name may be like the wanted one in four ways, some closer than others.  What is picked is the last
of the available names that are closest, and nothing is picked only if no name is like the wanted
one in any way.  So names that become available later can only bring a closer one.
-/

namespace Vernacular

theorem findRev?_eq_some_iff {α : Type} {list : List α} {accepts : α → Bool} {found : α} :
    list.findRev? accepts = some found ↔
      accepts found = true ∧ ∃ earlier later, list = earlier ++ found :: later ∧
        ∀ other ∈ later, accepts other = false := by
  rw [List.findRev?_eq_find?_reverse, List.find?_eq_some_iff_append]
  refine and_congr_right fun _ => ⟨?_, ?_⟩
  · rintro ⟨later, earlier, hlist, hlater⟩
    refine ⟨earlier.reverse, later.reverse, ?_, by simpa using hlater⟩
    rw [← list.reverse_reverse, hlist]
    simp
  · rintro ⟨earlier, later, rfl, hlater⟩
    exact ⟨later.reverse, earlier.reverse, by simp, by simpa using hlater⟩

theorem findRev?_eq_none_iff {α : Type} {list : List α} {accepts : α → Bool} :
    list.findRev? accepts = none ↔ ∀ other ∈ list, accepts other = false := by
  rw [List.findRev?_eq_find?_reverse]
  simp

namespace LocaleName

/-! ## Ranks -/

/-- The place of the first way in which a name is like the wanted one, their number if none is. -/
def rank (ways : List (String → Bool)) (name : String) : Nat := ways.findIdx (fun way => way name)

/-- The last of those available names that have the least rank. -/
structure Closest (ways : List (String → Bool)) (names : List String) (found : String) : Prop where
  like : rank ways found < ways.length
  last : ∃ earlier later, names = earlier ++ found :: later ∧
    (∀ other ∈ earlier, rank ways found ≤ rank ways other) ∧
    ∀ other ∈ later, rank ways found < rank ways other

variable {ways : List (String → Bool)} {way : String → Bool} {names others : List String}
  {wanted found other : String}

theorem rank_lt_length_iff : rank ways found < ways.length ↔ ∃ way ∈ ways, way found = true := by
  rw [rank, List.findIdx_lt_length]

theorem rank_cons_of_true (h : way found = true) : rank (way :: ways) found = 0 := by
  simp [rank, List.findIdx_cons, h]

theorem rank_cons_of_false (h : way found = false) :
    rank (way :: ways) found = rank ways found + 1 := by
  simp [rank, List.findIdx_cons, h]

namespace Closest

theorem mem (h : Closest ways names found) : found ∈ names := by
  obtain ⟨earlier, later, rfl, -, -⟩ := h.last
  simp

theorem rank_le (h : Closest ways names found) (hother : other ∈ names) :
    rank ways found ≤ rank ways other := by
  obtain ⟨earlier, later, rfl, hearlier, hlater⟩ := h.last
  rcases List.mem_append.mp hother with hmem | hmem
  · exact hearlier other hmem
  · rcases List.mem_cons.mp hmem with rfl | hmem
    · exact Nat.le_refl _
    · exact (hlater other hmem).le

theorem eq_of_rest (h : Closest ways names found) (h' : Closest ways names other)
    {between later later' : List String}
    (hlater : ∀ name ∈ later, rank ways found < rank ways name)
    (hrest : found :: later = between ++ other :: later') : found = other := by
  cases between with
  | nil => exact (List.cons.inj hrest).1
  | cons _ between =>
    obtain ⟨rfl, rfl⟩ := List.cons.inj hrest
    have hless : rank ways found < rank ways other := hlater other (by simp)
    have hleast : rank ways other ≤ rank ways found := h'.rank_le h.mem
    omega

/-- Of two such names one stands in what follows the other, so it cannot be another one. -/
theorem unique (h : Closest ways names found) (h' : Closest ways names other) : found = other := by
  obtain ⟨earlier, later, hnames, -, hlater⟩ := h.last
  obtain ⟨earlier', later', hnames', -, hlater'⟩ := h'.last
  rcases List.append_eq_append_iff.mp (hnames.symm.trans hnames') with
    ⟨between, -, hrest⟩ | ⟨between, -, hrest⟩
  · exact h.eq_of_rest h' hlater hrest
  · exact (h'.eq_of_rest h hlater' hrest).symm

theorem of_findRev? (h : names.findRev? way = some found) : Closest (way :: ways) names found := by
  obtain ⟨hfound, earlier, later, hnames, hlater⟩ := findRev?_eq_some_iff.mp h
  have hzero : rank (way :: ways) found = 0 := rank_cons_of_true hfound
  refine ⟨by simp [hzero], earlier, later, hnames, by simp [hzero], fun other hother => ?_⟩
  rw [hzero, rank_cons_of_false (hlater other hother)]
  exact Nat.succ_pos _

theorem cons (h : Closest ways names found) (hnone : ∀ name ∈ names, way name = false) :
    Closest (way :: ways) names found := by
  have hnext : ∀ name ∈ names, rank (way :: ways) name = rank ways name + 1 :=
    fun name hname => rank_cons_of_false (hnone name hname)
  have hfound := hnext found h.mem
  obtain ⟨earlier, later, rfl, hearlier, hlater⟩ := h.last
  refine ⟨?_, earlier, later, rfl, fun other hother => ?_, fun other hother => ?_⟩
  · rw [hfound]
    exact Nat.succ_lt_succ h.like
  · rw [hfound, hnext other (by simp [hother])]
    exact Nat.succ_le_succ (hearlier other hother)
  · rw [hfound, hnext other (by simp [hother])]
    exact Nat.succ_lt_succ (hlater other hother)

end Closest

/-! ## Trying one way after the other -/

theorem closest_of_findSome? (h : ways.findSome? (fun way => names.findRev? way) = some found) :
    Closest ways names found := by
  induction ways with
  | nil => simp at h
  | cons way ways ih =>
    rw [List.findSome?_cons] at h
    cases hway : names.findRev? way with
    | some last =>
      rw [hway] at h
      cases h
      exact .of_findRev? hway
    | none =>
      rw [hway] at h
      exact (ih h).cons (findRev?_eq_none_iff.mp hway)

theorem findSome?_eq_none_iff :
    ways.findSome? (fun way => names.findRev? way) = none ↔
      ∀ name ∈ names, ¬rank ways name < ways.length := by
  rw [List.findSome?_eq_none_iff]
  simp only [findRev?_eq_none_iff, rank_lt_length_iff, not_exists, not_and, Bool.not_eq_true]
  exact ⟨fun h name hname way hway => h way hway name hname,
    fun h way hway name hname => h name hname way hway⟩

theorem findSome?_eq_some_iff :
    ways.findSome? (fun way => names.findRev? way) = some found ↔ Closest ways names found := by
  refine ⟨closest_of_findSome?, fun h => ?_⟩
  -- Where there is a closest name something is picked, and that is a closest name as well.
  cases hpicked : ways.findSome? (fun way => names.findRev? way) with
  | none => exact absurd h.like (findSome?_eq_none_iff.mp hpicked found h.mem)
  | some picked => rw [(closest_of_findSome? hpicked).unique h]

-- The last name that differs in the size of letters only comes before the language.
example : bestMatch "es_ar.UTF-8" ["ES-AR", "es", "es-AR", "en"] = some "es-AR" := by
  decide +kernel

end LocaleName

end Vernacular
