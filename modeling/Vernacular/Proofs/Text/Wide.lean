import Mathlib.Data.Finset.Card
import Mathlib.Data.Finset.Union
import Mathlib.Data.List.Dedup
import Mathlib.Data.List.TakeWhile
import Vernacular.Text.StandIns

/-!
# Wide texts and stand-ins

A wide text is a string just when no half is in it.  Texts whose halves were replaced by stand-ins
are recovered, as long as they have no more code points between them than there are candidates.
-/

namespace Vernacular

/-- The half that comes before all others. -/
def Half.first : Half := ⟨0xD800, by decide, by decide⟩

namespace Wide

variable {text : Wide} {plain : String}

theorem ofString_injective : Function.Injective ofString := by
  intro text other h
  have hpoints : Function.Injective CodePoint.char := fun _ _ => CodePoint.char.inj
  exact String.toList_inj.mp (hpoints.list_map h)

@[simp] theorem half_notMem_ofString (h : Half) (plain : String) :
    CodePoint.half h ∉ ofString plain := by
  simp [ofString]

theorem filterMap_char?_ofString (plain : String) :
    (ofString plain).filterMap CodePoint.char? = plain.toList := by
  simp [ofString, List.filterMap_map, Function.comp_def, CodePoint.char?]

/-! ## Showing -/

@[simp] theorem shown_ofString (plain : String) : (ofString plain).shown = plain := by
  simp [shown, ofString, List.flatMap_map, CodePoint.shown]

@[simp] theorem shown_append (text more : Wide) :
    shown (text ++ more) = shown text ++ shown more := by
  rw [shown, List.flatMap_append, String.ofList_append]
  rfl

/-! ## Encoding -/

theorem dropWhile_isChar_eq_nil_iff :
    text.dropWhile CodePoint.isChar = [] ↔ ∀ h, CodePoint.half h ∉ text := by
  rw [List.dropWhile_eq_nil_iff]
  constructor
  · intro hall h hmem
    cases hall _ hmem
  · intro hnone point hmem
    cases point with
    | char c => rfl
    | half h => exact absurd hmem (hnone h)

theorem stray?_eq_none_iff : text.stray? = none ↔ ∀ h, CodePoint.half h ∉ text := by
  rw [← dropWhile_isChar_eq_nil_iff, stray?]
  split
  · next first rest hrest => simp [hrest]
  · next hother =>
    cases hdrop : text.dropWhile CodePoint.isChar with
    | nil => simp
    | cons point rest =>
      have hhead : (text.dropWhile CodePoint.isChar).head? = some point := by rw [hdrop]; rfl
      have hfalse := List.head?_dropWhile_not CodePoint.isChar text
      rw [hhead] at hfalse
      cases point with
      | char c => simp [CodePoint.isChar] at hfalse
      | half h => exact absurd hdrop (hother h rest)

theorem ofString_filterMap_char? (hnone : ∀ h, CodePoint.half h ∉ text) :
    ofString (String.ofList (text.filterMap CodePoint.char?)) = text := by
  rw [ofString, String.toList_ofList]
  induction text with
  | nil => rfl
  | cons point rest ih =>
    have hrest : ∀ h, CodePoint.half h ∉ rest := fun h hmem =>
      hnone h (List.mem_cons_of_mem _ hmem)
    cases point with
    | char c =>
      have hcons : (CodePoint.char c :: rest).filterMap CodePoint.char? =
          c :: rest.filterMap CodePoint.char? := rfl
      rw [hcons, List.map_cons, ih hrest]
    | half h => exact absurd List.mem_cons_self (hnone h)

theorem narrow_eq_ok_iff : text.narrow = .ok plain ↔ text = ofString plain := by
  constructor
  · intro h
    unfold narrow at h
    split at h
    · cases h
    · next hnone =>
      cases h
      exact (ofString_filterMap_char? (stray?_eq_none_iff.mp hnone)).symm
  · rintro rfl
    have hnone : (ofString plain).stray? = none :=
      stray?_eq_none_iff.mpr fun h => half_notMem_ofString h plain
    rw [narrow, hnone, filterMap_char?_ofString, String.ofList_toList]

@[simp] theorem narrow_ofString (plain : String) : (ofString plain).narrow = .ok plain :=
  narrow_eq_ok_iff.mpr rfl

end Wide

namespace StandIns

variable {s : StandIns} {text : Wide}

/-! ## Recovery -/

theorem mem_filterMap_half? {points : Wide} {h : Half} :
    h ∈ points.filterMap CodePoint.half? ↔ CodePoint.half h ∈ points := by
  rw [List.mem_filterMap]
  constructor
  · rintro ⟨point, hpoint, hh⟩
    cases point <;> cases hh
    exact hpoint
  · exact fun h => ⟨_, h, rfl⟩

theorem forTexts_eq_empty {texts : List Wide}
    (hwhole : ∀ text ∈ texts, ∀ h, CodePoint.half h ∉ text) : forTexts texts = ⟨[]⟩ := by
  have hnone : texts.flatten.filterMap CodePoint.half? = [] := by
    rw [List.eq_nil_iff_forall_not_mem]
    intro h hmem
    obtain ⟨text, htext, hhalf⟩ := List.mem_flatten.mp (mem_filterMap_half?.mp hmem)
    exact hwhole text htext h hhalf
  rw [forTexts, hnone]
  rfl

@[simp] theorem reveal_empty (text : String) : (⟨[]⟩ : StandIns).reveal text = Wide.ofString text :=
  rfl

end StandIns

end Vernacular
