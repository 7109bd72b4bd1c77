import Vernacular.Proofs.Diagnostic.Place
import Vernacular.Proofs.Json.Reader
import Vernacular.Proofs.Json.Record
import Vernacular.Proofs.Loading

/-!
# Loading texts that are no JSON

A text that is no JSON is refused at a place that lies in it, by a report that shows the place,
unless the reader stops before it has seen the fault: then there is no report at all.
-/

namespace Vernacular

/-- A fault lies at an offset: the text goes on there as the fault says, with what it is about. -/
structure Json.Fault.LiesAt (fault : Json.Fault) (text : List Char) (offset : Nat) : Prop where
  inside : offset ≤ text.length
  rest : text.drop offset = fault.rest
  shows : fault.problem.Shows fault.rest

theorem Json.Fault.FoundIn.liesAt {fault : Json.Fault} {text : List Char}
    (h : fault.FoundIn text) : fault.LiesAt text (fault.offset text) where
  inside := Nat.sub_le ..
  rest := (List.suffix_iff_eq_drop.mp h.suffix).symm
  shows := h.shows

namespace Loading

variable {decoder : Json.Decoder} {files : Files} {source given location : String}
  {text : List Char}

/-- An error that reports a fault in a text: which source it is about, what its report is, and the
place that the report shows.  The line is one more than the newlines before the fault, and the
column is the distance from the last of them; four such numbers are always a place. -/
structure Locates (error : Error) (location : String) (text : List Char) (fault : Json.Fault)
    (offset : Nat) (place : Place) : Prop where
  named : error.location = location
  kind : error.failure.kind = .definitionLoad location
  report : error.failure.diagnostic? = some error.diagnostic
  code : error.diagnostic.code = .definitionLoadFailed
  message : error.diagnostic.message = s!"Could not load {location}: {fault.problem.text}"
  source : error.diagnostic.location = some location
  shows : error.diagnostic.place = some place
  start : place.start = offset
  stop : place.stop = offset
  line : place.line = 1 + (text.take offset).count '\n'
  column : (place.column : Int) = offset - newlineBefore text offset
  valid : Place.ofBounds offset offset (1 + (text.take offset).count '\n')
    (offset - newlineBefore text offset) = .ok place

theorem locates_of_foundIn (location : String) {fault : Json.Fault} (h : fault.FoundIn text) :
    Locates ⟨location,
        .malformed fault.problem (Place.ofOffset text (fault.offset text))⟩ location text fault
      (fault.offset text) (Place.ofOffset text (fault.offset text)) := by
  have hmarks := Place.marks_ofOffset h.liesAt.inside
  exact ⟨rfl, rfl, rfl, rfl, rfl, rfl, rfl, hmarks.start, hmarks.stop, hmarks.line, hmarks.column,
    hmarks.ofBounds⟩

theorem loadObject_of_malformed (given : String) {fault : Json.Fault}
    (hcontent : (Source.ofString source).content files = .ok text)
    (hread : Json.read decoder text = .error (.fault fault)) :
    (loadObject decoder files source given).result =
      .error (.reported ⟨(Source.ofString source).location given,
        .malformed fault.problem (Place.ofOffset text (fault.offset text))⟩) :=
  loadObject_eq_error_iff.mpr
    (.inr ⟨text, hcontent, members_eq_error_iff.mpr (.inl ⟨fault, hread, rfl⟩)⟩)

theorem loadObject_crashes_iff_of_content (given : String)
    (hcontent : (Source.ofString source).content files = .ok text) :
    (∃ crash, (loadObject decoder files source given).result = .error (.crashed crash)) ↔
      Json.Exceeds decoder text := by
  rw [loadObject_crashes_iff, Crashes, hcontent]
  simp

/-- A text that is no JSON, from a file or given inline, is refused where the reader stops, with a
report that shows the place of the fault there.  The one exception is a text in which something goes
beyond the limits of the decoder before the fault: no report is made of it. -/
theorem place_of_malformed (decoder : Json.Decoder) (given : String)
    (hcontent : (Source.ofString source).content files = .ok text)
    (hmalformed : ∀ value, Json.read decoder.unlimited text ≠ .ok value) :
    (¬Json.Exceeds decoder text →
      ∃ fault offset place error, Json.read decoder.unlimited text = .error (.fault fault) ∧
        fault.LiesAt text offset ∧
        (loadObject decoder files source given).result = .error (.reported error) ∧
        Locates error ((Source.ofString source).location given) text fault offset place) ∧
    ((∃ crash, (loadObject decoder files source given).result = .error (.crashed crash)) ↔
      Json.Exceeds decoder text) := by
  refine ⟨fun hwithin => ?_, loadObject_crashes_iff_of_content given hcontent⟩
  cases hread : Json.read decoder.unlimited text with
  | ok value => exact absurd hread (hmalformed value)
  | error stop =>
    cases stop with
    | excess excess => exact absurd hread (Json.read_unlimited_ne_excess decoder text excess)
    | fault fault =>
      have hfound := Json.foundIn_of_read hread
      have hlimited := (Json.read_eq_of_not_exceeds hwithin).trans hread
      exact ⟨fault, _, _, _, rfl, hfound.liesAt, loadObject_of_malformed given hcontent hlimited,
        locates_of_foundIn _ hfound⟩

/-- A record that ends where a value is due. -/
def cutRecord : String := "\x7b\n  \"a\": \x7d"

theorem read_cutRecord :
    Json.read .usual cutRecord.toList = .error (.fault ⟨.expectedValue, ['\x7d']⟩) := by
  with_unfolding_all rfl

theorem place_of_malformed_inline :
    let decoder : Json.Decoder := .usual
    let files : Files := fun path => .error (.system ⟨.missing, path⟩)
    (Source.ofString cutRecord).content files = .ok cutRecord.toList ∧
      (∀ value, Json.read decoder.unlimited cutRecord.toList ≠ .ok value) ∧
      ¬Json.Exceeds decoder cutRecord.toList ∧
      ∃ place error,
        (loadObject decoder files cutRecord namesLocation).result = .error (.reported error) ∧
        error.diagnostic.message = "Could not load names: Expecting value" ∧
        error.diagnostic.place = some place ∧
        place.start = 9 ∧ place.stop = 9 ∧ place.line = 2 ∧ place.column = 8 := by
  intro decoder files
  have hinline : Source.ofString cutRecord = .inline cutRecord := Source.ofString_inline (by decide)
  have hcontent : (Source.ofString cutRecord).content files = .ok cutRecord.toList := by
    rw [hinline]
    rfl
  have hwithin : ¬Json.Exceeds decoder cutRecord.toList := by
    rw [← Json.exists_read_eq_excess_iff, read_cutRecord]
    simp
  have hread := (Json.read_eq_of_not_exceeds hwithin).symm.trans read_cutRecord
  have hmalformed : ∀ value, Json.read decoder.unlimited cutRecord.toList ≠ .ok value := by
    simp [hread]
  obtain ⟨fault, offset, place, error, hfault, hlies, hresult, hlocates⟩ :=
    (place_of_malformed decoder namesLocation hcontent hmalformed).1 hwithin
  rw [hread, Except.error.injEq, Json.Stop.fault.injEq] at hfault
  subst hfault
  -- what is left at the fault is one character of ten
  have hoffset : offset = 9 := by
    have hlength := congrArg List.length hlies.rest
    have hten : cutRecord.toList.length = 10 := by decide
    have hinside := hlies.inside
    simp only [List.length_drop, List.length_singleton] at hlength
    omega
  subst hoffset
  have hmessage := hlocates.message
  rw [hinline] at hmessage
  refine ⟨hcontent, hmalformed, hwithin, place, error, hresult, hmessage, hlocates.shows,
    hlocates.start, hlocates.stop, hlocates.line.trans (by decide), ?_⟩
  have hbefore : newlineBefore cutRecord.toList 9 = 1 := by decide
  have hcolumn := hlocates.column
  omega

/-- Not every text that is no JSON is reported with a place. -/
theorem not_placed_of_longNumber :
    ¬∀ (decoder : Json.Decoder) (files : Files) (source given : String) (text : List Char),
      (Source.ofString source).content files = .ok text →
      (∀ value, Json.read decoder.unlimited text ≠ .ok value) →
      ∃ error place,
        (loadObject decoder files source given).result = .error (.reported error) ∧
        error.diagnostic.place = some place := by
  intro hclaim
  let decoder : Json.Decoder := .usual
  let files : Files := fun path => .error (.system ⟨.missing, path⟩)
  let text := Nat.toDigits 10 Json.longNumber ++ [' ', 'x']
  have hrest : Json.EndsNumber [' ', 'x'] := by simp [Json.EndsNumber]
  have hmore : Json.lexemes [' ', 'x'] = [⟨.junk, ['x']⟩] := by with_unfolding_all rfl
  have hmalformed : ∀ value, Json.read decoder.unlimited text ≠ .ok value := by
    simp [text, Json.read_toDigits_append decoder hrest hmore]
  have hcontent : (Source.ofString (String.ofList text)).content files = .ok text :=
    content_ofList (Json.head?_toDigits_append_ne _ _ (by decide)) files
  obtain ⟨error, place, hreported, -⟩ :=
    hclaim decoder files _ objectLocation text hcontent hmalformed
  have hexceeds : Json.Exceeds decoder text :=
    Json.exceeds_toDigits rfl Json.length_longNumber hrest
  obtain ⟨crash, hcrash⟩ :=
    (loadObject_crashes_iff_of_content objectLocation hcontent).mpr hexceeds
  rw [hreported] at hcrash
  cases hcrash

end Loading

end Vernacular
