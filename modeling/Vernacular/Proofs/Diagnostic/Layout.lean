import Vernacular.Diagnostic.Layout
import Vernacular.Loading
import Vernacular.Proofs.Json.Record

/-!
# Diagnostics written as records

A diagnostic that is written as a record can be loaded again, and what is loaded is all that there
is to say of it, in a fixed order.  A record stands on one line, so several of them are told apart
by the blank lines between them.
-/

namespace Vernacular

/-! ## Blocks of lines -/

namespace Blocks

/-- What stands before, between and after the pairs of newlines, taken from the left. -/
def split : List Char → List (List Char)
  | [] => [[]]
  | '\n' :: '\n' :: rest => [] :: split rest
  | c :: rest => (split rest).modifyHead (c :: ·)

theorem split_of_notMem {line : List Char} (h : '\n' ∉ line) : split line = [line] := by
  induction line with
  | nil => rfl
  | cons c line ih =>
    rw [List.mem_cons, not_or] at h
    rw [split, ih h.2]
    · rfl
    · exact fun _ heq _ => h.1 heq.symm

theorem split_cut {line : List Char} (h : '\n' ∉ line) (rest : List Char) :
    split (line ++ '\n' :: '\n' :: rest) = line :: split rest := by
  induction line with
  | nil => rfl
  | cons c line ih =>
    rw [List.mem_cons, not_or] at h
    rw [List.cons_append, split, ih h.2]
    · rfl
    · exact fun _ heq _ => h.1 heq.symm

end Blocks

def blocks (text : String) : List String := (Blocks.split text.toList).map String.ofList

theorem blocks_intercalate {texts : List String} (hsome : texts ≠ [])
    (hlines : ∀ text ∈ texts, '\n' ∉ text.toList) : blocks ("\n\n".intercalate texts) = texts := by
  induction texts with
  | nil => exact absurd rfl hsome
  | cons text rest ih =>
    rw [List.forall_mem_cons] at hlines
    cases rest with
    | nil => simp [blocks, Blocks.split_of_notMem hlines.1]
    | cons next rest =>
      have hrest := ih (List.cons_ne_nil _ _) hlines.2
      have htext : ("\n\n".intercalate (text :: next :: rest)).toList =
          text.toList ++ '\n' :: '\n' :: ("\n\n".intercalate (next :: rest)).toList := by
        simp
      rw [blocks] at hrest
      rw [blocks, htext, Blocks.split_cut hlines.1, List.map_cons, String.ofList_toList, hrest]

namespace Layout

variable {layout : Layout} {d : Diagnostic}

/-! ## What is to be said -/

/-- The names of a record in their order, each with its value for a diagnostic if it has one. -/
def fields (layout : Layout) (d : Diagnostic) : List (String × Option Json) :=
  [("code", some (text d.code.name)),
   ("code_value", some (.int d.code.number)),
   ("message", some (text (layout.cut d.message))),
   ("severity", some (text d.severity.label)),
   ("locale_name", (filled d.localeName).map text),
   ("attribute", (filled d.setting).map text),
   ("location", (filled d.location).map text),
   ("line", d.place.map fun place => .int place.line),
   ("column", d.place.map fun place => .int place.column),
   ("start", d.place.map fun place => .int place.start),
   ("end", d.place.map fun place => .int place.stop),
   ("hint", (filled d.hint).map fun hint => text (layout.cut hint))]
where
  text (value : String) : Json := .string (Wide.ofString value)

def record (layout : Layout) (d : Diagnostic) : List (Wide × Json) :=
  (layout.fields d).filterMap fun field => field.2.map (Prod.mk (Wide.ofString field.1))

theorem nodup_names_record (layout : Layout) (d : Diagnostic) :
    ((layout.record d).map Prod.fst).Nodup := by
  have hsublist : List.Sublist ((layout.record d).map Prod.fst)
      ((layout.fields d).map fun field => Wide.ofString field.1) := by
    unfold record
    induction layout.fields d with
    | nil => exact .slnil
    | cons field rest ih =>
      rw [List.filterMap_cons]
      split
      · exact ih.cons _
      · next member hmember =>
        obtain ⟨value, -, rfl⟩ := Option.map_eq_some_iff.mp hmember
        exact ih.cons_cons _
  have hnames : ((layout.fields d).map Prod.fst).Nodup := by
    simp only [fields, List.map_cons, List.map_nil]
    decide
  have hwide := hnames.map Wide.ofString_injective
  rw [List.map_map] at hwide
  exact hwide.sublist hsublist

theorem cut_ne_empty {text : String} (h : text ≠ "") : layout.cut text ≠ "" := by
  unfold cut
  split
  · exact fun hempty => absurd (String.append_eq_empty_iff.mp hempty).2 (by decide)
  · exact h

theorem filled_map_cut (layout : Layout) (text : Option String) :
    filled ((filled text).map layout.cut) = (filled text).map layout.cut := by
  cases htext : filled text with
  | none => rfl
  | some t =>
    have hsome : t ≠ "" := by simpa using (Option.filter_eq_some_iff.mp htext).2
    simp [filled, cut_ne_empty hsome]

theorem ofScalars_textField (name : String) (text : Option String) :
    Json.ofScalars (textField name text) =
      (((filled text).map fields.text).map (Prod.mk (Wide.ofString name))).toList := by
  unfold textField
  cases filled text <;> rfl

theorem ofScalars_placeFields (place : Option Place) :
    Json.ofScalars (placeFields place) =
      ((place.map fun p => .int p.line).map (Prod.mk (Wide.ofString "line"))).toList ++
        ((place.map fun p => .int p.column).map (Prod.mk (Wide.ofString "column"))).toList ++
        ((place.map fun p => .int p.start).map (Prod.mk (Wide.ofString "start"))).toList ++
        ((place.map fun p => .int p.stop).map (Prod.mk (Wide.ofString "end"))).toList := by
  cases place <;> rfl

theorem ofScalars_recordFields (layout : Layout) (d : Diagnostic) :
    Json.ofScalars (layout.recordFields d) = layout.record d := by
  rw [record, List.filterMap_eq_flatMap_toList, fields, recordFields]
  simp only [Json.ofScalars_append, ofScalars_textField, ofScalars_placeFields, filled_map_cut]
  simp [Json.ofScalars, Json.Scalar.toJson, fields.text, Function.comp_def]

theorem write_json (h : layout.style = .json) :
    layout.write d = String.ofList (Json.printFlat (layout.recordFields d)) := by
  rw [write, h]

theorem loadObject_write (h : layout.style = .json) {decoder : Json.Decoder}
    (hallow : decoder.Allow (layout.record d)) (files : Loading.Files) (given : String) :
    Loading.loadObject decoder files (layout.write d) given =
      .silent (.ok (layout.record d)) := by
  have hnames : ((layout.recordFields d).map Prod.fst).Nodup := by
    have hwide := layout.nodup_names_record d
    rw [← ofScalars_recordFields, Json.names_ofScalars] at hwide
    exact hwide.of_map _
  have hread := Json.read_printFlat hnames ((ofScalars_recordFields layout d).symm ▸ hallow)
  rw [ofScalars_recordFields] at hread
  have hsource : Loading.Source.ofString (layout.write d) = .inline (layout.write d) := by
    rw [Loading.Source.ofString, write_json h, String.toList_ofList]
    rfl
  have hmembers : Loading.members decoder given (layout.write d).toList =
      .ok (layout.record d) := by
    rw [Loading.members, write_json h, String.toList_ofList, hread]
  simp only [Loading.loadObject, hsource, Loading.Source.text, Loading.Source.location,
    Logged.andThen, Logged.silent, hmembers]
  rfl

theorem newline_notMem_write (h : layout.style = .json) (d : Diagnostic) :
    '\n' ∉ (layout.write d).toList := by
  rw [write_json h, String.toList_ofList]
  exact (Json.unbroken_printFlat _).notMem_newline

/-- A record that is loaded again holds, in order, the code and its number, the message, the
severity, whatever is known and not empty of the locale, the setting and the location, the place if
there is one, and a hint that is not empty; message and hint may be cut.  No file is opened for it.
Limits of the decoder change nothing as long as they let one object pass, and the numbers in it.
Records with blank lines between them fall apart at these and nowhere else. -/
theorem records_of_write (layout : Layout) (hstyle : layout.style = .json) (files : Loading.Files)
    (given : String) :
    (∀ (decoder : Json.Decoder) d,
        Loading.loadObject decoder.unlimited files (layout.write d) given =
          .silent (.ok (layout.record d))) ∧
      (∀ (decoder : Json.Decoder) d, decoder.Allow (layout.record d) →
        Loading.loadObject decoder files (layout.write d) given =
          .silent (.ok (layout.record d))) ∧
      ∀ ds, ds ≠ [] → blocks (layout.writeAll ds) = ds.map layout.write := by
  refine ⟨fun decoder d => loadObject_write hstyle (decoder.allow_unlimited _) files given,
    fun decoder d hallow => loadObject_write hstyle hallow files given, ?_⟩
  intro ds hsome
  refine blocks_intercalate (by simpa using hsome) ?_
  intro text htext
  obtain ⟨d, -, rfl⟩ := List.mem_map.mp htext
  exact newline_notMem_write hstyle d

theorem records_of_write_cut :
    let layout : Layout := { style := .json, cuts := true, limit := 4 }
    let d : Diagnostic :=
      { code := .definitionLoadFailed, message := "\x7b\"\n\n\"\x7d", localeName := some "",
        location := some "a\\b\x00", place := some (.ofOffset ['\n', 'x'] 2), hint := some "\n\n",
        severity := .labelled "𝄞" }
    let record : List (Wide × Json) :=
      [("code", .string "DEFINITION_LOAD_FAILED"), ("code_value", .int 3001),
       ("message", .string "\x7b\"\n\n..."), ("severity", .string "𝄞"),
       ("location", .string "a\\b\x00"), ("line", .int 2), ("column", .int 2),
       ("start", .int 2), ("end", .int 2), ("hint", .string "\n\n")]
    let files : Loading.Files := fun path => .error (.system ⟨.missing, path⟩)
    let decoder : Json.Decoder := ⟨some 4, some 1, true⟩
    layout.style = .json ∧
      Loading.loadObject decoder.unlimited files (layout.write d) Loading.namesLocation =
        .silent (.ok record) ∧
      decoder.Allow (layout.record d) ∧
      Loading.loadObject decoder files (layout.write d) Loading.namesLocation =
        .silent (.ok record) ∧
      [d, d] ≠ [] ∧ blocks (layout.writeAll [d, d]) = [layout.write d, layout.write d] := by
  intro layout d record files decoder
  have hstyle : layout.style = .json := rfl
  have hsome : [d, d] ≠ [] := List.cons_ne_nil d [d]
  have hmessage : layout.cut d.message = "\x7b\"\n\n..." := by decide +kernel
  have hrecord : layout.record d = record := by
    rw [Layout.record, fields, hmessage]
    rfl
  have hallow : decoder.Allow (layout.record d) := by
    rw [hrecord]
    refine ⟨by decide, fun most hmost member hmember n hn => ?_⟩
    cases hmost
    simp only [record, List.mem_cons, List.not_mem_nil, or_false] at hmember
    rcases hmember with rfl | rfl | rfl | rfl | rfl | rfl | rfl | rfl | rfl | rfl <;> cases hn <;>
      decide
  obtain ⟨hloaded, hlimited, hblocks⟩ :=
    records_of_write layout hstyle files Loading.namesLocation
  exact ⟨hstyle, (hloaded decoder d).trans (by rw [hrecord]), hallow,
    (hlimited decoder d hallow).trans (by rw [hrecord]), hsome, hblocks [d, d] hsome⟩

end Layout

end Vernacular
