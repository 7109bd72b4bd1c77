import Vernacular.Proofs.Diagnostic.Layout

/-!
# The content of written diagnostics

What a layout writes is put together from words of its own, from numbers, and from texts of the
diagnostic.  A layout that cuts shortens messages and hints, and no other text.
-/

namespace Vernacular

namespace Json

theorem printMembers_cons (member : String × Scalar) (rest : List (String × Scalar)) :
    printMembers (member :: rest) =
      printMember member ++ rest.flatMap fun next => ',' :: ' ' :: printMember next := by
  induction rest generalizing member with
  | nil => simp [printMembers]
  | cons next rest ih => simp [printMembers, ih]

theorem length_printChar_pos (c : Char) : 1 ≤ (printChar c).length := by
  unfold printChar
  split
  · simp
  · split <;> simp

theorem length_printChar_le (c : Char) : (printChar c).length ≤ 6 := by
  unfold printChar
  split
  · simp
  · split <;> simp

theorem length_le_flatMap_printChar (text : List Char) :
    text.length ≤ (text.flatMap printChar).length := by
  induction text with
  | nil => simp
  | cons c text ih =>
    have := length_printChar_pos c
    simp only [List.length_cons, List.flatMap_cons, List.length_append]
    omega

theorem length_flatMap_printChar_le (text : List Char) :
    (text.flatMap printChar).length ≤ 6 * text.length := by
  induction text with
  | nil => simp
  | cons c text ih =>
    have := length_printChar_le c
    simp only [List.length_cons, List.flatMap_cons, List.length_append]
    omega

end Json

namespace Layout

/-! ## Pieces -/

/-- The texts of a diagnostic that may hold anything. -/
inductive Field where
  | message
  | localeName
  | setting
  | location
  | hint
deriving DecidableEq, Repr

/-- What a diagnostic has in a field.  A message may be empty; elsewhere no text counts as none. -/
def Field.text? (d : Diagnostic) : Field → Option String
  | message => some d.message
  | localeName => filled d.localeName
  | setting => filled d.setting
  | location => filled d.location
  | hint => filled d.hint

def Field.isCut : Field → Bool
  | message | hint => true
  | localeName | setting | location => false

namespace Style

def shown : Style → List Field
  | rust => [.message, .location, .localeName, .hint]
  | simple => [.message]
  | json => [.message, .localeName, .setting, .location, .hint]

def printText (style : Style) (text : String) : List Char :=
  match style with
  | json => text.toList.flatMap Json.printChar
  | _ => text.toList

end Style

inductive Piece where
  | frame (characters : List Char)
  | digits (number : Nat)
  | content (field : Field) (text : String)

def Piece.print (style : Style) : Piece → List Char
  | frame characters => characters
  | digits number => Nat.toDigits 10 number
  | content _ text => style.printText text

def print (style : Style) (pieces : List Piece) : List Char := pieces.flatMap (·.print style)

/-- What a layout shows of a field. -/
def shownText? (layout : Layout) (d : Diagnostic) (field : Field) : Option String :=
  (field.text? d).map fun text => if field.isCut then layout.cut text else text

def fieldPieces (layout : Layout) (d : Diagnostic) (before : List Char) (field : Field)
    (after : List Char) : List Piece :=
  match layout.shownText? d field with
  | some text => [.frame before, .content field text, .frame after]
  | none => []

/-- A report says where in a location the place is, and shows no place without a location. -/
def whereAbouts (d : Diagnostic) : List Piece :=
  match filled d.location, d.place with
  | some _, some place =>
    [.frame ", line ".toList, .digits place.line, .frame ", column ".toList, .digits place.column]
  | _, _ => []

def reportPieces (layout : Layout) (d : Diagnostic) : List Piece :=
  layout.fieldPieces d (layout.head d.severity ++ "[" ++ d.code.name ++ "]: ").toList .message [] ++
    layout.fieldPieces d "\n  --> ".toList .location [] ++
    whereAbouts d ++
    layout.fieldPieces d "\n  = locale: ".toList .localeName [] ++
    layout.fieldPieces d "\n  = help: ".toList .hint []

/-- What stands before the value of a member of a record. -/
def named (name : String) : List Char := Json.printText name ++ [':', ' ']

def nextNamed (name : String) : List Char := ',' :: ' ' :: named name

def placePieces : Option Place → List Piece
  | some place =>
    [.frame (nextNamed "line"), .digits place.line, .frame (nextNamed "column"),
      .digits place.column, .frame (nextNamed "start"), .digits place.start,
      .frame (nextNamed "end"), .digits place.stop]
  | none => []

def recordPieces (layout : Layout) (d : Diagnostic) : List Piece :=
  [.frame ('\x7b' :: named "code" ++ Json.printText d.code.name ++ nextNamed "code_value"),
    .digits d.code.number] ++
    layout.fieldPieces d (nextNamed "message" ++ ['"']) .message ['"'] ++
    [.frame (nextNamed "severity" ++ Json.printText d.severity.label)] ++
    layout.fieldPieces d (nextNamed "locale_name" ++ ['"']) .localeName ['"'] ++
    layout.fieldPieces d (nextNamed "attribute" ++ ['"']) .setting ['"'] ++
    layout.fieldPieces d (nextNamed "location" ++ ['"']) .location ['"'] ++
    placePieces d.place ++
    layout.fieldPieces d (nextNamed "hint" ++ ['"']) .hint ['"'] ++ [.frame ['\x7d']]

def pieces (layout : Layout) (d : Diagnostic) : List Piece :=
  match layout.style with
  | .rust => layout.reportPieces d
  | .simple => layout.fieldPieces d (d.code.name ++ ": ").toList .message []
  | .json => layout.recordPieces d

variable {layout : Layout} {d : Diagnostic} {style : Style} {field : Field} {m : Nat}

@[simp] theorem print_nil : print style [] = [] := rfl

@[simp] theorem print_cons (piece : Piece) (pieces : List Piece) :
    print style (piece :: pieces) = piece.print style ++ print style pieces := rfl

@[simp] theorem print_append (pieces more : List Piece) :
    print style (pieces ++ more) = print style pieces ++ print style more :=
  List.flatMap_append

theorem print_fieldPieces (before after : List Char) :
    print style (layout.fieldPieces d before field after) =
      (layout.shownText? d field).toList.flatMap fun text =>
        before ++ style.printText text ++ after := by
  unfold fieldPieces
  cases layout.shownText? d field <;> simp [Piece.print]

/-! ## Writing in pieces -/

theorem toList_intercalate_newline (line : String) (lines : List String) :
    ("\n".intercalate (line :: lines)).toList =
      line.toList ++ lines.flatMap fun next => '\n' :: next.toList := by
  induction lines generalizing line with
  | nil => simp
  | cons next lines ih => simp [ih]

theorem toList_write_rust (h : layout.style = .rust) :
    (layout.write d).toList = print .rust (layout.reportPieces d) := by
  rw [write, h, reportLines, reportPieces]
  simp only [List.cons_append, List.nil_append, toList_intercalate_newline,
    List.flatMap_append, print_append, print_fieldPieces, shownText?, Field.text?, Field.isCut,
    whereLine, whereAbouts]
  cases filled d.location <;> cases d.place <;> cases filled d.localeName <;> cases filled d.hint
  all_goals simp [Style.printText, Piece.print, toString, Nat.repr]

theorem toList_write_simple (h : layout.style = .simple) :
    (layout.write d).toList =
      print .simple (layout.fieldPieces d (d.code.name ++ ": ").toList .message []) := by
  rw [write, h, print_fieldPieces]
  simp [shownText?, Field.text?, Field.isCut, Style.printText, toString]

theorem flatMap_textField (name : String) (text : Option String) :
    ((textField name text).flatMap fun next => ',' :: ' ' :: Json.printMember next) =
      (filled text).toList.flatMap fun t =>
        nextNamed name ++ ['"'] ++ Style.json.printText t ++ ['"'] := by
  unfold textField
  cases filled text <;>
    simp [Json.printMember, Json.Scalar.print, Json.printText, Style.printText, nextNamed, named]

theorem flatMap_placeFields (place : Option Place) :
    ((placeFields place).flatMap fun next => ',' :: ' ' :: Json.printMember next) =
      print .json (placePieces place) := by
  cases place <;>
    simp [placeFields, placePieces, Json.printMember, Json.Scalar.print, Piece.print, nextNamed,
      named]

theorem toList_write_json (h : layout.style = .json) :
    (layout.write d).toList = print .json (layout.recordPieces d) := by
  rw [write_json h, String.toList_ofList, Json.printFlat, recordFields, recordPieces]
  simp only [List.cons_append, List.nil_append, List.append_assoc, Json.printMembers_cons,
    List.flatMap_cons, List.flatMap_append, flatMap_textField, flatMap_placeFields,
    filled_map_cut, print_cons, print_append, print_nil, print_fieldPieces, shownText?,
    Field.text?, Field.isCut]
  simp [Json.printMember, Json.Scalar.print, Json.printText, Style.printText, Piece.print,
    nextNamed, named]

theorem toList_write (layout : Layout) (d : Diagnostic) :
    (layout.write d).toList = print layout.style (layout.pieces d) := by
  unfold pieces
  cases h : layout.style with
  | rust => exact toList_write_rust h
  | simple => exact toList_write_simple h
  | json => exact toList_write_json h

theorem content_mem_fieldPieces {other : Field} {text : String} {before after : List Char} :
    .content field text ∈ layout.fieldPieces d before other after ↔
      field = other ∧ layout.shownText? d field = some text := by
  unfold fieldPieces
  split
  · next shown hshown =>
    simp only [List.mem_cons, List.not_mem_nil, or_false, reduceCtorEq, false_or,
      Piece.content.injEq]
    refine and_congr_right ?_
    rintro rfl
    rw [hshown, Option.some.injEq, eq_comm]
  · next hshown =>
    simp only [List.not_mem_nil, false_iff, not_and]
    rintro rfl
    simp [hshown]

theorem content_mem_pieces {text : String} :
    .content field text ∈ layout.pieces d ↔
      field ∈ layout.style.shown ∧ layout.shownText? d field = some text := by
  have hwhere : .content field text ∉ whereAbouts d := by
    unfold whereAbouts
    split <;> simp
  have hplace : .content field text ∉ placePieces d.place := by
    unfold placePieces
    split <;> simp
  unfold pieces
  cases layout.style with
  | rust =>
    simp only [reportPieces, List.mem_append, content_mem_fieldPieces, Style.shown, hwhere]
    cases field <;> simp
  | simple => simp [content_mem_fieldPieces, Style.shown]
  | json =>
    simp only [recordPieces, List.mem_append, content_mem_fieldPieces, Style.shown, hplace]
    cases field <;> simp

/-! ## Cut texts -/

/-- The first characters of a text and a mark, if it has more characters than these. -/
def shorten (m : Nat) (text : String) : String :=
  if text.length ≤ m then text else String.ofList (text.toList.take m) ++ "..."

theorem shorten_eq_self_iff {text : String} :
    shorten m text = text ↔
      text.length ≤ m ∨ text = String.ofList (text.toList.take m) ++ "..." := by
  unfold shorten
  split
  · next h => simp [h]
  · next h => simp [h, eq_comm]

theorem length_shorten_le (m : Nat) (text : String) : (shorten m text).length ≤ m + 3 := by
  unfold shorten
  split
  · omega
  · have hmark : "...".length = 3 := by decide
    rw [String.length_append, String.length_ofList, List.length_take, hmark]
    omega

theorem cut_eq_shorten (hcuts : layout.cuts = true) (hlimit : layout.limit = m)
    (text : String) : layout.cut text = shorten m text := by
  have hneg : ¬(m : Int) < 0 := by omega
  by_cases h : text.length ≤ m
  · simp [cut, shorten, hlimit, h, Nat.not_lt.mpr h]
  · simp [cut, shorten, hcuts, hlimit, keep, h, Nat.lt_of_not_le h, hneg]

/-- Every text that is shown of a diagnostic is cut where it is longer than `m`. -/
def ShowsCut (layout : Layout) (m : Nat) (d : Diagnostic) : Prop :=
  ∀ field ∈ layout.style.shown, ∀ text ∈ field.text? d,
    .content field (shorten m text) ∈ layout.pieces d

theorem shownText?_eq_some_iff (hcuts : layout.cuts = true) (hlimit : layout.limit = m)
    {shown : String} :
    layout.shownText? d field = some shown ↔
      ∃ text ∈ field.text? d, shown = if field.isCut then shorten m text else text := by
  rw [shownText?, Option.map_eq_some_iff]
  simp only [cut_eq_shorten hcuts hlimit, Option.mem_def]
  exact exists_congr fun text => and_congr_right fun _ => eq_comm

theorem showsCut_iff (hcuts : layout.cuts = true) (hlimit : layout.limit = m) :
    layout.ShowsCut m d ↔
      ∀ field ∈ layout.style.shown, field.isCut = false → ∀ text ∈ field.text? d,
        text.length ≤ m ∨ text = String.ofList (text.toList.take m) ++ "..." := by
  simp only [ShowsCut, content_mem_pieces, shownText?_eq_some_iff hcuts hlimit,
    ← shorten_eq_self_iff]
  constructor
  · intro h field hshown huncut text htext
    obtain ⟨-, other, hother, heq⟩ := h field hshown text htext
    cases Option.mem_unique hother htext
    simpa [huncut] using heq
  · intro h field hshown text htext
    refine ⟨hshown, text, htext, ?_⟩
    cases hcut : field.isCut with
    | true => rfl
    | false => exact h field hshown hcut text htext

/-! ## Lengths -/

theorem length_le_printText (style : Style) (text : String) :
    text.length ≤ (style.printText text).length := by
  rw [← String.length_toList]
  cases style with
  | json => exact Json.length_le_flatMap_printChar text.toList
  | _ => exact Nat.le_refl _

theorem length_printText_le (style : Style) (text : String) :
    (style.printText text).length ≤ 6 * text.length := by
  rw [← String.length_toList]
  cases style with
  | json => exact Json.length_flatMap_printChar_le text.toList
  | _ => exact Nat.le_mul_of_pos_left _ (by decide)

def placeDigits : Option Place → Nat
  | some place =>
    (Nat.toDigits 10 place.line).length + (Nat.toDigits 10 place.column).length +
      (Nat.toDigits 10 place.start).length + (Nat.toDigits 10 place.stop).length
  | none => 0

/-- What a field holds, if it is not to be cut. -/
def Field.fullText (d : Diagnostic) (field : Field) : List Char :=
  if field.isCut then [] else ((field.text? d).getD "").toList

def Style.fullTexts (style : Style) (d : Diagnostic) : List Char :=
  style.shown.flatMap (·.fullText d)

theorem length_name_le (code : Diagnostic.Code) : code.name.length ≤ 24 := by
  cases code <;> decide

theorem length_head_le (layout : Layout) (severity : Diagnostic.Severity) :
    (layout.head severity).length ≤ 18 := by
  unfold head
  split
  · cases severity <;> simp only [headWord, colourCode] <;> decide
  · cases severity <;> simp only [headWord] <;> decide

theorem length_print_whereAbouts_le (d : Diagnostic) :
    (print .rust (whereAbouts d)).length ≤ 16 + placeDigits d.place := by
  unfold whereAbouts
  split
  · next place hplace =>
    simp [Piece.print, hplace, placeDigits]
    omega
  · simp

theorem length_print_placePieces_le (place : Option Place) :
    (print .json (placePieces place)).length ≤ 42 + placeDigits place := by
  have hline : (nextNamed "line").length = 10 := by decide
  have hcolumn : (nextNamed "column").length = 12 := by decide
  have hstart : (nextNamed "start").length = 11 := by decide
  have hstop : (nextNamed "end").length = 9 := by decide
  cases place with
  | none => simp [placePieces]
  | some place =>
    simp only [placePieces, placeDigits, print_cons, print_nil, Piece.print, List.length_append,
      List.length_nil, hline, hcolumn, hstart, hstop]
    omega

section
variable (hcuts : layout.cuts = true) (hlimit : layout.limit = m)
include hcuts hlimit

theorem length_print_fieldPieces_le (d : Diagnostic) (style : Style) (before : List Char)
    (field : Field) (after : List Char) :
    (print style (layout.fieldPieces d before field after)).length ≤
      before.length + after.length + 6 * (m + 3) + 6 * (field.fullText d).length := by
  rw [print_fieldPieces]
  cases hshown : layout.shownText? d field with
  | none => simp
  | some shown =>
    obtain ⟨text, htext, rfl⟩ := (shownText?_eq_some_iff hcuts hlimit).mp hshown
    have hprint := length_printText_le style (if field.isCut then shorten m text else text)
    have hshort := length_shorten_le m text
    have hfull : field.fullText d = if field.isCut then [] else text.toList := by
      rw [Field.fullText, Option.mem_def.mp htext, Option.getD_some]
    simp only [Option.toList_some, List.flatMap_singleton, List.length_append]
    cases hcut : field.isCut with
    | true =>
      simp only [hcut, if_true] at hprint ⊢
      omega
    | false =>
      simp only [hcut, Bool.false_eq_true, if_false] at hprint hfull ⊢
      rw [hfull, String.length_toList]
      omega

theorem length_print_reportPieces_le (d : Diagnostic) :
    (print .rust (layout.reportPieces d)).length ≤ 93 + 24 * (m + 3) + placeDigits d.place +
      6 * (Style.rust.fullTexts d).length := by
  have hbound := length_print_fieldPieces_le hcuts hlimit d .rust
  have hmessage :=
    hbound (layout.head d.severity ++ "[" ++ d.code.name ++ "]: ").toList .message []
  have hlocation := hbound "\n  --> ".toList .location []
  have hlocale := hbound "\n  = locale: ".toList .localeName []
  have hhint := hbound "\n  = help: ".toList .hint []
  have hhead := length_head_le layout d.severity
  have hname := length_name_le d.code
  have hwhere := length_print_whereAbouts_le d
  simp [reportPieces, Style.fullTexts, Style.shown, String.length_toList]
    at hmessage hlocation hlocale hhint ⊢
  omega

theorem length_print_recordPieces_le (d : Diagnostic) :
    (print .json (layout.recordPieces d)).length ≤ 256 + 30 * (m + 3) +
      6 * d.severity.label.length + placeDigits d.place +
      6 * (Style.json.fullTexts d).length := by
  have hcode : (named "code" ++ Json.printText d.code.name ++ nextNamed "code_value" ++
      Nat.toDigits 10 d.code.number).length ≤ 54 := by
    cases d.code <;> decide
  have hseverity : (nextNamed "severity").length = 14 := by decide
  have hlabel := length_printText_le .json d.severity.label
  have hplace := length_print_placePieces_le d.place
  have hmember (name : String) (field : Field) (h : (nextNamed name).length ≤ 17) :
      (print .json (layout.fieldPieces d (nextNamed name ++ ['"']) field ['"'])).length ≤
        19 + 6 * (m + 3) + 6 * (field.fullText d).length := by
    have hbound := length_print_fieldPieces_le hcuts hlimit d .json (nextNamed name ++ ['"'])
      field ['"']
    simp only [List.length_append, List.length_singleton] at hbound
    omega
  have hmessage := hmember "message" .message (by decide)
  have hlocale := hmember "locale_name" .localeName (by decide)
  have hsetting := hmember "attribute" .setting (by decide)
  have hlocation := hmember "location" .location (by decide)
  have hhint := hmember "hint" .hint (by decide)
  simp only [recordPieces, Style.fullTexts, Style.shown, Style.printText, Json.printText,
    print_append, print_cons, print_nil, Piece.print, List.length_append, List.length_cons,
    List.length_nil, List.flatMap_cons, List.flatMap_nil] at *
  omega

theorem length_write_le (d : Diagnostic) :
    (layout.write d).length ≤ 256 + 30 * (m + 3) + 6 * d.severity.label.length +
      placeDigits d.place + 6 * (layout.style.fullTexts d).length := by
  rw [← String.length_toList, toList_write, pieces]
  cases layout.style with
  | rust =>
    have hreport := length_print_reportPieces_le hcuts hlimit d
    exact Nat.le_trans hreport (by omega)
  | simple =>
    have hmessage :=
      length_print_fieldPieces_le hcuts hlimit d .simple (d.code.name ++ ": ").toList .message []
    have hname := length_name_le d.code
    simp [Style.fullTexts, Style.shown, String.length_toList] at hmessage ⊢
    omega
  | json => exact length_print_recordPieces_le hcuts hlimit d

end

theorem length_le_write {text : String} (hshown : field ∈ layout.style.shown)
    (hfull : field.isCut = false) (htext : text ∈ field.text? d) :
    text.length ≤ (layout.write d).length := by
  have hmem : .content field text ∈ layout.pieces d := by
    rw [content_mem_pieces, shownText?, Option.mem_def.mp htext]
    exact ⟨hshown, by simp [hfull]⟩
  have hpart : (layout.style.printText text).length ≤ (layout.write d).toList.length := by
    have hprinted : layout.style.printText text ∈ (layout.pieces d).map (·.print layout.style) :=
      List.mem_map.mpr ⟨_, hmem, rfl⟩
    rw [toList_write, print, List.flatMap_def]
    exact (List.sublist_flatten_of_mem hprinted).length_le
  rw [String.length_toList] at hpart
  exact Nat.le_trans (length_le_printText layout.style text) hpart

/-- A text as long as one wants to have it stands in what is written, unless that is a line. -/
theorem bounded_iff_simple (hcuts : layout.cuts = true) (hlimit : layout.limit = m) :
    (∃ bound, ∀ d : Diagnostic, d.place = none → d.severity = .error →
      (layout.write d).length ≤ bound) ↔ layout.style = .simple := by
  constructor
  · rintro ⟨bound, hbound⟩
    let text := String.ofList (List.replicate (bound + 1) 'x')
    let d : Diagnostic := { code := .unknownLocale, message := "", localeName := some text }
    have hlength : text.length = bound + 1 := by simp [text]
    have htext : text ∈ Field.localeName.text? d := by
      have hsome : text ≠ "" := by
        rintro hempty
        simp [hempty] at hlength
      simp [Field.text?, filled, d, hsome]
    by_contra hstyle
    have hshown : .localeName ∈ layout.style.shown := by
      cases h : layout.style with
      | simple => exact absurd h hstyle
      | _ => simp [Style.shown]
    have hwritten := length_le_write hshown rfl htext
    have hwithin := hbound d rfl rfl
    omega
  · intro hstyle
    refine ⟨256 + 30 * (m + 3) + 6 * "error".length, fun d hplace hseverity => ?_⟩
    have hwritten := length_write_le hcuts hlimit d
    simpa [Style.fullTexts, Field.fullText, Field.isCut, Style.shown, placeDigits,
      Diagnostic.Severity.label, hstyle, hplace, hseverity] using hwritten

/-- A layout that cuts at `m` writes the pieces of a diagnostic one after the other.  Messages and
hints are cut where they are longer, and the other texts stand in full; so all that is shown is cut
only if each of them has `m` characters at most or looks as if it had been cut.  What is written
grows with these texts alone, and for a single line, which shows none of them, it stays bounded. -/
theorem contents_of_cutting (hcuts : layout.cuts = true) (hlimit : layout.limit = m) :
    (∀ d, (layout.write d).toList = print layout.style (layout.pieces d) ∧
      (∀ field shown, .content field shown ∈ layout.pieces d ↔ field ∈ layout.style.shown ∧
        ∃ text ∈ field.text? d, shown = if field.isCut then shorten m text else text) ∧
      (layout.ShowsCut m d ↔ ∀ field ∈ layout.style.shown, field.isCut = false →
        ∀ text ∈ field.text? d,
          text.length ≤ m ∨ text = String.ofList (text.toList.take m) ++ "...") ∧
      (∀ field ∈ layout.style.shown, field.isCut = false → ∀ text ∈ field.text? d,
        text.length ≤ (layout.write d).length) ∧
      (layout.write d).length ≤ 256 + 30 * (m + 3) + 6 * d.severity.label.length +
        placeDigits d.place + 6 * (layout.style.fullTexts d).length) ∧
      ((∃ bound, ∀ d : Diagnostic, d.place = none → d.severity = .error →
        (layout.write d).length ≤ bound) ↔ layout.style = .simple) := by
  refine ⟨fun d => ⟨layout.toList_write d, fun field shown => ?_, showsCut_iff hcuts hlimit,
    fun _ hshown hfull _ htext => length_le_write hshown hfull htext,
    length_write_le hcuts hlimit d⟩, bounded_iff_simple hcuts hlimit⟩
  rw [content_mem_pieces, shownText?_eq_some_iff hcuts hlimit]

theorem contents_of_cutting_record :
    let layout : Layout := { style := .json, cuts := true, limit := 2 }
    let d : Diagnostic :=
      { code := .definitionLoadFailed, message := "abcde", localeName := some "ab",
        setting := some "ab...", location := some "a.json", hint := some "" }
    layout.cuts = true ∧ layout.limit = 2 ∧
      .content .message "ab..." ∈ layout.pieces d ∧ .content .location "a.json" ∈ layout.pieces d ∧
      ¬layout.ShowsCut 2 d ∧ (layout.write d).length ≤ 514 ∧
      ¬∃ bound, ∀ d : Diagnostic, d.place = none → d.severity = .error →
        (layout.write d).length ≤ bound := by
  intro layout d
  have hcuts : layout.cuts = true := rfl
  have hlimit : layout.limit = (2 : Nat) := rfl
  obtain ⟨hwritten, hbounded⟩ := contents_of_cutting hcuts hlimit
  obtain ⟨-, hcontent, hcut, -, hlength⟩ := hwritten d
  have hmessage : "ab..." = shorten 2 "abcde" := by decide
  refine ⟨hcuts, hlimit, ?_, ?_, ?_, ?_, ?_⟩
  · exact (hcontent .message "ab...").mpr ⟨by decide, "abcde", rfl, hmessage⟩
  · exact (hcontent .location "a.json").mpr ⟨by decide, "a.json", by decide, rfl⟩
  · intro h
    have := hcut.mp h .location (by decide) rfl "a.json" (by decide)
    revert this
    decide
  · have hbound : 256 + 30 * (2 + 3) + 6 * d.severity.label.length + placeDigits d.place +
        6 * (layout.style.fullTexts d).length = 514 := by decide
    omega
  · rw [hbounded]
    decide

/-- A text that is cut in the message stands in full on the line below. -/
theorem not_showsCut_report :
    let layout : Layout := { style := .rust, cuts := true, limit := 2 }
    let d : Diagnostic :=
      { code := .duplicateLocale, message := "abcde", localeName := some "abcde" }
    layout.write d = "error[DUPLICATE_LOCALE]: ab...\n  = locale: abcde" ∧
      ¬layout.ShowsCut 2 d := by
  intro layout d
  have hcuts : layout.cuts = true := rfl
  have hlimit : layout.limit = (2 : Nat) := rfl
  refine ⟨by decide +kernel, ?_⟩
  rw [showsCut_iff hcuts hlimit]
  intro h
  have := h .localeName (by decide) rfl "abcde" (by decide)
  revert this
  decide

end Layout

end Vernacular
