import Vernacular.Loading
import Vernacular.Proofs.File.Text
import Vernacular.Proofs.Json.Limits
import Vernacular.Proofs.Locale.Registration
import Vernacular.Proofs.Text.Utf8

/-!
# What becomes of a load

A load ends with the shaped members of the object that its source holds, or it fails for the first
of five reasons: the file cannot be read, the text is no JSON, it goes beyond the limits of the
decoder, the value is no object, the members are not of the shape that was asked for.
-/

namespace Vernacular.Loading

variable {α : Type} {decoder : Json.Decoder} {files : Files} {source : Source} {text : List Char}
  {shape : List (Wide × Json) → Except ShapeFault α} {location given : String} {value : α}
  {abort : Abort}

/-! ## Contents -/

def Source.content (files : Files) : Source → Except Unread (List Char)
  | file path => fileText files path
  | inline text => .ok text.toList

theorem Source.result_text (files : Files) (location : String) (source : Source) :
    (source.text files location).result =
      (source.content files).mapError (Abort.ofUnread location) := by
  cases source with
  | inline text => rfl
  | file path =>
    rw [text, content]
    cases fileText files path <;> rfl

theorem Source.ofString_inline {text : String} (h : text.toList.head? ≠ some '@') :
    Source.ofString text = .inline text := by
  unfold Source.ofString
  split
  · next htext => simp [htext] at h
  · rfl

theorem content_ofList {text : List Char} (h : text.head? ≠ some '@') (files : Files) :
    (Source.ofString (String.ofList text)).content files = .ok text := by
  rw [← String.toList_ofList (l := text)] at h
  rw [Source.ofString_inline h, Source.content, String.toList_ofList]

theorem fileText_encode {path text : String}
    (hopened : files (Path.ofString path) = .ok (Utf8.encode text)) (hplain : '\r' ∉ text.toList) :
    fileText files path = .ok text.toList := by
  have hread := File.text_eq_ok_iff.mpr
    ⟨_, Utf8.decode_encode text, Text.unifyNewlines_eq_self_iff.mpr hplain⟩
  simp [fileText, hopened, hread, Except.mapError]

theorem members_eq_ok_iff {found : List (Wide × Json)} :
    members decoder location text = .ok found ↔ Json.read decoder text = .ok (.object found) := by
  unfold members
  split
  · next hread => simp [hread]
  · next hread => simp [hread]
  · next hread => simp [hread]
  · next other hother hread =>
    simp only [hread, reduceCtorEq, false_iff, Except.ok.injEq]
    exact hother found

theorem members_eq_error_iff :
    members decoder location text = .error abort ↔
      (∃ fault, Json.read decoder text = .error (.fault fault) ∧ .reported ⟨location,
        .malformed fault.problem (Place.ofOffset text (fault.offset text))⟩ = abort) ∨
      (∃ excess, Json.read decoder text = .error (.excess excess) ∧
        .crashed (.excess excess) = abort) ∨
      ∃ other, Json.read decoder text = .ok other ∧ (∀ found, other ≠ .object found) ∧
        .reported ⟨location, .misshapen (.notObject other.kindWord)⟩ = abort := by
  unfold members
  split
  · next hread => simp [hread]
  · next hread => simp [hread]
  · next found hread => simp [hread]
  · next other hother hread =>
    have hkind : ∀ found, other ≠ .object found := fun found heq => hother found (by rw [heq])
    simp [hread, hkind]

/-! ## Whole loads -/

inductive Loads (decoder : Json.Decoder) (files : Files)
    (shape : List (Wide × Json) → Except ShapeFault α) (source : Source) : α → Prop
  | intro {text : List Char} {found : List (Wide × Json)} {value : α}
      (hcontent : source.content files = .ok text)
      (hread : Json.read decoder text = .ok (.object found)) (hshape : shape found = .ok value) :
      Loads decoder files shape source value

inductive Fails (decoder : Json.Decoder) (files : Files)
    (shape : List (Wide × Json) → Except ShapeFault α) (source : Source) (location : String) :
    Abort → Prop
  | unread {unread : Unread} (hcontent : source.content files = .error unread) :
      Fails decoder files shape source location (.ofUnread location unread)
  | malformed {text : List Char} {fault : Json.Fault} (hcontent : source.content files = .ok text)
      (hread : Json.read decoder text = .error (.fault fault)) :
      Fails decoder files shape source location (.reported ⟨location,
        .malformed fault.problem (Place.ofOffset text (fault.offset text))⟩)
  | excessive {text : List Char} {excess : Json.Excess}
      (hcontent : source.content files = .ok text)
      (hread : Json.read decoder text = .error (.excess excess)) :
      Fails decoder files shape source location (.crashed (.excess excess))
  | notObject {text : List Char} {other : Json} (hcontent : source.content files = .ok text)
      (hread : Json.read decoder text = .ok other) (hother : ∀ found, other ≠ .object found) :
      Fails decoder files shape source location
        (.reported ⟨location, .misshapen (.notObject other.kindWord)⟩)
  | misshapen {text : List Char} {found : List (Wide × Json)} {fault : ShapeFault}
      (hcontent : source.content files = .ok text)
      (hread : Json.read decoder text = .ok (.object found)) (hshape : shape found = .error fault) :
      Fails decoder files shape source location (.reported ⟨location, .misshapen fault⟩)

/-- What the loaders have in common: they read members and then shape them. -/
def load (decoder : Json.Decoder) (files : Files)
    (shape : List (Wide × Json) → Except ShapeFault α) (message : α → String)
    (source given : String) : Logged (Except Abort α) :=
  (loadObject decoder files source given).andThen <|
    shaped ((Source.ofString source).location given) shape message

theorem loadNames_eq_load (decoder : Json.Decoder) (files : Files) :
    loadNames decoder files = load decoder files (texts none) namesMessage := rfl

theorem loadDefinitions_eq_load (decoder : Json.Decoder) (files : Files) :
    loadDefinitions decoder files = load decoder files definitions definitionsMessage := rfl

variable {message : α → String} {name : String}

theorem shaped_eq_ok_iff {found : List (Wide × Json)} :
    (shaped location shape message found).result = .ok value ↔ shape found = .ok value := by
  unfold shaped
  cases shape found <;> simp [Logged.silent]

theorem shaped_eq_error_iff {found : List (Wide × Json)} :
    (shaped location shape message found).result = .error abort ↔
      ∃ fault, shape found = .error fault ∧ .reported ⟨location, .misshapen fault⟩ = abort := by
  unfold shaped
  cases shape found <;> simp [Logged.silent]

theorem loadObject_eq_ok_iff {found : List (Wide × Json)} :
    (loadObject decoder files name given).result = .ok found ↔
      ∃ text, (Source.ofString name).content files = .ok text ∧
        Json.read decoder text = .ok (.object found) := by
  simp [loadObject, Logged.andThen_eq_ok_iff, Source.result_text, except_mapError_eq_ok_iff,
    Logged.silent, members_eq_ok_iff]

theorem loadObject_eq_error_iff :
    (loadObject decoder files name given).result = .error abort ↔
      (∃ unread, (Source.ofString name).content files = .error unread ∧
        .ofUnread ((Source.ofString name).location given) unread = abort) ∨
      ∃ text, (Source.ofString name).content files = .ok text ∧
        members decoder ((Source.ofString name).location given) text = .error abort := by
  simp [loadObject, Logged.andThen_eq_error_iff, Source.result_text, except_mapError_eq_ok_iff,
    except_mapError_eq_error_iff, Logged.silent]

theorem load_eq_ok_iff :
    (load decoder files shape message name given).result = .ok value ↔
      Loads decoder files shape (Source.ofString name) value := by
  rw [load, Logged.andThen_eq_ok_iff]
  simp only [loadObject_eq_ok_iff, shaped_eq_ok_iff]
  constructor
  · rintro ⟨found, ⟨text, hcontent, hread⟩, hshape⟩
    exact .intro hcontent hread hshape
  · rintro ⟨hcontent, hread, hshape⟩
    exact ⟨_, ⟨_, hcontent, hread⟩, hshape⟩

theorem load_eq_error_iff :
    (load decoder files shape message name given).result = .error abort ↔
      Fails decoder files shape (Source.ofString name) ((Source.ofString name).location given)
        abort := by
  rw [load, Logged.andThen_eq_error_iff]
  simp only [loadObject_eq_ok_iff, loadObject_eq_error_iff, members_eq_error_iff,
    shaped_eq_error_iff]
  constructor
  · rintro ((⟨unread, hcontent, rfl⟩ | ⟨text, hcontent, ⟨fault, hread, rfl⟩ |
      ⟨excess, hread, rfl⟩ | ⟨other, hread, hother, rfl⟩⟩) |
      ⟨found, ⟨text, hcontent, hread⟩, fault, hshape, rfl⟩)
    · exact .unread hcontent
    · exact .malformed hcontent hread
    · exact .excessive hcontent hread
    · exact .notObject hcontent hread hother
    · exact .misshapen hcontent hread hshape
  · intro h
    cases h with
    | unread hcontent => exact .inl (.inl ⟨_, hcontent, rfl⟩)
    | malformed hcontent hread => exact .inl (.inr ⟨_, hcontent, .inl ⟨_, hread, rfl⟩⟩)
    | excessive hcontent hread => exact .inl (.inr ⟨_, hcontent, .inr (.inl ⟨_, hread, rfl⟩)⟩)
    | notObject hcontent hread hother =>
      exact .inl (.inr ⟨_, hcontent, .inr (.inr ⟨_, hread, hother, rfl⟩)⟩)
    | misshapen hcontent hread hshape => exact .inr ⟨_, ⟨_, hcontent, hread⟩, _, hshape, rfl⟩

/-! ## Crashes -/

/-- Why there can be no report: the path is that of no file, or the text goes beyond the limits. -/
def Crashes (decoder : Json.Decoder) (files : Files) (source : Source) : Prop :=
  source.content files = .error .nullInPath ∨
    ∃ text, source.content files = .ok text ∧ Json.Exceeds decoder text

theorem ofUnread_eq_crashed_iff {unread : Unread} {crash : Crash} :
    Abort.ofUnread location unread = .crashed crash ↔
      unread = .nullInPath ∧ crash = .nullInPath := by
  cases unread <;> simp [Abort.ofUnread, eq_comm]

theorem members_eq_crashed_iff {crash : Crash} :
    members decoder location text = .error (.crashed crash) ↔
      ∃ excess, Json.read decoder text = .error (.excess excess) ∧ crash = .excess excess := by
  rw [members_eq_error_iff]
  simp [eq_comm]

theorem loadObject_crashes_iff :
    (∃ crash, (loadObject decoder files name given).result = .error (.crashed crash)) ↔
      Crashes decoder files (Source.ofString name) := by
  simp only [loadObject_eq_error_iff, ofUnread_eq_crashed_iff, members_eq_crashed_iff, Crashes,
    ← Json.exists_read_eq_excess_iff]
  constructor
  · rintro ⟨crash, ⟨_, hcontent, rfl, -⟩ | ⟨text, hcontent, excess, hread, -⟩⟩
    · exact .inl hcontent
    · exact .inr ⟨text, hcontent, excess, hread⟩
  · rintro (hcontent | ⟨text, hcontent, excess, hread⟩)
    · exact ⟨_, .inl ⟨_, hcontent, rfl, rfl⟩⟩
    · exact ⟨_, .inr ⟨text, hcontent, excess, hread, rfl⟩⟩

/-- The shape of members is always reported. -/
theorem load_crashes_iff :
    (∃ crash, (load decoder files shape message name given).result = .error (.crashed crash)) ↔
      Crashes decoder files (Source.ofString name) := by
  have hobject : (∃ crash, (loadObject decoder files name given).result = .error (.crashed crash)) ↔
      Crashes decoder files (Source.ofString name) := loadObject_crashes_iff
  rw [← hobject]
  simp [load, Logged.andThen_eq_error_iff, shaped_eq_error_iff]

end Vernacular.Loading
