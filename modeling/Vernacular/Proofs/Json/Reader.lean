import Vernacular.Json.Reader
import Vernacular.Proofs.Dictionary
import Vernacular.Proofs.Json.Lexeme
import Vernacular.Proofs.Json.Limits

/-!
# What reading keeps

No object that is read has a name twice, at whatever depth it stands.  A text that is refused is
refused for a fault that lies in it.  Both are kept, or found, lexeme by lexeme.
-/

namespace Vernacular.Json

/-- No object has a name twice, at any depth. -/
inductive Tidy : Json → Prop
  | scalar {value : Json} (h : isScalar value = true) : Tidy value
  | list {items : List Json} (h : ∀ item ∈ items, Tidy item) : Tidy (.list items)
  | object {members : List (Wide × Json)} (hnames : (members.map Prod.fst).Nodup)
      (h : ∀ member ∈ members, Tidy member.2) : Tidy (.object members)

theorem tidy_ofMembers {members : List (Wide × Json)} (h : ∀ member ∈ members, Tidy member.2) :
    Tidy (ofMembers members) := by
  refine .object (Dictionary.ofList members).nodup_keys fun member hmember => ?_
  exact Dictionary.forall_values_ofList h member.2 (Dictionary.mem_values_of_mem hmember)

/-! ## Steps -/

def Frame.Tidy : Frame → Prop
  | list items => ∀ item ∈ items, item.Tidy
  | object members _ => ∀ member ∈ members, member.2.Tidy

def Mode.Tidy : Mode → Prop
  | name members _ => ∀ member ∈ members, member.2.Tidy
  | colon members _ => ∀ member ∈ members, member.2.Tidy
  | after found => found.Tidy
  | _ => True

namespace Reader

variable {r next last : Reader} {frames : List Frame} {x : Lexeme} {xs : List Lexeme}
  {text : List Char} {fault : Fault} {decoder : Decoder}

structure Tidy (r : Reader) : Prop where
  mode : r.mode.Tidy
  frames : ∀ frame ∈ r.frames, frame.Tidy

theorem tidy_start : start.Tidy := ⟨trivial, by simp [start]⟩

theorem tidy_readValue (hframes : ∀ frame ∈ frames, frame.Tidy) (hx : x.StandsIn text)
    (h : readValue frames x = .ok next) : next.Tidy := by
  unfold readValue at h
  split at h
  · next value htoken =>
    cases h
    exact ⟨.scalar (hx.scalar value htoken), hframes⟩
  · cases h
    exact ⟨.scalar rfl, hframes⟩
  · cases h
    exact ⟨trivial, hframes⟩
  · cases h
    exact ⟨List.forall_mem_nil _, hframes⟩
  · cases h
  · cases h

theorem tidy_readFirstItem (hframes : ∀ frame ∈ frames, frame.Tidy) (hx : x.StandsIn text)
    (h : readFirstItem frames x = .ok next) : next.Tidy := by
  unfold readFirstItem at h
  split at h
  · cases h
    exact ⟨.list (List.forall_mem_nil _), hframes⟩
  · have hempty : (Frame.list []).Tidy := by simp [Frame.Tidy]
    exact tidy_readValue (List.forall_mem_cons.mpr ⟨hempty, hframes⟩) hx h

theorem tidy_readName {members : List (Wide × Json)} {mayEnd : Bool}
    (hframes : ∀ frame ∈ frames, frame.Tidy) (hmembers : ∀ member ∈ members, member.2.Tidy)
    (h : readName frames members mayEnd x = .ok next) : next.Tidy := by
  unfold readName at h
  split at h
  · cases h
    exact ⟨hmembers, hframes⟩
  · cases h
  · split at h
    · cases h
      exact ⟨tidy_ofMembers (by simpa using hmembers), hframes⟩
    · cases h
  · cases h

theorem tidy_readColon {members : List (Wide × Json)} {name : Wide}
    (hframes : ∀ frame ∈ frames, frame.Tidy) (hmembers : ∀ member ∈ members, member.2.Tidy)
    (h : readColon frames members name x = .ok next) : next.Tidy := by
  unfold readColon at h
  split at h
  · cases h
    exact ⟨trivial, List.forall_mem_cons.mpr ⟨hmembers, hframes⟩⟩
  · cases h

theorem tidy_readAfter {value : Json} (hframes : ∀ frame ∈ frames, frame.Tidy)
    (hvalue : value.Tidy) (h : readAfter decoder value x frames = .ok next) : next.Tidy := by
  unfold readAfter at h
  split at h
  · cases h
  · next items outer =>
    obtain ⟨hitems, houter⟩ := List.forall_mem_cons.mp hframes
    have hall : ∀ item ∈ value :: items, item.Tidy := List.forall_mem_cons.mpr ⟨hvalue, hitems⟩
    split at h
    · split at h <;> cases h
      exact ⟨trivial, List.forall_mem_cons.mpr ⟨hall, houter⟩⟩
    · cases h
      exact ⟨.list fun item hitem => hall item (List.mem_reverse.mp hitem), houter⟩
    · cases h
  · next members name outer =>
    obtain ⟨hmembers, houter⟩ := List.forall_mem_cons.mp hframes
    have hall : ∀ member ∈ (name, value) :: members, member.2.Tidy :=
      List.forall_mem_cons.mpr ⟨hvalue, hmembers⟩
    split at h
    · split at h <;> cases h
      exact ⟨hall, houter⟩
    · cases h
      exact ⟨tidy_ofMembers fun member hmember => hall member (List.mem_reverse.mp hmember),
        houter⟩
    · cases h

theorem Tidy.step (hr : r.Tidy) (hx : x.StandsIn text) (h : r.step decoder x = .ok next) :
    next.Tidy := by
  obtain ⟨mode, frames⟩ := r
  obtain ⟨hmode, hframes⟩ := hr
  cases mode with
  | value => exact tidy_readValue hframes hx h
  | firstItem => exact tidy_readFirstItem hframes hx h
  | name members mayEnd => exact tidy_readName hframes hmode h
  | colon members name => exact tidy_readColon hframes hmode h
  | after value => exact tidy_readAfter hframes hmode h

theorem readValue_eq_error (h : readValue frames x = .error fault) :
    x.token = .brokenString fault ∨ fault = ⟨.expectedValue, x.text⟩ := by
  unfold readValue at h
  split at h <;> cases h
  · exact .inl ‹_›
  · exact .inr rfl

theorem eq_of_blames {comma : List Char} {mark : Char} (h : decoder.blames comma mark = true) :
    (comma.tail.dropWhile isSpace).head? = some mark := by
  rw [Decoder.blames, Bool.and_eq_true, beq_iff_eq] at h
  exact h.2

/-- A lexeme is refused for a fault of its own, because it cannot stand where it does, or because it
is a comma that should not be there. -/
theorem step_eq_error (h : r.step decoder x = .error fault) :
    x.token = .brokenString fault ∨
      fault.rest = x.text ∧ (fault.problem ∈ [.expectedValue, .expectedName, .expectedColon,
        .expectedComma, .extraData] ∨
      x.token = .comma ∧ ∃ mark, decoder.blames x.text mark = true ∧
        (mark, fault.problem) ∈ [(']', .commaInList), ('\x7d', .commaInObject)]) := by
  obtain ⟨mode, frames⟩ := r
  cases mode with
  | value =>
    rcases readValue_eq_error h with hbroken | rfl
    · exact .inl hbroken
    · exact .inr ⟨rfl, .inl (by simp)⟩
  | firstItem =>
    simp only [step, readFirstItem] at h
    split at h
    · cases h
    · rcases readValue_eq_error h with hbroken | rfl
      · exact .inl hbroken
      · exact .inr ⟨rfl, .inl (by simp)⟩
  | name members mayEnd =>
    simp only [step, readName] at h
    split at h
    · cases h
    · cases h
      exact .inl ‹_›
    · split at h <;> cases h
      exact .inr ⟨rfl, .inl (by simp)⟩
    · cases h
      exact .inr ⟨rfl, .inl (by simp)⟩
  | colon members name =>
    simp only [step, readColon] at h
    split at h <;> cases h
    exact .inr ⟨rfl, .inl (by simp)⟩
  | after value =>
    simp only [step, readAfter] at h
    split at h
    · cases h
      exact .inr ⟨rfl, .inl (by simp)⟩
    · split at h
      · next hcomma =>
        split at h <;> cases h
        exact .inr ⟨rfl, .inr ⟨hcomma, ']', ‹_›, by simp⟩⟩
      · cases h
      · cases h
        exact .inr ⟨rfl, .inl (by simp)⟩
    · split at h
      · next hcomma =>
        split at h <;> cases h
        exact .inr ⟨rfl, .inr ⟨hcomma, '\x7d', ‹_›, by simp⟩⟩
      · cases h
      · cases h
        exact .inr ⟨rfl, .inl (by simp)⟩

theorem foundIn_of_step (hx : x.StandsIn text) (h : r.step decoder x = .error fault) :
    fault.FoundIn text := by
  rcases step_eq_error h with hbroken | ⟨hrest, hproblem | ⟨hcomma, mark, hblames, hproblem⟩⟩
  · exact hx.broken fault hbroken
  · obtain ⟨c, rest, htext, hspace⟩ := hx.starts
    refine ⟨hrest ▸ hx.suffix, ?_⟩
    simp only [List.mem_cons, List.not_mem_nil, or_false] at hproblem
    rcases hproblem with hproblem | hproblem | hproblem | hproblem | hproblem <;>
      simp [hproblem, hrest, htext, hspace, Problem.Shows]
  · have hshows := And.intro (hx.comma hcomma) (eq_of_blames hblames)
    refine ⟨hrest ▸ hx.suffix, ?_⟩
    simp only [List.mem_cons, List.not_mem_nil, or_false, Prod.mk.injEq] at hproblem
    rcases hproblem with ⟨rfl, hproblem⟩ | ⟨rfl, hproblem⟩
    all_goals rwa [hproblem, hrest, Problem.Shows]

/-! ## Runs -/

theorem Tidy.run (hr : r.Tidy) (hxs : ∀ x ∈ xs, x.StandsIn text)
    (h : r.run decoder xs = .ok last) : last.Tidy := by
  induction xs generalizing r with
  | nil =>
    cases h
    exact hr
  | cons x xs ih =>
    obtain ⟨hx, hlater⟩ := List.forall_mem_cons.mp hxs
    obtain ⟨next, hstep, hrun⟩ := run_cons_eq_ok_iff.mp h
    exact ih (hr.step hx (stepWithin_eq_ok_iff.mp hstep).2) hlater hrun

theorem foundIn_of_run (hxs : ∀ x ∈ xs, x.StandsIn text)
    (h : r.run decoder xs = .error (.fault fault)) : fault.FoundIn text := by
  induction xs generalizing r with
  | nil => cases h
  | cons x xs ih =>
    obtain ⟨hx, hlater⟩ := List.forall_mem_cons.mp hxs
    rcases run_cons_eq_error_iff.mp h with hstep | ⟨next, -, hrun⟩
    · exact foundIn_of_step hx (stepWithin_eq_fault_iff.mp hstep).2
    · exact ih hlater hrun

theorem Tidy.finish {value : Json} (hr : r.Tidy) (h : r.finish = .ok value) : value.Tidy := by
  obtain ⟨mode, frames⟩ := r
  cases mode <;> cases frames <;> cases h
  exact hr.mode

/-- What is missing at the end is expected there, and the end shows nothing. -/
theorem foundIn_of_finish (h : r.finish = .error fault) : fault.FoundIn text := by
  unfold finish at h
  split at h <;> cases h <;> exact ⟨List.nil_suffix, by simp [Problem.Shows]⟩

end Reader

variable {decoder : Decoder} {text : List Char}

theorem tidy_of_read {value : Json} (h : read decoder text = .ok value) : value.Tidy := by
  unfold read at h
  split at h
  · cases h
  · obtain ⟨last, hrun, hfinish⟩ := except_bind_eq_ok_iff.mp h
    exact (Reader.tidy_start.run (fun _ => standsIn_of_mem_lexemes) hrun).finish
      (except_mapError_eq_ok_iff.mp hfinish)

theorem foundIn_of_read {fault : Fault} (h : read decoder text = .error (.fault fault)) :
    fault.FoundIn text := by
  unfold read at h
  split at h
  · cases h
    exact ⟨List.suffix_rfl, rfl⟩
  · rcases except_bind_eq_error_iff.mp h with hrun | ⟨last, -, hfinish⟩
    · exact Reader.foundIn_of_run (fun _ => standsIn_of_mem_lexemes) hrun
    · obtain ⟨_, hfound, hfault⟩ := except_mapError_eq_error_iff.mp hfinish
      cases hfault
      exact Reader.foundIn_of_finish hfound

end Vernacular.Json
