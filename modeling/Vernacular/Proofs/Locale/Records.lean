import Vernacular.Proofs.Locale.Acceptance

/-!
# What registration logs

A run of registrations logs what each of them logs, in order.  Each one meets the registry of the
definitions before it, and what it adds stays as it is until the end of the run.
-/

namespace Vernacular.Registry

variable {affixes : Affixes} {definitions : List (String × Definition)} {r registry : Registry}
  {name : String} {d : Definition} {place : Nat}

/-! ## The log of a run -/

theorem ofDefinitions_concat (affixes : Affixes) (definitions : List (String × Definition))
    (name : String) (d : Definition) :
    ofDefinitions affixes (definitions ++ [(name, d)]) =
      (ofDefinitions affixes definitions).andThen (fun r => r.register name d) := by
  rw [ofDefinitions, registerAll_append]
  exact congrArg _ (funext fun r => Logged.andThen_silent (r.register name d))

/-- What registering the definition at `place` logs after those before it were registered. -/
def loggedAt (affixes : Affixes) (definitions : List (String × Definition)) (place : Nat) :
    List Log.Record :=
  match (ofDefinitions affixes (definitions.take place)).result, definitions[place]? with
  | .ok earlier, some (name, d) => (earlier.register name d).records
  | _, _ => []

theorem loggedAt_append (later : List (String × Definition)) (hplace : place < definitions.length) :
    loggedAt affixes (definitions ++ later) place = loggedAt affixes definitions place := by
  unfold loggedAt
  rw [List.take_append_of_le_length (Nat.le_of_lt hplace), List.getElem?_append_left hplace]

/-- A run that is refused logs nothing more from there on, so this holds of every run. -/
theorem records_ofDefinitions (affixes : Affixes) (definitions : List (String × Definition)) :
    (ofDefinitions affixes definitions).records =
      (List.range definitions.length).flatMap (loggedAt affixes definitions) := by
  induction definitions using List.reverseRecOn with
  | nil => rfl
  | append_singleton definitions given ih =>
    obtain ⟨name, d⟩ := given
    have hearlier : ∀ place ∈ List.range definitions.length,
        loggedAt affixes (definitions ++ [(name, d)]) place = loggedAt affixes definitions place :=
      fun place hplace => loggedAt_append _ (List.mem_range.mp hplace)
    have hlast : loggedAt affixes (definitions ++ [(name, d)]) definitions.length =
        match (ofDefinitions affixes definitions).result with
        | .ok earlier => (earlier.register name d).records
        | .error _ => [] := by
      simp only [loggedAt, List.take_left, List.getElem?_concat_length]
      cases (ofDefinitions affixes definitions).result <;> rfl
    rw [List.length_append, List.length_singleton, List.range_succ, List.flatMap_append,
      List.flatMap_singleton, List.flatMap_congr hearlier, ← ih, hlast, ofDefinitions_concat,
      Logged.andThen]
    cases (ofDefinitions affixes definitions).result with
    | error error => simp
    | ok earlier => rfl

/-! ## Warnings -/

def warnings (records : List Log.Record) : List Log.Record :=
  records.filter (·.level = .warning)

def warningRecord (w : Diagnostic) : Log.Record := ⟨.warning, .registry, w.message⟩

theorem count_warnings {records : List Log.Record} (record : Log.Record)
    (h : record.level = .warning) : (warnings records).count record = records.count record :=
  List.count_filter (decide_eq_true h)

theorem warnings_recordsOver (r : Registry) (name : String) (d : Definition) (base : Base) :
    warnings (r.recordsOver name d base) = (r.warningsOver name d base).map warningRecord := by
  have hall : ((r.warningsOver name d base).map warningRecord).filter (·.level = .warning) =
      (r.warningsOver name d base).map warningRecord := by
    rw [List.filter_eq_self]
    intro record hrecord
    obtain ⟨w, -, rfl⟩ := List.mem_map.mp hrecord
    rfl
  change List.filter _ ((r.warningsOver name d base).map warningRecord ++ _) = _
  rw [List.filter_append, hall]
  exact List.append_nil _

/-! ## One registration of a run -/

theorem get?_of_registerAll {final : Registry}
    (hrun : (r.registerAll definitions).result = .ok final) (hname : name ∈ r.names) :
    final.get? name = r.get? name := by
  induction definitions generalizing r with
  | nil =>
    obtain rfl := Except.ok.inj hrun
    rfl
  | cons given rest ih =>
    obtain ⟨next, hregister, hrest⟩ := registerAll_cons_eq_ok_iff.mp hrun
    obtain ⟨base, ⟨hnew, -⟩, rfl⟩ := register_eq_ok_iff.mp hregister
    have hkept : name ∈ (r.addOver given.1 given.2 base).names := by
      rw [names_addOver given.2 base hnew]
      exact List.mem_append_left _ hname
    rw [ih hrest hkept, get?_addOver_of_mem hnew hname]

/-- In a run that comes to `registry`, the definition at `place` met the registry `earlier` and was
resolved over `base`.  What it added is there at the end, next to all that was there before it. -/
structure Registered (affixes : Affixes) (definitions : List (String × Definition))
    (registry : Registry) (place : Nat) (name : String) (d : Definition) (earlier : Registry)
    (base : Base) : Prop where
  before : (ofDefinitions affixes (definitions.take place)).result = .ok earlier
  admits : earlier.Admits d base
  kept : ∀ other ∈ earlier.names, registry.get? other = earlier.get? other
  added : registry.get? name = some ⟨d, Bimap.ofList (earlier.entriesOver d base)⟩
  logged : loggedAt affixes definitions place = earlier.recordsOver name d base

namespace Registered

variable {earlier : Registry} {base : Base}

theorem vocabulary?_eq (h : Registered affixes definitions registry place name d earlier base)
    {other : String} (hother : other ∈ earlier.names) :
    registry.vocabulary? other = earlier.vocabulary? other :=
  congrArg (Option.map ResolvedLocale.vocabulary) (h.kept other hother)

theorem vocabulary?_self (h : Registered affixes definitions registry place name d earlier base) :
    registry.vocabulary? name = some (Bimap.ofList (earlier.entriesOver d base)) :=
  congrArg (Option.map ResolvedLocale.vocabulary) h.added

end Registered

theorem exists_registered (haccepted : (ofDefinitions affixes definitions).result = .ok registry)
    (hplace : definitions[place]? = some (name, d)) :
    ∃ earlier base, Registered affixes definitions registry place name d earlier base := by
  rw [ofDefinitions, ← split_at_place hplace, registerAll_append_eq_ok_iff] at haccepted
  obtain ⟨earlier, hearlier, hrest⟩ := haccepted
  obtain ⟨next, hregister, hlater⟩ := registerAll_cons_eq_ok_iff.mp hrest
  obtain ⟨base, hadmitted, rfl⟩ := register_eq_ok_iff.mp hregister
  obtain ⟨hnew, hadmits⟩ := hadmitted
  have hnames := names_addOver d base hnew
  refine ⟨earlier, base, hearlier, hadmits, ?_, ?_, ?_⟩
  · intro other hother
    rw [get?_of_registerAll hlater (hnames ▸ List.mem_append_left _ hother),
      get?_addOver_of_mem hnew hother]
  · rw [get?_of_registerAll hlater (hnames ▸ List.mem_append_right _ (List.mem_singleton.mpr rfl)),
      get?_addOver_self]
  · have hadmit : earlier.admit? name d = .ok base := admit?_eq_ok_iff.mpr ⟨hnew, hadmits⟩
    have hbefore : (ofDefinitions affixes (definitions.take place)).result = .ok earlier := hearlier
    simp only [loggedAt, hbefore, hplace, register, hadmit]

end Vernacular.Registry
