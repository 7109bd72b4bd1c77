/-!
# Log records

The library writes no log.  What it would like to have logged it returns next to its results, in
order, and the caller decides what becomes of the records.
-/

namespace Vernacular

namespace Log

inductive Level where
  | debug
  | warning
deriving DecidableEq, Repr

def Level.name : Level → String
  | debug => "DEBUG"
  | warning => "WARNING"

/-- The part of the library that a record comes from. -/
inductive Channel where
  | registry
  | translator
  | loading
  | commandLine
deriving DecidableEq, Repr

def Channel.name : Channel → String
  | registry => "gbstranslator.locales.registry"
  | translator => "gbstranslator.translation.translator"
  | loading => "gbstranslator.loading"
  | commandLine => "gbstranslator.cli"

structure Record where
  level : Level
  channel : Channel
  message : String
deriving DecidableEq, Repr

def Record.line (r : Record) : String := s!"{r.level.name} {r.channel.name}: {r.message}"

end Log

/-- A result together with the records that its computation left, in order. -/
structure Logged (α : Type) where
  records : List Log.Record
  result : α

namespace Logged

variable {α β ε : Type}

def silent (result : α) : Logged α := ⟨[], result⟩

def map (f : α → β) (l : Logged α) : Logged β := ⟨l.records, f l.result⟩

def after (records : List Log.Record) (l : Logged α) : Logged α := ⟨records ++ l.records, l.result⟩

/-- Goes on with a result, unless it is an error; records are kept either way. -/
def andThen (l : Logged (Except ε α)) (next : α → Logged (Except ε β)) : Logged (Except ε β) :=
  match l.result with
  | .error e => ⟨l.records, .error e⟩
  | .ok a => (next a).after l.records

/-- Words the records anew. -/
def reword (f : String → String) (l : Logged α) : Logged α :=
  ⟨l.records.map (fun record => { record with message := f record.message }), l.result⟩

def mapError {ε' : Type} (f : ε → ε') (l : Logged (Except ε α)) : Logged (Except ε' α) :=
  l.map (Except.mapError f)

end Logged

end Vernacular
