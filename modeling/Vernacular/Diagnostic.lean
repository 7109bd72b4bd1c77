/-!
# Diagnostics

A diagnostic says what went wrong or looks suspicious: a stable code, a message, and whatever is
known about the locale, the setting and the place concerned.
-/

namespace Vernacular

/-! ## Places -/

/-- A stretch of a text, in characters from 0, with the line and column of its start, from 1. -/
structure Place where
  start : Nat
  stop : Nat
  line : Nat
  column : Nat
  start_le_stop : start ≤ stop
  line_pos : 1 ≤ line
  column_pos : 1 ≤ column
deriving DecidableEq, Repr

namespace Place

/-- Why four numbers are not a place. -/
inductive Fault where
  | negativeStart (start : Int)
  | stopBeforeStart (start stop : Int)
  | lineBelowOne (line : Int)
  | columnBelowOne (column : Int)
deriving DecidableEq, Repr

def Fault.message : Fault → String
  | negativeStart start => s!"SourceSpan.start must be >= 0, got {start}"
  | stopBeforeStart start stop => s!"SourceSpan.end ({stop}) must be >= start ({start})"
  | lineBelowOne line => s!"SourceSpan.line must be >= 1 (1-indexed), got {line}"
  | columnBelowOne column => s!"SourceSpan.column must be >= 1 (1-indexed), got {column}"

def ofBounds (start stop line column : Int) : Except Fault Place :=
  if _ : start < 0 then .error (.negativeStart start)
  else if _ : stop < start then .error (.stopBeforeStart start stop)
  else if _ : line < 1 then .error (.lineBelowOne line)
  else if _ : column < 1 then .error (.columnBelowOne column)
  else .ok ⟨start.toNat, stop.toNat, line.toNat, column.toNat, by omega, by omega, by omega⟩

/-- The place of one offset in a text.  An offset past the end is the end. -/
def ofOffset (text : List Char) (offset : Nat) : Place :=
  let read := text.take offset
  ⟨offset, offset, read.count '\n' + 1, (read.reverse.takeWhile (· ≠ '\n')).length + 1,
    Nat.le_refl _, Nat.le_add_left _ _, Nat.le_add_left _ _⟩

end Place

/-! ## Codes -/

namespace Diagnostic

inductive Code where
  | unknownLocale
  | unknownExtensionTarget
  | duplicateLocale
  | noSourceLocale
  | noDestinationLocale
  | noNameOverrides
  | definitionLoadFailed
  | definitionInvalidShape
  | incompleteLocale
  | unknownOverrideToken
deriving DecidableEq, Repr

namespace Code

def all : List Code :=
  [unknownLocale, unknownExtensionTarget, duplicateLocale, noSourceLocale, noDestinationLocale,
   noNameOverrides, definitionLoadFailed, definitionInvalidShape, incompleteLocale,
   unknownOverrideToken]

def name : Code → String
  | unknownLocale => "UNKNOWN_LOCALE"
  | unknownExtensionTarget => "UNKNOWN_EXTENSION_TARGET"
  | duplicateLocale => "DUPLICATE_LOCALE"
  | noSourceLocale => "NO_SOURCE_LOCALE"
  | noDestinationLocale => "NO_DESTINATION_LOCALE"
  | noNameOverrides => "NO_NAME_OVERRIDES"
  | definitionLoadFailed => "DEFINITION_LOAD_FAILED"
  | definitionInvalidShape => "DEFINITION_INVALID_SHAPE"
  | incompleteLocale => "INCOMPLETE_LOCALE"
  | unknownOverrideToken => "UNKNOWN_OVERRIDE_TOKEN"

/-- The number of a code: registration from 1000, settings from 2000, loading from 3000, warnings
from 4000. -/
def number : Code → Nat
  | unknownLocale => 1001
  | unknownExtensionTarget => 1002
  | duplicateLocale => 1003
  | noSourceLocale => 2001
  | noDestinationLocale => 2002
  | noNameOverrides => 2003
  | definitionLoadFailed => 3001
  | definitionInvalidShape => 3002
  | incompleteLocale => 4001
  | unknownOverrideToken => 4002

end Code

/-- How grave a diagnostic is.  Callers may use labels of their own. -/
inductive Severity where
  | error
  | warning
  | labelled (label : String)
deriving DecidableEq, Repr

def Severity.label : Severity → String
  | error => "error"
  | warning => "warning"
  | labelled label => label

def Severity.ofLabel (label : String) : Severity :=
  if label = "error" then error else if label = "warning" then warning else labelled label

end Diagnostic

structure Diagnostic where
  code : Diagnostic.Code
  message : String
  hint : Option String := none
  localeName : Option String := none
  /-- The setting concerned: a locale's role, the name overrides, or the extension of a locale. -/
  setting : Option String := none
  /-- The file or option that the content came from. -/
  location : Option String := none
  place : Option Place := none
  severity : Diagnostic.Severity := .error
deriving DecidableEq, Repr

end Vernacular
