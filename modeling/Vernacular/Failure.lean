import Vernacular.Diagnostic

/-!
# Failures

The failures that the library reports, as its users see them: a kind, which may be a special case
of another kind, and a message or a whole diagnostic.
-/

namespace Vernacular

namespace Failure

inductive Kind where
  | general
  | unknownLocale (localeName setting : String)
  | unknownExtensionTarget (localeName setting : String)
  | duplicateLocale (localeName : String)
  | noSourceLocale
  | noDestinationLocale
  | noNameOverrides
  | definitionLoad (location : String)
deriving DecidableEq, Repr

/-- The families that failures fall into.  Every failure is in `general`, and an unknown extension
target is also an unknown locale. -/
inductive Family where
  | general
  | unknownLocale
  | unknownExtensionTarget
  | duplicateLocale
  | noSourceLocale
  | noDestinationLocale
  | noNameOverrides
  | definitionLoad
deriving DecidableEq, Repr

namespace Family

def all : List Family :=
  [general, unknownLocale, unknownExtensionTarget, duplicateLocale, noSourceLocale,
   noDestinationLocale, noNameOverrides, definitionLoad]

/-- Whether every failure of the first family is one of the second. -/
def within (special broad : Family) : Bool :=
  special == broad || broad == general ||
    (special == unknownExtensionTarget && broad == unknownLocale)

end Family

def Kind.family : Kind → Family
  | general => .general
  | unknownLocale .. => .unknownLocale
  | unknownExtensionTarget .. => .unknownExtensionTarget
  | duplicateLocale _ => .duplicateLocale
  | noSourceLocale => .noSourceLocale
  | noDestinationLocale => .noDestinationLocale
  | noNameOverrides => .noNameOverrides
  | definitionLoad _ => .definitionLoad

inductive Report where
  | text (message : String)
  | diagnostic (diagnostic : Diagnostic)
deriving DecidableEq, Repr

def Report.message : Report → String
  | text message => message
  | diagnostic d => d.message

def Report.diagnostic? : Report → Option Diagnostic
  | text _ => none
  | diagnostic d => some d

end Failure

structure Failure where
  kind : Failure.Kind
  report : Failure.Report
deriving DecidableEq, Repr

namespace Failure

def message (f : Failure) : String := f.report.message

def diagnostic? (f : Failure) : Option Diagnostic := f.report.diagnostic?

/-- The families a failure belongs to, the broadest first. -/
def families (f : Failure) : List Family := Family.all.filter f.kind.family.within

end Failure

end Vernacular
