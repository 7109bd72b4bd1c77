import Vernacular.Diagnostic
import Vernacular.Json.Flat
import Vernacular.Text.Quoted

/-!
# The layout of diagnostics

A diagnostic is written in the manner of a compiler report, as a single line, or as a JSON record.
A layout may cut long texts, and a report may colour the word for its severity.
-/

namespace Vernacular

namespace Layout

inductive Style where
  | rust
  | simple
  | json
deriving DecidableEq, Repr

namespace Style

def all : List Style := [rust, simple, json]

def label : Style → String
  | rust => "rust"
  | simple => "simple"
  | json => "json"

def ofLabel? (label : String) : Option Style := all.find? (fun style => style.label = label)

def unknownMessage (label : String) : String :=
  s!"{Quoted.quote label} is not a valid OutputFormat"

end Style

end Layout

structure Layout where
  style : Layout.Style := .rust
  /-- Whether messages and hints longer than `limit` are cut. -/
  cuts : Bool := false
  colours : Bool := false
  limit : Int := 100
deriving DecidableEq, Repr

namespace Layout

/-- The first `limit` characters; a negative limit leaves out that many at the end. -/
def keep (limit : Int) (text : String) : String :=
  let count := if limit < 0 then (text.length + limit).toNat else limit.toNat
  String.ofList (text.toList.take count)

/-- Cuts a text that is longer than the limit and marks the cut. -/
def cut (layout : Layout) (text : String) : String :=
  if layout.cuts && layout.limit < text.length then keep layout.limit text ++ "..." else text

/-- A text that is given and not empty. -/
def filled (text : Option String) : Option String := text.filter (fun t => t ≠ "")

/-! ## Reports -/

/-- The word for a severity at the head of a report: anything but a warning is an error. -/
def headWord : Diagnostic.Severity → String
  | .warning => "warning"
  | _ => "error"

def colourCode : Diagnostic.Severity → String
  | .warning => "33"
  | _ => "31"

def head (layout : Layout) (severity : Diagnostic.Severity) : String :=
  let word := headWord severity
  if layout.colours then s!"\x1b[1;{colourCode severity}m{word}\x1b[0m" else word

def whereLine (d : Diagnostic) : Option String :=
  (filled d.location).map fun location =>
    match d.place with
    | some place => s!"  --> {location}, line {place.line}, column {place.column}"
    | none => s!"  --> {location}"

def reportLines (layout : Layout) (d : Diagnostic) : List String :=
  [s!"{layout.head d.severity}[{d.code.name}]: {layout.cut d.message}"] ++
    (whereLine d).toList ++
    ((filled d.localeName).map (fun name => s!"  = locale: {name}")).toList ++
    ((filled d.hint).map (fun hint => s!"  = help: {layout.cut hint}")).toList

/-! ## Records -/

def textField (name : String) (text : Option String) : List (String × Json.Scalar) :=
  ((filled text).map (fun t => (name, Json.Scalar.text t))).toList

def placeFields : Option Place → List (String × Json.Scalar)
  | none => []
  | some place =>
    [("line", .number place.line), ("column", .number place.column),
     ("start", .number place.start), ("end", .number place.stop)]

def recordFields (layout : Layout) (d : Diagnostic) : List (String × Json.Scalar) :=
  [("code", .text d.code.name), ("code_value", .number d.code.number),
   ("message", .text (layout.cut d.message)), ("severity", .text d.severity.label)] ++
    textField "locale_name" d.localeName ++ textField "attribute" d.setting ++
    textField "location" d.location ++ placeFields d.place ++
    textField "hint" ((filled d.hint).map layout.cut)

/-! ## Writing -/

def write (layout : Layout) (d : Diagnostic) : String :=
  match layout.style with
  | .rust => "\n".intercalate (layout.reportLines d)
  | .simple => s!"{d.code.name}: {layout.cut d.message}"
  | .json => String.ofList (Json.printFlat (layout.recordFields d))

/-- Writes diagnostics one after the other with a blank line between them. -/
def writeAll (layout : Layout) (ds : List Diagnostic) : String :=
  "\n\n".intercalate (ds.map layout.write)

end Layout

end Vernacular
