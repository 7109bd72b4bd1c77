import Vernacular.Word.Separators

/-!
# Spans

A text falls into longest runs of word characters and of separators.  A span is one such run
together with its place in the text, counted in characters.
-/

namespace Vernacular

inductive SpanKind where
  | word
  | separator
deriving DecidableEq, Repr

namespace SpanKind

def all : List SpanKind := [.word, .separator]

def label : SpanKind → String
  | .word => "word"
  | .separator => "separator"

end SpanKind

structure Span where
  kind : SpanKind
  text : String
  start : Nat
  stop : Nat
deriving DecidableEq, Repr

def Span.isWord (s : Span) : Bool := s.kind == .word

namespace Separators

def kindOf (s : Separators) (c : Char) : SpanKind :=
  if s.contains c then .separator else .word

def alike (s : Separators) (c d : Char) : Bool := s.kindOf c == s.kindOf d

/-- The longest runs of one kind, in order. -/
def runs (s : Separators) (text : List Char) : List (List Char) := text.splitBy s.alike

end Separators

/-- A run placed at an offset; it is of the kind of its first character. -/
def Span.ofRun (s : Separators) (start : Nat) (run : List Char) : Span where
  kind := (run.head?.map s.kindOf).getD .separator
  text := String.ofList run
  start := start
  stop := start + run.length

/-- Places runs one after the other from an offset on. -/
def Span.ofRuns (s : Separators) : Nat → List (List Char) → List Span
  | _, [] => []
  | start, run :: rest => Span.ofRun s start run :: Span.ofRuns s (start + run.length) rest

/-- The spans of a text that starts at an offset. -/
def Separators.spansFrom (s : Separators) (start : Nat) (text : List Char) : List Span :=
  Span.ofRuns s start (s.runs text)

def Separators.spans (s : Separators) (text : String) : List Span := s.spansFrom 0 text.toList

end Vernacular
