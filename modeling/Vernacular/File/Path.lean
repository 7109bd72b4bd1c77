/-!
# Paths

A path is cut at its slashes; empty parts and parts that are a single dot say nothing and are
dropped, while two dots are kept, since where they lead depends on the directories there are.
-/

namespace Vernacular

structure Path where
  /-- Empty for a path from the working directory, otherwise its first slash or two slashes. -/
  root : String
  parts : List String
deriving DecidableEq, Repr

namespace Path

/-- Cuts a text at every slash. -/
def cut : List Char → List (List Char)
  | [] => [[]]
  | '/' :: rest => [] :: cut rest
  | c :: rest =>
    match cut rest with
    | [] => [[c]]
    | part :: parts => (c :: part) :: parts

/-- Exactly two slashes at the head of a path stay two; any other number counts as one. -/
def rootOf (text : List Char) : String :=
  match (text.takeWhile (· = '/')).length with
  | 0 => ""
  | 2 => "//"
  | _ => "/"

def isSilent (part : List Char) : Bool := part = [] ∨ part = ['.']

def ofString (text : String) : Path where
  root := rootOf text.toList
  parts := ((cut text.toList).filter (fun part => !isSilent part)).map String.ofList

def isAbsolute (p : Path) : Bool := p.root ≠ ""

def hasNull (p : Path) : Bool := p.parts.any (fun part => part.toList.contains '\x00')

def toString (p : Path) : String :=
  if p.root = "" ∧ p.parts = [] then "." else p.root ++ "/".intercalate p.parts

end Path

end Vernacular
