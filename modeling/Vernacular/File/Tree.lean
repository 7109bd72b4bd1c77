import Vernacular.File.Fault
import Vernacular.Text.Newline

/-!
# Trees of files

A working directory with the files below it.  A directory is there as long as a file is below it.
Nothing is known of what lies outside the working directory, except that it is not empty: names
out there are missing.
-/

namespace Vernacular.File

structure Tree where
  /-- Contents by path, each path a list of names from the working directory on. -/
  files : List (List String × List UInt8)
deriving Repr

namespace Tree

def file? (t : Tree) (path : List String) : Option (List UInt8) := t.files.lookup path

def isDirectory (t : Tree) (path : List String) : Bool :=
  path.isEmpty || t.files.any (fun file => path.isPrefixOf file.1 && path ≠ file.1)

/-- Where a path leads. -/
inductive Spot where
  | file (path : List String) (content : List UInt8)
  | directory
  /-- Nothing is there, but the directory to hold it is. -/
  | free (path : List String)
  | trouble (t : Trouble)
deriving Repr

/-- Goes where the parts of a path lead, from a directory given by its path, or from outside. -/
def walk (t : Tree) : Option (List String) → List String → Spot
  | _, [] => .directory
  | none, part :: rest => if part = ".." then t.walk none rest else .trouble .missing
  | some here, part :: rest =>
    if part = ".." then
      t.walk (if here = [] then none else some here.dropLast) rest
    else
      match t.file? (here ++ [part]) with
      | some content =>
        if rest = [] then .file (here ++ [part]) content else .trouble .notDirectory
      | none =>
        if t.isDirectory (here ++ [part]) then t.walk (some (here ++ [part])) rest
        else if rest = [] then .free (here ++ [part])
        else .trouble .missing

def find (t : Tree) (path : Path) : Spot :=
  t.walk (if path.isAbsolute then none else some []) path.parts

def read (t : Tree) (path : Path) : Except Refusal (List UInt8) :=
  if path.hasNull then .error .nullInPath
  else
    match t.find path with
    | .file _ content => .ok content
    | .directory => .error (.system ⟨.isDirectory, path⟩)
    | .free _ => .error (.system ⟨.missing, path⟩)
    | .trouble trouble => .error (.system ⟨trouble, path⟩)

def put (t : Tree) (path : List String) (content : List UInt8) : Tree :=
  ⟨(path, content) :: t.files.filter (fun file => file.1 ≠ path)⟩

/-- Opens a file for writing: the place of the file, and the tree in which it is empty. -/
def create (t : Tree) (path : Path) : Except Refusal (List String × Tree) :=
  if path.hasNull then .error .nullInPath
  else
    match t.find path with
    | .file place _ => .ok (place, t.put place [])
    | .free place => .ok (place, t.put place [])
    | .directory => .error (.system ⟨.isDirectory, path⟩)
    | .trouble trouble => .error (.system ⟨trouble, path⟩)

/-- The files of a tree that are new or changed since an earlier one, by path. -/
def changesSince (now earlier : Tree) : List (String × List UInt8) :=
  let changed := now.files.filter (fun file => earlier.file? file.1 ≠ some file.2)
  (changed.map (fun file => ("/".intercalate file.1, file.2))).mergeSort
    (fun a b => decide (a.1 ≤ b.1))

end Tree

/-- The text that octets hold, with its line ends unified. -/
def text (octets : List UInt8) : Except Utf8.Fault (List Char) :=
  (Utf8.decode octets).map Text.unifyNewlines

end Vernacular.File
