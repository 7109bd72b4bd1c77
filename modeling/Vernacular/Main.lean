import Vernacular.CommandLine.Run

/-!
# The program

Lets a command line run in the real world: reads the files that it may ask for, prints what it
says, and writes the file that it ends with.  Help and complaints are worded here.
-/

namespace Vernacular.Main

/-- The number of an error, which may be reported with its sign turned. -/
def errorNumber (number : UInt32) : Nat := min number.toNat (-number).toNat

/-- What the operating system found wrong with a file. -/
def troubleOf : IO.Error → File.Trouble
  | .noFileOrDirectory .. => .missing
  | .inappropriateType _ number details =>
    match errorNumber number with
    | 20 => .notDirectory
    | 21 => .isDirectory
    | other => .other other details
  | .permissionDenied _ number _ => .other (errorNumber number) "Permission denied"
  | e => .other 5 e.toString

def attempt {α : Type} (path : Path) (action : IO α) : IO (Except File.Refusal α) := do
  if path.hasNull then return .error .nullInPath
  match ← action.toBaseIO with
  | .ok value => return .ok value
  | .error e => return .error (.system ⟨troubleOf e, path⟩)

def readFile (path : Path) : IO (Except File.Refusal (List UInt8)) :=
  attempt path (return (← IO.FS.readBinFile path.toString).toList)

def usage : String :=
  "usage: gbstranslator COMMAND [OPTION]... [CODE]\n" ++
  "\n" ++
  "commands:\n" ++
  "  translate     translate code from one locale to another\n" ++
  "  to-tokens     convert localized code to abstract tokens\n" ++
  "  from-tokens   convert abstract tokens to localized code\n" ++
  "  locales       list the registered locales\n" ++
  "\n" ++
  "options:\n" ++
  "  -f, --from LOCALE           locale of the code that is read\n" ++
  "  -t, --to LOCALE             locale of the code that is written\n" ++
  "  -i, --in FILE               read code from FILE\n" ++
  "  -o, --out FILE              write the result to FILE\n" ++
  "  -n, --names JSON|@FILE      identifiers to rename\n" ++
  "      --include-names         rename them\n" ++
  "  -L, --locales JSON|@FILE    more locale definitions\n" ++
  "      --prefix TEXT           what abstract tokens begin with\n" ++
  "      --suffix TEXT           what abstract tokens end with\n" ++
  "  -v, --verbose               log to standard error\n" ++
  "  -h, --help                  show this text\n" ++
  "      --version               show the version\n"

def complaint : CommandLine.UsageError → String
  | .ambiguous argument => s!"ambiguous option: {argument}"
  | .missingValue flag => s!"{flag.spellings} expects a value"
  | .unexpectedValue flag => s!"{flag.spellings} takes no value"
  | .missingCommand => "a command is required"
  | .unknownCommand name => s!"unknown command: {name}"
  | .missingOption flag => s!"{flag.spellings} is required"
  | .unrecognized => "unrecognized arguments"
  | .conflict message => message

def platform : CommandLine.Platform where
  decoder := .usual
  displayNames := none
  helpText _ := usage
  refusalText error := s!"gbstranslator: error: {complaint error}\n"

def fileNamed? (source : String) : Option String :=
  match Loading.Source.ofString source with
  | .file path => some path
  | .inline _ => none

/-- The files that an invocation may read. -/
def pathsRead : CommandLine.Invocation → List String
  | .convert common job =>
    let code :=
      match job.origin with
      | .file path => [path]
      | _ => []
    common.locales.toList.filterMap fileNamed? ++ job.names.toList.filterMap fileNamed? ++ code
  | .locales common => common.locales.toList.filterMap fileNamed?
  | _ => []

/-- Whether an invocation works on what comes from standard input. -/
def readsInput : CommandLine.Invocation → Bool
  | .convert _ job => job.origin == .standardInput
  | _ => false

/-- Looks at whatever of the world an invocation may ask for. -/
def survey (invocation : CommandLine.Invocation) : IO CommandLine.Surroundings := do
  let paths := (pathsRead invocation).map Path.ofString
  let contents ← paths.mapM (fun path => return (path, ← readFile path))
  let input ←
    if readsInput invocation then
      pure (← (← IO.getStdin).readBinToEnd).toList
    else pure []
  let environment ← LocaleName.environmentKeys.mapM (fun key => return (key, ← IO.getEnv key))
  return {
    platform
    files := fun path => (contents.lookup path).getD (.error (.system ⟨.missing, path⟩))
    input
    environment := fun key => (environment.lookup key).join }

def finish (outcome : CommandLine.Outcome) : IO UInt32 := do
  IO.print outcome.output
  IO.eprint outcome.messages
  IO.eprint ((outcome.crash.map Crash.line).getD "")
  return UInt32.ofNat outcome.status

def perform : CommandLine.Ending → IO UInt32
  | .done outcome => finish outcome
  | .save path text saved failed => do
    match ← attempt path (IO.FS.Handle.mk path.toString .write) with
    | .error refusal => finish (failed (.ofRefusal refusal))
    | .ok handle =>
      match text.narrow with
      | .error stray => finish (failed (.crashed (.unencodable stray)))
      | .ok plain =>
        handle.putStr plain
        finish saved

end Vernacular.Main

def main (arguments : List String) : IO UInt32 := do
  match Vernacular.CommandLine.Invocation.parse arguments with
  | .error error =>
    Vernacular.Main.finish (Vernacular.CommandLine.refused Vernacular.Main.platform error)
  | .ok invocation =>
    let world ← Vernacular.Main.survey invocation
    Vernacular.Main.perform (invocation.run world)
