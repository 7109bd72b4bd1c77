import Vernacular.CommandLine.Argument

/-!
# Invocations

What a whole command line asks for.  Options may stand before and after the code, options without
values may share one dash, and a request for help is granted as soon as it is read, whatever comes
after it.
-/

namespace Vernacular.CommandLine

/-! ## What can be asked for -/

/-- Where the code to work on is. -/
inductive Origin where
  | inline (code : String)
  | file (path : String)
  | standardInput
deriving DecidableEq, Repr

/-- Settings of every command. -/
structure Common where
  verbose : Bool := false
  locales : Option String := none
  affixes : Affixes := { }
deriving DecidableEq, Repr

structure Job where
  operation : Translator.Operation
  origin : Origin
  output : Option String
  names : Option String
  includeNames : Bool
  source : Option String
  destination : Option String
deriving DecidableEq, Repr

inductive Invocation where
  /-- Help on a command, or on the program. -/
  | help (command : Option Command)
  | version
  | convert (common : Common) (job : Job)
  | locales (common : Common)
deriving DecidableEq, Repr

/-! ## Options with their values -/

/-- The options that one argument stands for. -/
structure Bundle where
  uses : List (Flag × Option String)
  /-- A last option that may find its value in the next argument. -/
  pending : Option Flag
  /-- Whether something in the argument is no option. -/
  isStray : Bool
deriving DecidableEq, Repr

def Bundle.of (uses : List (Flag × Option String)) : Bundle := ⟨uses, none, false⟩

def Bundle.withFirst (flag : Flag) (b : Bundle) : Bundle :=
  { b with uses := (flag, none) :: b.uses }

/-- Reads the text attached to an option: its value, or, behind a single dash, more options. -/
def unbundle (flags : List Flag) (flag : Flag) (isShort afterEquals : Bool) :
    List Char → Except UsageError Bundle
  | [] => if flag.takesValue then .ok (.of [(flag, some "")]) else .error (.unexpectedValue flag)
  | c :: more =>
    if flag.takesValue then .ok (.of [(flag, some (String.ofList (c :: more)))])
    else if !isShort || afterEquals || c = '-' then .error (.unexpectedValue flag)
    else
      match flagSpelled? flags (String.ofList ['-', c]) with
      | none => .ok ⟨[(flag, none)], none, true⟩
      | some next =>
        match more with
        | [] => .ok ⟨[(flag, none)], some next, false⟩
        | '=' :: value => (unbundle flags next true true value).map (Bundle.withFirst flag)
        | letter :: others =>
          (unbundle flags next true false (letter :: others)).map (Bundle.withFirst flag)

def Bundle.read (flags : List Flag) (flag : Flag) (isShort : Bool) :
    Option Attached → Except UsageError Bundle
  | none => .ok ⟨[], some flag, false⟩
  | some attached => unbundle flags flag isShort attached.afterEquals attached.text

/-! ## Reading arguments in order -/

/-- What has been read of the arguments of a command. -/
structure Draft where
  values : List (Flag × Option String) := []
  code : Option String := none
  /-- Whether plain text can no longer be the code. -/
  settled : Bool
  /-- Whether some argument had no place. -/
  strays : Bool := false

def Draft.use (d : Draft) (uses : List (Flag × Option String)) : Draft :=
  { d with values := uses.reverse ++ d.values }

def Draft.settle (d : Draft) (code : Option String) : Draft := { d with code, settled := true }

def Draft.stray (d : Draft) : Draft := { d with strays := true }

/-- The value an option was last given. -/
def Draft.value? (d : Draft) (flag : Flag) : Option String := (d.values.lookup flag).join

def Draft.has (d : Draft) (flag : Flag) : Bool := (d.values.lookup flag).isSome

/-- Drops a double dash that directly follows the code. -/
def withoutDoubleDash : List Argument → List Argument
  | .doubleDash :: rest => rest
  | arguments => arguments

theorem length_withoutDoubleDash (arguments : List Argument) :
    (withoutDoubleDash arguments).length ≤ arguments.length := by
  unfold withoutDoubleDash
  split <;> simp

/-- The code that follows a double dash, and the arguments after it. -/
def codeAfterDash : List Argument → Option String × List Argument
  | .plain code :: rest => (some code, rest)
  | arguments => (none, arguments)

theorem length_codeAfterDash (arguments : List Argument) :
    (codeAfterDash arguments).2.length ≤ arguments.length := by
  unfold codeAfterDash
  split <;> simp

/-- The options of a bundle once the last one has found its value, and the arguments after that. -/
def Bundle.complete (b : Bundle) (rest : List Argument) :
    Except UsageError (List (Flag × Option String) × List Argument) :=
  match b.pending with
  | none => .ok (b.uses, rest)
  | some flag =>
    if flag.takesValue then
      match rest with
      | .plain value :: others => .ok (b.uses ++ [(flag, some value)], others)
      | _ => .error (.missingValue flag)
    else .ok (b.uses ++ [(flag, none)], rest)

theorem Bundle.length_complete {b : Bundle} {rest others : List Argument}
    {uses : List (Flag × Option String)} (h : b.complete rest = .ok (uses, others)) :
    others.length ≤ rest.length := by
  unfold Bundle.complete at h
  split at h
  · cases h
    exact Nat.le_refl _
  · split at h
    · split at h
      · cases h
        simp
      · cases h
    · cases h
      exact Nat.le_refl _

/-- Reads arguments in order, up to a request for help if there is one. -/
def Draft.read (flags : List Flag) (d : Draft) (arguments : List Argument) :
    Except UsageError Draft :=
  match arguments with
  | [] => .ok d
  | .plain text :: rest =>
    if d.settled then d.stray.read flags rest
    else (d.settle (some text)).read flags (withoutDoubleDash rest)
  | .doubleDash :: rest =>
    if d.settled then d.stray.read flags rest
    else (d.settle (codeAfterDash rest).1).read flags (codeAfterDash rest).2
  | .unknown _ :: rest => d.stray.read flags rest
  | .flag flag isShort attached :: rest =>
    match Bundle.read flags flag isShort attached with
    | .error e => .error e
    | .ok bundle =>
      match _ : bundle.complete rest with
      | .error e => .error e
      | .ok (uses, others) =>
        let next := d.use uses
        if next.has .help then .ok next
        else (if bundle.isStray then next.stray else next).read flags others
termination_by arguments.length
decreasing_by
  · simp
  · have := length_withoutDoubleDash rest
    simp only [List.length_cons]
    omega
  · simp
  · have := length_codeAfterDash rest
    simp only [List.length_cons]
    omega
  · simp
  · have := Bundle.length_complete ‹_›
    simp only [List.length_cons]
    omega

/-! ## Commands -/

def Draft.common (d : Draft) : Common where
  verbose := d.has .verbose
  locales := d.value? .locales
  affixes :=
    { opening := (d.value? .opening).getD Affixes.standard.opening
      closing := (d.value? .closing).getD Affixes.standard.closing }

def Draft.origin (d : Draft) : Except UsageError Origin :=
  match d.code, d.value? .input with
  | some _, some _ => .error (.conflict "give either CODE or --in, not both")
  | some code, none => .ok (.inline code)
  | none, some path => .ok (.file path)
  | none, none => .ok .standardInput

def Draft.job (d : Draft) (operation : Translator.Operation) : Except UsageError Job := do
  let origin ← d.origin
  return {
    operation
    origin
    output := d.value? .output
    names := d.value? .names
    includeNames := d.has .includeNames
    source := d.value? .source
    destination := d.value? .destination }

/-- What the arguments of a command come to; `strays` tells of arguments before the command that
had no place. -/
def Draft.invocation (d : Draft) (command : Command) (strays : Bool) :
    Except UsageError Invocation :=
  if d.has .help then .ok (.help (some command))
  else
    match (Flag.required command).find? (fun flag => !d.has flag) with
    | some flag => .error (.missingOption flag)
    | none =>
      if strays || d.strays then .error .unrecognized
      else
        match command with
        | .locales => .ok (.locales d.common)
        | .convert operation => (d.job operation).map (.convert d.common)

def readCommand (strays : Bool) (name : String) (arguments : List String) :
    Except UsageError Invocation :=
  match Command.ofName? name with
  | none => .error (.unknownCommand name)
  | some command => do
    let flags := Flag.ofCommand command
    let found ← classifyAll flags arguments
    let draft ← Draft.read flags { settled := command = .locales } found
    draft.invocation command strays

/-- Reads options up to the command, then the command.  The arguments are given both as they were
classified and as they were written. -/
def readBeforeCommand (strays : Bool) :
    List Argument → List String → Except UsageError Invocation
  | .plain name :: _, _ :: arguments => readCommand strays name arguments
  | .doubleDash :: _, _ => .error (.unknownCommand "--")
  | .unknown _ :: rest, _ :: arguments => readBeforeCommand true rest arguments
  | .flag flag isShort attached :: rest, _ :: arguments => do
    let bundle ← Bundle.read Flag.beforeCommand flag isShort attached
    let (uses, _) ← bundle.complete rest
    if (uses.lookup .help).isSome then return .help none
    else if (uses.lookup .version).isSome then return .version
    else readBeforeCommand (strays || bundle.isStray) rest arguments
  | _, _ => .error .missingCommand

/-- What the arguments of a command line ask for. -/
def Invocation.parse (arguments : List String) : Except UsageError Invocation := do
  let found ← classifyAll Flag.beforeCommand arguments
  readBeforeCommand false found arguments

end Vernacular.CommandLine
