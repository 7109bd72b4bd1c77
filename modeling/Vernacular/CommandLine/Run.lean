import Vernacular.CommandLine.Invocation
import Vernacular.Diagnostic.Layout
import Vernacular.Loading
import Vernacular.Locale.Name
import Vernacular.Text.StandIns

/-!
# Running a command line

A run reads everything it needs, works, and ends with texts to print or a file to write.  It sees
the world as a value, so it is a function: what it would print, write and log, and the status it
would exit with.  Statuses: 0 for success, 1 for a failure of the work or a crash, 2 for a command
line that makes no sense, 3 for a file that could not be read or written.
-/

namespace Vernacular.CommandLine

/-- What a run takes as it is from the runtime and from libraries. -/
structure Platform where
  decoder : Json.Decoder
  displayNames : LocaleName.DisplayNames
  /-- The answer to a request for help. -/
  helpText : Option Command → String
  /-- The answer to a command line that makes no sense. -/
  refusalText : UsageError → String

structure Surroundings where
  platform : Platform
  files : Loading.Files
  input : List UInt8
  environment : String → Option String

/-- Why a run stops short of its goal. -/
inductive Halt where
  | loading (error : Loading.Error)
  /-- The names in the error may hold stand-ins. -/
  | setup (error : Translator.SetupError) (standIns : StandIns)
  | operation (error : Translator.OperationError)
  | unread (fault : File.ReadFault)
  | unwritten (fault : File.OpenFault)
  | crashed (crash : Crash)

namespace Halt

def ofAbort : Loading.Abort → Halt
  | .reported error => loading error
  | .crashed crash => crashed crash

def ofUnread : Loading.Unread → Halt
  | .faulty fault => unread fault
  | .nullInPath => crashed .nullInPath

def ofRefusal : File.Refusal → Halt
  | .system fault => unwritten fault
  | .nullInPath => crashed .nullInPath

def crash? : Halt → Option Crash
  | crashed crash => some crash
  | _ => none

def status : Halt → Nat
  | loading error => if error.isUnopened then 3 else 1
  | setup _ _ => 1
  | operation _ => 1
  | unread _ => 3
  | unwritten _ => 3
  | crashed _ => 1

/-- The lines that a run writes when it halts; of a crash it says nothing itself. -/
def report : Halt → String
  | loading error => ({ } : Layout).write error.diagnostic ++ "\n"
  | setup error standIns => standIns.shown (({ } : Layout).write error.diagnostic) ++ "\n"
  | operation error => ({ } : Layout).write error.diagnostic ++ "\n"
  | unread fault => s!"error: {fault.message}\n"
  | unwritten fault => s!"error: {fault.message}\n"
  | crashed _ => ""

/-- What is logged when code cannot be read or a result cannot be written. -/
def records : Halt → List Log.Record
  | unread _ => [⟨.debug, .commandLine, "I/O failure"⟩]
  | unwritten _ => [⟨.debug, .commandLine, "I/O failure"⟩]
  | _ => []

end Halt

/-- What a run comes to before anything is written. -/
inductive Product where
  /-- Texts to print one after the other. -/
  | print (texts : List Wide)
  | save (path : Path) (text : Wide)
deriving DecidableEq, Repr

/-! ## Loading -/

/-- Content that is loaded only if an option gives its source. -/
def loadGiven {α : Type} (load : String → String → Logged (Except Loading.Abort α))
    (location : String) : Option String → Logged (Except Halt (Option α))
  | none => .silent (.ok none)
  | some source => ((load source location).mapError .ofAbort).map (Except.map some)

def nameTexts (names : Loading.Names) : List Wide := names.flatMap (fun entry => [entry.1, entry.2])

def definitionTexts (found : Loading.Definitions) : List Wide :=
  found.flatMap (fun entry => entry.1 :: nameTexts entry.2.toList)

def hideNames (s : StandIns) (names : Loading.Names) : List (String × String) :=
  names.map (fun entry => (s.hide entry.1, s.hide entry.2))

def hideDefinitions (s : StandIns) (found : Loading.Definitions) : List (String × Definition) :=
  found.map (fun entry => (s.hide entry.1, Dictionary.ofList (hideNames s entry.2.toList)))

/-! ## Converting code -/

def readCode (world : Surroundings) : Origin → Except Halt String
  | .inline code => .ok code
  | .file path => ((Loading.fileText world.files path).mapError .ofUnread).map String.ofList
  | .standardInput => ((File.text world.input).mapError (.unread ∘ .undecoded)).map String.ofList

/-- Stand-ins for the halves of what was loaded, foreign to all that a job works on. -/
def Job.standIns (job : Job) (world : Surroundings) (common : Common)
    (names : Option Loading.Names) (locales : Option Loading.Definitions) : StandIns :=
  let given := job.source.toList ++ job.destination.toList ++
    [common.affixes.opening, common.affixes.closing] ++ (readCode world job.origin).toOption.toList
  .forTexts (nameTexts (names.getD []) ++ definitionTexts (locales.getD []) ++
    given.map Wide.ofString)

def Job.settings (job : Job) (world : Surroundings) (common : Common)
    (names : Option Loading.Names) (locales : Option Loading.Definitions) :
    Translator.Settings where
  source := job.source
  destination := job.destination
  names := names.map (hideNames (job.standIns world common names locales))
  locales := hideDefinitions (job.standIns world common names locales) (locales.getD [])
  affixes := common.affixes

def endLine (text : Wide) : Wide :=
  if text.getLast? = some (.char '\n') then text else text ++ [.char '\n']

def Job.product (job : Job) (result : Wide) : Product :=
  match job.output with
  | some path => .save (Path.ofString path) result
  | none => .print [endLine result]

/-- What is left to do once names and definitions are loaded. -/
def Job.perform (job : Job) (world : Surroundings) (common : Common)
    (names : Option Loading.Names) (locales : Option Loading.Definitions) :
    Logged (Except Halt Product) :=
  let s := job.standIns world common names locales
  (((Translator.ofSettings (job.settings world common names locales)).mapError
    (Halt.setup · s)).andThen fun translator =>
  (Logged.silent (readCode world job.origin)).andThen fun code =>
  ((translator.run job.operation code job.includeNames).mapError Halt.operation).map
    (Except.map (fun result => job.product (s.reveal result)))).reword s.shown

def convert (world : Surroundings) (common : Common) (job : Job) :
    Logged (Except Halt Product) :=
  (loadGiven (Loading.loadNames world.platform.decoder world.files) Loading.namesLocation
    job.names).andThen fun names =>
  (loadGiven (Loading.loadDefinitions world.platform.decoder world.files)
    Loading.definitionsLocation common.locales).andThen (job.perform world common names)

/-! ## Listing locales -/

/-- Fills a text up with blanks to a width. -/
def padTo (width : Nat) (text : Wide) : Wide := text.rightpad width (.char ' ')

/-- The name for people of a locale; none is known for a name with a half in it. -/
def label? (names : LocaleName.DisplayNames) (name : Wide) : Option String := do
  let plain ← name.narrow.toOption
  (← (LocaleName.displayName names plain "en").toOption)

/-- A line of the listing; the user's own locale is marked with a star. -/
def listingLine (names : LocaleName.DisplayNames) (s : StandIns) (registry : Registry)
    (current : Option String) (name : String) : Wide :=
  let marker := if current = some name then "* " else "  "
  let label := (label? names (s.reveal name)).map (fun label => " " ++ label)
  let base := ((registry.definition? name).bind Definition.base?).map
    (fun base => Wide.ofString " (extends " ++ s.reveal base ++ Wide.ofString ")")
  Wide.trimEnd (Wide.ofString marker ++ padTo 8 (s.reveal name) ++
    Wide.ofString (label.getD "") ++ base.getD [])

def listing (names : LocaleName.DisplayNames) (s : StandIns) (registry : Registry)
    (environment : String → Option String) : List Wide :=
  let current := (LocaleName.system? environment).bind
    (fun wanted => LocaleName.bestMatch wanted registry.names)
  registry.names.map (fun name => listingLine names s registry current name ++ [.char '\n'])

/-- Stand-ins for the halves of definitions, foreign to all that they are listed with. -/
def Common.standIns (common : Common) (world : Surroundings)
    (locales : Option Loading.Definitions) : StandIns :=
  let given := [common.affixes.opening, common.affixes.closing] ++
    LocaleName.environmentKeys.filterMap world.environment
  .forTexts (definitionTexts (locales.getD []) ++ given.map Wide.ofString)

def Common.perform (common : Common) (world : Surroundings)
    (locales : Option Loading.Definitions) : Logged (Except Halt Product) :=
  let s := common.standIns world locales
  (((Registry.withBuiltins common.affixes (hideDefinitions s (locales.getD []))).mapError
    (fun error => Halt.setup (.registration error) s)).map
    (Except.map fun registry =>
      .print (listing world.platform.displayNames s registry world.environment))).reword s.shown

def list (world : Surroundings) (common : Common) : Logged (Except Halt Product) :=
  (loadGiven (Loading.loadDefinitions world.platform.decoder world.files)
    Loading.definitionsLocation common.locales).andThen (common.perform world)

/-! ## Ending -/

structure Outcome where
  status : Nat
  output : String
  /-- What is on the error stream, apart from the trace of a crash. -/
  messages : String
  crash : Option Crash
deriving DecidableEq, Repr

/-- How a run ends: with an outcome, or with a file to write and an outcome either way. -/
inductive Ending where
  | done (outcome : Outcome)
  | save (path : Path) (text : Wide) (saved : Outcome) (failed : Halt → Outcome)

/-- The records that a user gets to see, a line each. -/
def shownRecords (verbose : Bool) (records : List Log.Record) : String :=
  let shown := records.filter (fun record => verbose || record.level == .warning)
  String.join (shown.map (fun record => record.line ++ "\n"))

def halted (verbose : Bool) (records : List Log.Record) (output : String) (halt : Halt) :
    Outcome :=
  ⟨halt.status, output, shownRecords verbose (records ++ halt.records) ++ halt.report, halt.crash?⟩

def succeeded (verbose : Bool) (records : List Log.Record) (output : String) : Outcome :=
  ⟨0, output, shownRecords verbose records, none⟩

def wroteRecord (path : Path) (text : Wide) : Log.Record :=
  ⟨.debug, .commandLine, s!"Wrote {text.length} chars to {path.toString}"⟩

/-- What is printed of some texts, up to the first that cannot be encoded. -/
def printed : List Wide → String × Option Wide.Stray
  | [] => ("", none)
  | text :: rest =>
    match text.narrow with
    | .error stray => ("", some stray)
    | .ok plain =>
      let (more, stray?) := printed rest
      (plain ++ more, stray?)

def ending (verbose : Bool) (work : Logged (Except Halt Product)) : Ending :=
  match work.result with
  | .error halt => .done (halted verbose work.records "" halt)
  | .ok (.print texts) =>
    match printed texts with
    | (output, none) => .done (succeeded verbose work.records output)
    | (output, some stray) =>
      .done (halted verbose work.records output (.crashed (.unencodable stray)))
  | .ok (.save path text) =>
    .save path text (succeeded verbose (work.records ++ [wroteRecord path text]) "")
      (halted verbose work.records "")

def versionText : String := "gbstranslator 0.4.0\n"

def Invocation.run (world : Surroundings) : Invocation → Ending
  | help command => .done (succeeded false [] (world.platform.helpText command))
  | version => .done (succeeded false [] versionText)
  | convert common job => ending common.verbose (CommandLine.convert world common job)
  | locales common => ending common.verbose (CommandLine.list world common)

def refused (platform : Platform) (error : UsageError) : Outcome :=
  ⟨2, "", platform.refusalText error, none⟩

def run (world : Surroundings) (arguments : List String) : Ending :=
  match Invocation.parse arguments with
  | .error error => .done (refused world.platform error)
  | .ok invocation => invocation.run world

/-- Carries out an ending in a tree of files.  A file is empty once it is opened, and stays so if
the text turns out to have no encoding. -/
def Ending.settle (tree : File.Tree) : Ending → Outcome × File.Tree
  | done outcome => (outcome, tree)
  | save path text saved failed =>
    match tree.create path with
    | .error refusal => (failed (.ofRefusal refusal), tree)
    | .ok (place, opened) =>
      match text.narrow with
      | .error stray => (failed (.crashed (.unencodable stray)), opened)
      | .ok plain => (saved, opened.put place (Utf8.encode plain))

/-- Runs a command line in a tree of files. -/
def runIn (platform : Platform) (tree : File.Tree) (input : List UInt8)
    (environment : String → Option String) (arguments : List String) : Outcome × File.Tree :=
  (run ⟨platform, tree.read, input, environment⟩ arguments).settle tree

end Vernacular.CommandLine
