import InteropGen.CommandLine.Arguments
import InteropGen.Generation.Run
import InteropGen.Starter

set_option autoImplicit false

/-!
# Commands

A command ends with the text it prints, the events it logs, and an error if it failed.  Commands
that read a schema take it from the configuration; a configuration file that is missing under its
usual name means the defaults.
-/

namespace InteropGen.CommandLine

structure Outcome where
  output : List Piece
  events : List LogEvent
  error : Option String
  deriving Repr

namespace Outcome

def success (events : List LogEvent) (output : List Piece) : Outcome := ⟨output, events, none⟩

def failure (events : List LogEvent) (error : String) : Outcome := ⟨[], events, some error⟩

def exitCode (o : Outcome) : Nat := if o.error.isSome then 1 else 0

end Outcome

def usualConfig : Path := ⟨"apigen.toml"⟩

section

variable {m : Type → Type} [Monad m]

/-- The configuration file, or the defaults where it is missing under its usual name. -/
def readConfig (disk : Disk m) (file : Path) : m (Except String Config) := do
  if ← disk.holds file then
    return (← Config.load disk file).mapError fun e => "loading " ++ file.text ++ ": " ++ e.message
  else if file.same usualConfig then return .ok {}
  else return .error ("config file not found: " ++ file.text)

def loadConfig (disk : Disk m) (s : Settings) : m (Except String Config) := do
  let file := ((s.get? .config).map Path.mk).getD usualConfig
  match ← readConfig disk file with
  | .error e => return .error e
  | .ok c =>
    let c := { c with schema := ((s.get? .schema).map Path.mk).getD c.schema }
    return (c.validate.mapError ConfigError.message).map fun _ => c

def loadedEvent (c : Config) (s : Schema) : LogEvent :=
  ⟨.info, "Loaded schema", [("schema", c.schema.text), ("types", toString s.types.length)]⟩

def loadSchema (disk : Disk m) (c : Config) : m (Except String Schema) := do
  return (← Schema.loadFile disk c.schema).mapError fun e =>
    "loading schema " ++ c.schema.text ++ ": " ++ e.message

/-- Loads configuration and schema, and goes on with both. -/
def withSchema (disk : Disk m) (s : Settings) (adapt : Config → Config)
    (go : Config → Schema → m Outcome) : m Outcome := do
  match ← loadConfig disk s with
  | .error e => return .failure [] e
  | .ok c =>
    let c := adapt c
    match ← loadSchema disk c with
    | .error e => return .failure [] e
    | .ok schema =>
      let o ← go c schema
      return { o with events := loadedEvent c schema :: o.events }

end

def fileLine : Path × FileStatus → List Piece
  | (path, status) =>
    [⟨padLeft 10 status.label, some (if status.isChange then .success else .dim)⟩,
      .plain (" " ++ path.text), .newline]

def summary (r : Report) : List Piece :=
  if r.dryRun then
    [⟨"Dry run: ", some .warning⟩,
      .plain (toString r.changed.length ++ " file(s) would change"), .newline]
  else
    [⟨"Done: ", some .success⟩,
      .plain (toString (r.count .written) ++ " written, " ++ toString (r.count .created) ++
        " created, " ++ toString (r.count .unchanged) ++ " unchanged, " ++
        toString (r.count .preserved) ++ " preserved"), .newline]

def reportOutput (r : Report) : List Piece :=
  r.files.flatMap fileLine ++ [.newline] ++ summary r

def checkOutput (s : Schema) (files : Nat) : List Piece :=
  [⟨"OK: ", some .success⟩,
    .plain (toString s.classes.length ++ " type(s), " ++ toString files ++
      " file(s), dialects agree"), .newline]

def memberKind : Member → String
  | .getter _ => "getter"
  | .setter _ => "setter"
  | .method _ => "method"

def slotLine (index : Nat) (slot : Slot) : List Piece :=
  [⟨padLeft 4 (toString index), some .info⟩, .plain (" " ++ slot.name),
    ⟨" " ++ memberKind slot.member ++ (if slot.isStatic then ", static" else ""), some .dim⟩,
    .newline]

def slotOutput (t : ApiType) : Option SlotTable → List Piece
  | none => [⟨t.name ++ " is not a managed-server type", some .warning⟩, .newline]
  | some table =>
    [⟨table.typeName ++ " (" ++ toString table.size ++ " slots)", some .strong⟩, .newline] ++
      table.slots.zipIdx.flatMap fun (slot, index) => slotLine index slot

def exportLine (e : Export) : List Piece :=
  [.plain ("  " ++ e.name), ⟨"/" ++ toString e.arity, some .dim⟩, .newline]

def exportOutput (table : ExportTable) : List Piece :=
  [⟨table.typeName ++ " (" ++ toString table.size ++ " exports)", some .strong⟩, .newline] ++
    table.entries.flatMap exportLine

def createdLine (p : Path) : List Piece :=
  [⟨"created ", some .success⟩, .plain p.text, .newline]

/-- The directories that the options put in the place of the configured ones. -/
def redirect (s : Settings) (c : Config) : Config :=
  { c with
    managed.dir := ((s.get? .managedDir).map Path.mk).getD c.managed.dir
    native.dir := ((s.get? .nativeDir).map Path.mk).getD c.native.dir }

def check (c : Config) (s : Schema) : Outcome :=
  match Plan.build c s with
  | .error e => .failure (Plan.events s) e.message
  | .ok files => .success (Plan.events s) (checkOutput s files.length)

def slots (name : String) (s : Schema) : Outcome :=
  match s.get? name with
  | none => .failure [] ("unknown type " ++ name)
  | some t =>
    match t.slotTable with
    | .error e => .failure [] e.message
    | .ok table => .success [] (slotOutput t table)

def exports (name : String) (s : Schema) : Outcome :=
  match (s.get? name).filter ApiType.isClass with
  | none => .failure [] ("unknown class " ++ name)
  | some t =>
    match ExportTable.build s t with
    | .error e => .failure [] e.message
    | .ok table => .success [] (exportOutput table)

section

variable {m : Type → Type} [Monad m]

def generate (disk : Disk m) (dryRun : Bool) (c : Config) (s : Schema) : m Outcome := do
  match ← Run.generate disk dryRun c s with
  | (events, .error e) => return .failure events e.message
  | (events, .ok r) => return .success events (reportOutput r)

def start (disk : Disk m) (dir : Path) : m Outcome := do
  match ← Starter.create disk dir with
  | .error e => return .failure [] e.message
  | .ok written => return .success [] (written.flatMap createdLine)

def run (disk : Disk m) (command : CommandName) (s : Settings) : m Outcome :=
  match command with
  | .generate => withSchema disk s (redirect s) (generate disk s.dryRun)
  | .check => withSchema disk s id fun c schema => pure (check c schema)
  | .slots => withSchema disk s id fun _ schema => pure (slots (s.word.getD "") schema)
  | .exports => withSchema disk s id fun _ schema => pure (exports (s.word.getD "") schema)
  | .init => start disk ⟨s.word.getD "."⟩

end

abbrev Environment := List (String × String)

/-- The mode that the options ask for; a variable that forbids colours outweighs them. -/
def colourMode (environment : Environment) (flag : Option String) : ColourMode :=
  if (environment.lookup "NO_COLOR").isSome then .never
  else (flag.bind ColourMode.parse?).getD .auto

/-- Colours that nobody asked for need a terminal that shows them. -/
def coloured (environment : Environment) : ColourMode → Bool
  | .always => true
  | .never => false
  | .auto =>
    match environment.lookup "TERM" with
    | none => false
    | some terminal => terminal ≠ "dumb"

structure Screen where
  exitCode : Nat
  stdout : String
  /-- The entries of the log. -/
  log : List String
  /-- The closing line of a command that failed. -/
  error : Option String
  deriving Repr

def versionText : String := "apigen 0.2.0"

def usageText : String :=
  "Usage: apigen [--log-level LEVEL] [--color auto|always|never] COMMAND\n\n" ++
    "Commands: generate, check, slots, exports, init\n"

def errorPieces (message : String) : List Piece :=
  [⟨"error:", some .failure⟩, .plain (" " ++ message)]

/-- The screen after a command.  The log is coloured only where colours are asked for. -/
def screenOf (environment : Environment) (before behind : Settings) (o : Outcome) : Screen :=
  let level :=
    LogLevel.resolve (lookup before behind .logLevel) (environment.lookup "APIGEN_LOG")
  let mode := colourMode environment (lookup before behind .colour)
  let render := Piece.renderAll (coloured environment mode)
  { exitCode := o.exitCode
    stdout := render o.output
    log := (LogEvent.shown level o.events).map fun e => Piece.renderAll (mode = .always) e.pieces
    error := o.error.map fun message => render (errorPieces message) }

/-- Runs the arguments; misuse prints nothing and ends with its own exit code. -/
def invoke {m : Type → Type} [Monad m] (disk : Disk m) (environment : Environment)
    (arguments : List String) : m Screen := do
  match read {} arguments with
  | .misuse => return ⟨2, "", [], none⟩
  | .version => return ⟨0, versionText ++ "\n", [], none⟩
  | .help => return ⟨0, usageText, [], none⟩
  | .run command before behind =>
    return screenOf environment before behind (← run disk command behind)

end InteropGen.CommandLine
