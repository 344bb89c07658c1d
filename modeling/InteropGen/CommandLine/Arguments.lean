import InteropGen.Disk.Path
import InteropGen.Terminal.Style

set_option autoImplicit false

/-!
# Arguments

The first word that is no option names a command, and each command has options and positions of its
own.  Two options are understood on either side of the command; what stands behind it wins.  An
option may be given once on each side.  The word `help` stands alone or before what it explains.
-/

namespace InteropGen.CommandLine

inductive OptionName where
  | config
  | schema
  | managedDir
  | nativeDir
  | logLevel
  | colour
  deriving DecidableEq, Repr

namespace OptionName

def all : List OptionName := [config, schema, managedDir, nativeDir, logLevel, colour]

def flag : OptionName → String
  | config => "config"
  | schema => "schema"
  | managedDir => "managed-dir"
  | nativeDir => "native-dir"
  | logLevel => "log-level"
  | colour => "color"

def isGlobal : OptionName → Bool
  | logLevel => true
  | colour => true
  | _ => false

/-- A value that the option can take: no empty paths, and only known colour modes. -/
def accepts (value : String) : OptionName → Bool
  | logLevel => true
  | colour => (ColourMode.parse? value).isSome
  | _ => value ≠ ""

end OptionName

inductive CommandName where
  | generate
  | check
  | slots
  | exports
  | init
  deriving DecidableEq, Repr

namespace CommandName

def all : List CommandName := [generate, check, slots, exports, init]

def keyword : CommandName → String
  | generate => "generate"
  | check => "check"
  | slots => "slots"
  | exports => "exports"
  | init => "init"

def parse? (word : String) : Option CommandName := all.find? fun c => c.keyword = word

def options : CommandName → List OptionName
  | generate => OptionName.all
  | init => [.logLevel, .colour]
  | _ => [.config, .schema, .logLevel, .colour]

def takesDryRun (c : CommandName) : Bool := c = generate

def takesWord : CommandName → Bool
  | slots => true
  | exports => true
  | init => true
  | _ => false

/-- A word that the command can take: the project directory has a name. -/
def acceptsWord (word : String) : CommandName → Bool
  | init => word ≠ ""
  | _ => true

def needsWord : CommandName → Bool
  | slots => true
  | exports => true
  | _ => false

end CommandName

/-- The options on one side of the command. -/
structure Settings where
  values : List (OptionName × String) := []
  dryRun : Bool := false
  word : Option String := none
  deriving Repr

namespace Settings

def put (s : Settings) (name : OptionName) (value : String) : Option Settings :=
  if (s.values.lookup name).isSome || !name.accepts value then none
  else some { s with values := (name, value) :: s.values }

def get? (s : Settings) (name : OptionName) : Option String := s.values.lookup name

end Settings

inductive Request where
  | version
  | help
  | run (command : CommandName) (before behind : Settings)
  /-- The arguments cannot be understood. -/
  | misuse
  deriving Repr

inductive Word where
  | terminator
  | long (name : String) (value : Option String)
  | short (flags : List Char)
  | plain (text : String)
  deriving DecidableEq, Repr

namespace Word

def ofArgument (argument : String) : Word :=
  match argument.toList with
  | ['-', '-'] => terminator
  | '-' :: '-' :: rest =>
    let value := match rest.dropWhile (· != '=') with
      | '=' :: value => some (String.ofList value)
      | _ => none
    long (String.ofList (rest.takeWhile (· != '='))) value
  | '-' :: c :: rest => short (c :: rest)
  | _ => plain argument

end Word

def findOption (allowed : List OptionName) (name : String) : Option OptionName :=
  allowed.find? fun o => o.flag = name

/-- Takes the value of an option from the argument itself or from the next one. -/
def takeValue (s : Settings) (name : OptionName) (value : Option String) (rest : List String) :
    Option (Settings × List String) :=
  match value, rest with
  | some value, rest => (s.put name value).map fun s => (s, rest)
  | none, [] => none
  | none, next :: rest =>
    match Word.ofArgument next with
    | .plain text => (s.put name text).map fun s => (s, rest)
    | _ => none

/-- Records the word of a command, of which there is at most one. -/
def takeWord (command : CommandName) (s : Settings) (word : String) : Option Settings :=
  if command.takesWord && s.word.isNone && command.acceptsWord word then
    some { s with word := some word }
  else none

def finish (command : CommandName) (before s : Settings) : Request :=
  if command.needsWord && s.word.isNone then .misuse else .run command before s

def readWords (command : CommandName) (before : Settings) : Settings → List String → Request
  | s, [] => finish command before s
  | s, word :: rest =>
    match takeWord command s word with
    | some s => readWords command before s rest
    | none => .misuse

theorem takeValue_length {s t : Settings} {name : OptionName} {value : Option String}
    {rest rest' : List String} (h : takeValue s name value rest = some (t, rest')) :
    rest'.length ≤ rest.length := by
  unfold takeValue at h
  split at h
  · obtain ⟨_, _, h⟩ := Option.map_eq_some_iff.1 h
    simp only [Prod.mk.injEq] at h
    simp [h.2]
  · simp at h
  · split at h
    · obtain ⟨_, _, h⟩ := Option.map_eq_some_iff.1 h
      simp only [Prod.mk.injEq] at h
      simp [h.2]
    · simp at h

def readCommand (command : CommandName) (before s : Settings) (arguments : List String) : Request :=
  match arguments with
  | [] => finish command before s
  | argument :: rest =>
    match Word.ofArgument argument with
    | .terminator => readWords command before s rest
    | .long "help" none => .help
    | .long "dry-run" none =>
      if command.takesDryRun && !s.dryRun then
        readCommand command before { s with dryRun := true } rest
      else .misuse
    | .long name value =>
      match findOption command.options name with
      | none => .misuse
      | some option =>
        match _h : takeValue s option value rest with
        | none => .misuse
        | some (s, rest) => readCommand command before s rest
    | .short ('h' :: _) => .help
    | .short _ => .misuse
    | .plain word =>
      match takeWord command s word with
      | some s => readCommand command before s rest
      | none => .misuse
termination_by arguments.length
decreasing_by
  all_goals
    simp only [List.length_cons]
    try have := takeValue_length _h
    omega

def explain : List String → Request
  | [] => .help
  | [word] => if word = "help" || (CommandName.parse? word).isSome then .help else .misuse
  | _ => .misuse

def read (s : Settings) (arguments : List String) : Request :=
  match arguments with
  | [] => .misuse
  | argument :: rest =>
    match Word.ofArgument argument with
    | .terminator => .misuse
    | .long "help" none => .help
    | .long "version" none => .version
    | .long name value =>
      match findOption [.logLevel, .colour] name with
      | none => .misuse
      | some option =>
        match _h : takeValue s option value rest with
        | none => .misuse
        | some (s, rest) => read s rest
    | .short ('h' :: _) => .help
    | .short ('V' :: _) => .version
    | .short _ => .misuse
    | .plain "help" => explain rest
    | .plain word =>
      match CommandName.parse? word with
      | some command => readCommand command s {} rest
      | none => .misuse
termination_by arguments.length
decreasing_by
  simp only [List.length_cons]
  have := takeValue_length _h
  omega

/-- The value of an option, from behind the command or else from before it. -/
def lookup (before behind : Settings) (name : OptionName) : Option String :=
  (behind.get? name).or (if name.isGlobal then before.get? name else none)

end InteropGen.CommandLine
