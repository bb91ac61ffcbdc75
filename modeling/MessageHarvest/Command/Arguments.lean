import MessageHarvest.Command.Help
import MessageHarvest.Extraction.Project
import MessageHarvest.Rule.Spec

/-! # Command lines

    * A word `--name` or `--name=value` is a long option, `-abc` are short
      options, of which the last may be followed by its value, and every
      other word is the value of the option before it.
    * `--` ends the options. No command takes words behind it.
    * An option that takes a value is settled when the next option starts or
      the words end: only then a missing, repeated or wrong value is noticed.
      A word that nothing can take is noticed at once. -/

namespace MessageHarvest

/-- What is wrong with a command line. -/
inductive UsageError where
  /-- A value is missing or empty. -/
  | invalidValue
  /-- A value is no rule. -/
  | valueValidation
  | unknownArgument
  | invalidSubcommand
  /-- An option is repeated. -/
  | argumentConflict
  /-- A value is given to an option that takes none. -/
  | tooManyValues
  deriving DecidableEq, Repr, Inhabited

/-- The error message. -/
def UsageError.message : UsageError → String
  | invalidValue => "a value is required for an option but none was supplied"
  | valueValidation => "invalid value for an option"
  | unknownArgument => "unexpected argument found"
  | invalidSubcommand => "unrecognized subcommand"
  | argumentConflict => "an option cannot be used multiple times"
  | tooManyValues => "unexpected value for an option"

/-- Why no command is run. -/
inductive Refusal where
  | usage (error : UsageError)
  | help (text : String)
  | version (text : String)
  deriving DecidableEq, Repr, Inhabited

/-- What a command line asks for. -/
inductive Command where
  | extract (options : ExtractOptions)
  | init
  /-- No command: the help text is printed. -/
  | overview
  deriving DecidableEq, Repr, Inhabited

namespace Command

/-! ## Options -/

/-- An option that is on or off. -/
inductive Switch where
  | verbose | keepUnused | dryRun
  deriving DecidableEq, Repr, Inhabited

/-- An option that takes a value. -/
inductive Setting where
  | root | output | keywordRule | annotationRule | encoding
  deriving DecidableEq, Repr, Inhabited

/-- An option of an extraction. -/
inductive Choice where
  | switch (s : Switch)
  | setting (s : Setting)
  | help
  deriving DecidableEq, Repr, Inhabited

/-- How an option is spelled and what it is for. -/
structure OptionInfo where
  choice : Choice
  short? : Option Char
  long : String
  value? : Option String
  about : String
  deriving DecidableEq, Repr, Inhabited

/-- The environment variable that stands in for the root. -/
def rootVariable : String := "GLOTPOT_ROOT"

/-- The options of an extraction, given the environment's root. -/
def extractChoices (environment : Option String) : List OptionInfo :=
  [⟨.setting .root, none, "root", some "ROOT",
    "Project root directory; the config file is searched from here [env: " ++ rootVariable ++
      "=" ++ environment.getD "" ++ "]"⟩,
   ⟨.switch .verbose, some 'v', "verbose", none, "Enable verbose output"⟩,
   ⟨.setting .output, some 'o', "output", some "OUTPUT",
    "Catalog file to write, relative to the root (overrides config file)"⟩,
   ⟨.setting .keywordRule, some 'k', "keyword", some "SPEC",
    "Additional translatable method: NAME, NAME:S or NAME:S,P (1-based argument indexes)"⟩,
   ⟨.setting .annotationRule, none, "annotation", some "SPEC",
    "Additional translatable annotation: QUALIFIED.NAME or QUALIFIED.NAME:FIELD,..."⟩,
   ⟨.setting .encoding, none, "encoding", some "ENCODING",
    "Catalog encoding label (overrides config file)"⟩,
   ⟨.switch .keepUnused, none, "keep-unused", none,
    "Keep messages that are no longer found in the sources"⟩,
   ⟨.switch .dryRun, none, "dry-run", none, "Extract and report without writing the catalog"⟩,
   ⟨.help, some 'h', "help", none, "Print help"⟩]

/-! ## Help -/

/-- What an extraction is for. -/
def extractAbout : String := "Extract translatable messages from Java sources into a PO catalog"

/-- What an initialization is for. -/
def initAbout : String := "Initialize a new " ++ Config.fileName ++ " configuration file"

/-- What the command that prints help texts is for. -/
def helpAbout : String := "Print this message or the help of the given subcommand(s)"

/-- The help text of the program. -/
def overviewHelp : Help where
  about :=
    "A fast CLI tool for extracting translatable messages from Java sources into gettext catalogs"
  usage := "glotpot [COMMAND]"
  sections :=
    [⟨"Commands", [⟨"extract", extractAbout⟩, ⟨"init", initAbout⟩, ⟨"help", helpAbout⟩]⟩,
     ⟨"Options", [Help.helpRow, ⟨Help.optionLabel (some 'V') "version" none, "Print version"⟩]⟩]

/-- The help text of an extraction. -/
def extractHelp (environment : Option String) : Help where
  about := extractAbout
  usage := "glotpot extract [OPTIONS]"
  sections :=
    [⟨"Options", (extractChoices environment).map fun o =>
      ⟨Help.optionLabel o.short? o.long o.value?, o.about⟩⟩]

/-- The help text of an initialization. -/
def initHelp : Help where
  about := initAbout
  usage := "glotpot init"
  sections := [⟨"Options", [Help.helpRow]⟩]

/-- The help text of the command that prints help texts. -/
def helpHelp : Help where
  about := helpAbout
  usage := "glotpot help [COMMAND]..."
  sections := [⟨"Arguments", [⟨"[COMMAND]...", "Print help for the subcommand(s)"⟩]⟩]

/-- The program with its version. -/
def versionText : String := "glotpot 0.1.0\n"

/-! ## Words -/

/-- What a word of a command line is. -/
inductive Word where
  /-- The end of the options. -/
  | terminator
  | long (name : String) (value? : Option String)
  | short (letters : List Char)
  | value (text : String)
  deriving DecidableEq, Repr, Inhabited

/-- What a text is. A single hyphen is a value. -/
def Word.ofString (s : String) : Word :=
  match s.toList with
  | ['-', '-'] => .terminator
  | '-' :: '-' :: t =>
    match Text.splitFirst (· == '=') t with
    | some (name, v) => .long (String.ofList name) (some (String.ofList v))
    | none => .long (String.ofList t) none
  | '-' :: c :: t => .short (c :: t)
  | _ => .value s

/-! ## Reading the options of an extraction -/

/-- How far the options have been read. -/
structure Reading where
  options : ExtractOptions := {}
  /-- Options that have been settled and must not come again. -/
  settled : List Choice := []
  /-- An option that is not settled yet, with its value if that was given. -/
  pending : Option (Setting × Option String) := none
  deriving DecidableEq, Repr, Inhabited

namespace Reading

/-- Marks an option that may come once. -/
def once (r : Reading) (c : Choice) : Except Refusal Reading :=
  if r.settled.contains c then .error (.usage .argumentConflict)
  else .ok { r with settled := c :: r.settled }

/-- A path that an option names. -/
def path (value : String) : Except Refusal Path :=
  if value = "" then .error (.usage .invalidValue) else .ok ⟨value⟩

/-- A rule that an option names. -/
def rule {α : Type} (parsed : Except RuleError α) : Except Refusal α :=
  parsed.mapError fun _ => .usage .valueValidation

/-- Settles an option that takes a value. -/
def set (r : Reading) (s : Setting) (value : String) : Except Refusal Reading := do
  let o := r.options
  match s with
  | .root =>
    let r ← r.once (.setting s)
    return { r with options := { o with root? := some (← path value) } }
  | .output =>
    let r ← r.once (.setting s)
    return { r with options := { o with output? := some (← path value) } }
  | .encoding =>
    let r ← r.once (.setting s)
    return { r with options := { o with encoding? := some value } }
  | .keywordRule =>
    let keywords := o.keywords ++ [← rule (MethodRule.parse value)]
    return { r with options := { o with keywords := keywords } }
  | .annotationRule =>
    return { r with
      options := { o with
        annotations := o.annotations ++ [← rule (AnnotationRule.parse value)] } }

/-- Settles the option that is pending. -/
def resolve (r : Reading) : Except Refusal Reading :=
  match r.pending with
  | none => .ok r
  | some (_, none) => .error (.usage .invalidValue)
  | some (s, some value) => { r with pending := none }.set s value

/-- Turns an option on. -/
def turnOn (r : Reading) (s : Switch) : Except Refusal Reading := do
  let r ← (← r.resolve).once (.switch s)
  let o := r.options
  return { r with
    options := match s with
      | .verbose => { o with verbose := true }
      | .keepUnused => { o with keepUnused := true }
      | .dryRun => { o with dryRun := true } }

/-- Starts an option whose value is still to come, or settles it. -/
def start (r : Reading) (s : Setting) (value? : Option String) : Except Refusal Reading := do
  let r ← r.resolve
  match value? with
  | some value => r.set s value
  | none => return { r with pending := some (s, none) }

/-- Stops for a help text. -/
def stop (r : Reading) (help : Help) : Except Refusal Reading := do
  let _ ← r.resolve
  throw (.help help.render)

/-- Reads a long option. -/
def long (help : Help) (r : Reading) (o : OptionInfo) (value? : Option String) :
    Except Refusal Reading :=
  match o.choice with
  | .setting s => r.start s value?
  | .switch s => if value?.isSome then .error (.usage .tooManyValues) else r.turnOn s
  | .help => if value?.isSome then .error (.usage .tooManyValues) else r.stop help

/-- The value that follows a short option in its word. -/
def attached? : List Char → Option String
  | [] => none
  | '=' :: t => some (String.ofList t)
  | t => some (String.ofList t)

/-- Reads short options in one word. -/
def shorts (help : Help) (known : List OptionInfo) (r : Reading) :
    List Char → Except Refusal Reading
  | [] => .ok r
  | c :: t =>
    match (known.find? fun o => o.short? == some c).map OptionInfo.choice with
    | none => .error (.usage .unknownArgument)
    | some (.setting s) => r.start s (attached? t)
    | some (.switch s) => do shorts help known (← r.turnOn s) t
    | some .help => r.stop help

/-- Reads words. -/
def words (help : Help) (known : List OptionInfo) (r : Reading) :
    List String → Except Refusal Reading
  | [] => r.resolve
  | w :: ws =>
    match Word.ofString w with
    | .terminator => if ws.isEmpty then r.resolve else .error (.usage .unknownArgument)
    | .long name value? =>
      match known.find? fun o => o.long == name with
      | none => .error (.usage .unknownArgument)
      | some o => do words help known (← long help r o value?) ws
    | .short letters => do words help known (← shorts help known r letters) ws
    | .value text =>
      match r.pending with
      | some (s, none) => words help known { r with pending := some (s, some text) } ws
      | _ => .error (.usage .unknownArgument)

end Reading

/-- Reads the options of an extraction. The environment's root counts if no
    option names one. -/
def parseExtract (environment : Option String) (ws : List String) :
    Except Refusal ExtractOptions := do
  let r ← Reading.words (extractHelp environment) (extractChoices environment) {} ws
  match r.options.root?, environment with
  | none, some value => return { r.options with root? := some (← Reading.path value) }
  | _, _ => return r.options

/-! ## Reading commands -/

/-- Reads the words behind the command for an initialization. -/
def parseInit : List String → Except Refusal Command
  | [] => .ok .init
  | w :: ws =>
    match Word.ofString w with
    | .terminator => if ws.isEmpty then .ok .init else .error (.usage .unknownArgument)
    | .long "help" none | .short ('h' :: _) => .error (.help initHelp.render)
    | .long "help" (some _) => .error (.usage .tooManyValues)
    | _ => .error (.usage .unknownArgument)

/-- The help text that some words ask for. -/
def parseHelp (environment : Option String) : List String → Refusal
  | [] => .help overviewHelp.render
  | ["extract"] => .help (extractHelp environment).render
  | ["init"] => .help initHelp.render
  | ["help"] => .help helpHelp.render
  | _ => .usage .invalidSubcommand

/-- Reads a command line, given the environment's root. -/
def parse (environment : Option String) : List String → Except Refusal Command
  | [] => .ok .overview
  | w :: ws =>
    match Word.ofString w with
    | .value "extract" => (parseExtract environment ws).map .extract
    | .value "init" => parseInit ws
    | .value "help" => .error (parseHelp environment ws)
    | .value _ => .error (.usage .invalidSubcommand)
    | .long "help" none | .short ('h' :: _) => .error (.help overviewHelp.render)
    | .long "version" none | .short ('V' :: _) => .error (.version versionText)
    | .long "help" (some _) | .long "version" (some _) => .error (.usage .tooManyValues)
    | .long _ _ | .short _ => .error (.usage .unknownArgument)
    | .terminator =>
      match ws with
      | [] => .ok .overview
      | v :: _ =>
        if ["extract", "init", "help"].contains v then .error (.usage .unknownArgument)
        else .error (.usage .invalidSubcommand)

end Command

end MessageHarvest
