import UndoJournal.Outline.Basic

/-!
# Arguments

The program has two subcommands. Their arguments are options, which begin with two hyphens, and one
word; behind a pair of hyphens that stands alone everything is a word.

The value of an option or of a word is only looked at **when the next thing is recognized**, or at
the end. So what cannot be recognized at all is told before a value that is bad, and a value that
follows an equals sign is looked at right away.
-/

namespace UndoJournal.CommandLine

/-- What the program is asked to do. -/
inductive Request where
  /-- Replay the script in a file. -/
  | run (script : String) (settings : Option String) (json : Bool) (guides : Guides)
  /-- Load the settings in a file and print them. -/
  | checkSettings (file : String)
deriving DecidableEq

/-- The files that a request may have to read. -/
def Request.paths : Request → List String
  | run script settings _ _ => settings.toList ++ [script]
  | checkSettings file => [file]

/-- Why the arguments ask for nothing that the program does. -/
inductive Usage where
  /-- They ask for help. -/
  | help
  /-- They ask for the version. -/
  | version
  /-- They ask for nothing. -/
  | nothing
  /-- They name no subcommand that there is. -/
  | unknownSubcommand
  /-- They have an option or a word too many. -/
  | unknownArgument
  /-- An option or a word lacks its value or has a bad one. -/
  | badValue
  /-- An option has a value that takes none. -/
  | needlessValue
  /-- An option is given twice. -/
  | conflict
  /-- The word is missing. -/
  | missingArgument
deriving DecidableEq

/-- The exit code of the program: asking for help or the version is no error. -/
def Usage.exitCode : Usage → Nat
  | help | version => 0
  | _ => 2

/-- The arguments that a subcommand takes. -/
structure Grammar where
  /-- The options that take a value, each with the values that are good. -/
  valued : List (String × (String → Bool))
  /-- The options that take none. -/
  flags : List String

/-- What has been read of the arguments of a subcommand. -/
structure Progress where
  /-- The options with their values, and the word under the empty name. -/
  taken : List (String × String)
  /-- What was recognized last but not looked at, with its value if it has one. -/
  waiting : Option (String × Option String)
  /-- Whether the word has been seen. -/
  hasWord : Bool

/-- How an argument looks. -/
inductive Shape where
  /-- Two hyphens alone. -/
  | divider
  /-- An option, with what stands behind an equals sign. -/
  | long (name : String) (value : Option String)
  /-- One hyphen and some letters. -/
  | short (letters : List Char)
  /-- Anything else. -/
  | word
deriving DecidableEq

/-- How an argument looks. -/
def shapeOf (argument : String) : Shape :=
  match argument.toList with
  | ['-', '-'] => .divider
  | '-' :: '-' :: body =>
    match body.span (· != '=') with
    | (name, _ :: value) => .long (String.ofList name) (some (String.ofList value))
    | (name, []) => .long (String.ofList name) none
  | '-' :: c :: letters => .short (c :: letters)
  | _ => .word

/-! ### The arguments of a subcommand -/

namespace Grammar

/-- Whether a value is good for an option, or for the word, which must not be empty. -/
def accepts (g : Grammar) (name value : String) : Bool :=
  if name = "" then value != ""
  else
    match g.valued.lookup name with
    | some good => good value
    | none => false

/-- Take an option or the word, unless it was taken before. -/
def take (name value : String) (p : Progress) : Except Usage Progress :=
  if (p.taken.lookup name).isSome then .error .conflict
  else .ok { p with taken := p.taken ++ [(name, value)] }

/-- Look at what is waiting. -/
def settle (g : Grammar) (p : Progress) : Except Usage Progress :=
  match p.waiting with
  | none => .ok p
  | some (_, none) => .error .badValue
  | some (name, some value) => do
    let taken ← take name value { p with waiting := none }
    if g.accepts name value then .ok taken else .error .badValue

/-- Read a word, which may be too many. -/
def readWord (g : Grammar) (p : Progress) (value : String) : Except Usage Progress :=
  if p.hasWord then .error .unknownArgument
  else do
    let p ← g.settle p
    .ok { p with waiting := some ("", some value), hasWord := true }

/-- Read an option. -/
def readLong (g : Grammar) (p : Progress) (name : String) (value : Option String) :
    Except Usage Progress :=
  if name = "help" then
    if value.isSome then .error .needlessValue
    else do
      let _ ← g.settle p
      .error .help
  else if g.flags.contains name then
    if value.isSome then .error .needlessValue
    else do
      let p ← g.settle p
      take name "" p
  else if (g.valued.lookup name).isSome then do
    let p ← g.settle p
    let p := { p with waiting := some (name, value) }
    if value.isSome then g.settle p else .ok p
  else .error .unknownArgument

/-- Read letters behind one hyphen: only the letter for help is an option. -/
def readShort (g : Grammar) (p : Progress) (letters : List Char) : Except Usage Progress :=
  if letters.head? = some 'h' then do
    let _ ← g.settle p
    .error .help
  else .error .unknownArgument

/-- Read a word, or the value that an option waits for. -/
def readPlain (g : Grammar) (p : Progress) (value : String) : Except Usage Progress :=
  match p.waiting with
  | some (name, none) => .ok { p with waiting := some (name, some value) }
  | _ => g.readWord p value

/-- Read arguments, behind a divider or not. -/
def readAll (g : Grammar) : Bool → Progress → List String → Except Usage Progress
  | _, p, [] => g.settle p
  | true, p, a :: rest => do
    let p ← g.readWord p a
    readAll g true p rest
  | false, p, a :: rest =>
    match shapeOf a with
    | .divider => readAll g true p rest
    | .long name value => do
      let p ← g.readLong p name value
      readAll g false p rest
    | .short letters => do
      let p ← g.readShort p letters
      readAll g false p rest
    | .word => do
      let p ← g.readPlain p a
      readAll g false p rest

/-- What the arguments of a subcommand give: its word, and its options with their values. -/
def read (g : Grammar) (arguments : List String) :
    Except Usage (String × List (String × String)) := do
  let p ← g.readAll false ⟨[], none, false⟩ arguments
  match p.taken.lookup "" with
  | none => .error .missingArgument
  | some word => .ok (word, p.taken)

end Grammar

/-! ### The program -/

/-- The name of a style of connecting lines. -/
def guidesOf? : String → Option Guides
  | "ascii" => some .ascii
  | "unicode" => some .unicode
  | "rounded" => some .rounded
  | _ => none

/-- What replaying takes. -/
def runGrammar : Grammar where
  valued := [("config", (· != "")), ("guides", fun value => (guidesOf? value).isSome)]
  flags := ["json"]

/-- What checking settings takes. -/
def checkGrammar : Grammar := ⟨[], []⟩

/-- A request to replay a script. -/
def readRun (arguments : List String) : Except Usage Request := do
  let (script, options) ← runGrammar.read arguments
  .ok (.run script (options.lookup "config") (options.lookup "json").isSome
    (((options.lookup "guides").bind guidesOf?).getD .unicode))

/-- A request to check settings. -/
def readCheck (arguments : List String) : Except Usage Request := do
  let (file, _) ← checkGrammar.read arguments
  .ok (.checkSettings file)

/-- The subcommands, each with how its arguments are read. -/
def subcommands : List (String × (List String → Except Usage Request)) :=
  [("run", readRun), ("check-config", readCheck)]

/-- What asking for help about some subcommand comes to: there is nothing below a subcommand. -/
def readHelp : List String → Usage
  | [] => .help
  | [name] =>
    if name = "help" || (subcommands.lookup name).isSome then .help else .unknownSubcommand
  | _ => .unknownSubcommand

/-- What an option in front of the subcommand comes to. -/
def readLeading : Shape → Usage
  | .long "help" none => .help
  | .long "version" none => .version
  | .long "help" (some _) | .long "version" (some _) => .needlessValue
  | .short ('h' :: _) => .help
  | .short ('V' :: _) => .version
  | _ => .unknownArgument

/-- What the arguments of the program ask for. -/
def read : List String → Except Usage Request
  | [] => .error .nothing
  | "help" :: rest => .error (readHelp rest)
  | a :: rest =>
    match shapeOf a with
    | .word =>
      match subcommands.lookup a with
      | some readArguments => readArguments rest
      | none => .error .unknownSubcommand
    | .divider =>
      match rest with
      | [] => .error .nothing
      | b :: _ =>
        .error (if b = "help" || (subcommands.lookup b).isSome then .unknownArgument
          else .unknownSubcommand)
    | shape => .error (readLeading shape)

/-! ### What the program says about itself -/

/-- The name under which the program speaks. -/
def programName : String := "undo-journal"

/-- The version of the program. -/
def versionText : String := programName ++ " 0.1.0"

/-- How the program is used. -/
def helpText : String :=
  String.intercalate "\n"
    ["Replay an undo history script through the event log and print the history view", "",
      "Usage: " ++ programName ++ " <COMMAND>", "", "Commands:",
      "  run <SCRIPT> [--config <CONFIG>] [--json] [--guides <ascii|unicode|rounded>]",
      "                        Replay a history script",
      "  check-config <FILE>   " ++
        "Load a configuration file, validate it and print the effective values",
      "  help [COMMAND]        Print this message", "", "Options:", "  -h, --help     Print help",
      "  -V, --version  Print version"]

/-- What is wrong with arguments that ask for nothing the program does. -/
def Usage.problem : Usage → String
  | help | nothing => helpText
  | version => versionText
  | unknownSubcommand => "error: unrecognized subcommand"
  | unknownArgument => "error: unexpected argument found"
  | badValue => "error: an argument lacks a value or has an invalid one"
  | needlessValue => "error: a value is given to an option that takes none"
  | conflict => "error: an option cannot be used multiple times"
  | missingArgument => "error: a required argument was not provided"

end UndoJournal.CommandLine
