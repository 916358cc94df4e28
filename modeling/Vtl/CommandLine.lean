import Vtl.Bindings.Load
import Vtl.Session
import Vtl.Value.Json

namespace Vtl

namespace CommandLine

inductive Format where
  | text
  | json
deriving DecidableEq

/-- What the arguments ask for. -/
structure Options where
  expression : Option String := none
  file : Option String := none
  bindings : Option String := none
  policy : Option KeyPolicy := none
  format : Option Format := none
  debug : Bool := false

/-- An option that takes a value. -/
inductive Setting where
  | file
  | bindings
  | joinKeys
  | format
deriving DecidableEq

/-- An option as it is named, by a word or by a letter. -/
inductive Switch where
  | setting (setting : Setting)
  | debug
  | help
  | version
deriving DecidableEq

def Switch.ofWord? : String → Option Switch
  | "file" => some (.setting .file)
  | "bindings" => some (.setting .bindings)
  | "join-keys" => some (.setting .joinKeys)
  | "format" => some (.setting .format)
  | "debug" => some .debug
  | "help" => some .help
  | "version" => some .version
  | _ => none

def Switch.ofLetter? : Char → Option Switch
  | 'f' => some (.setting .file)
  | 'b' => some (.setting .bindings)
  | 'd' => some .debug
  | 'h' => some .help
  | 'V' => some .version
  | _ => none

/-- What a command line comes to: a run, a text about the program, or a misuse. -/
inductive Request where
  | run (options : Options)
  | help
  | version
  | misuse

/-- Sets an option that is not set yet. A path must not be empty, and a choice must be one of those
that there are. -/
def Options.set (options : Options) (setting : Setting) (value : String) : Option Options :=
  match setting with
  | .file =>
    if value.isEmpty || options.file.isSome then none else some { options with file := some value }
  | .bindings =>
    if value.isEmpty || options.bindings.isSome then none
    else some { options with bindings := some value }
  | .joinKeys =>
    if options.policy.isSome then none
    else if value = "typed" then some { options with policy := some .typed }
    else if value = "concatenated" then some { options with policy := some .concatenated }
    else none
  | .format =>
    if options.format.isSome then none
    else if value = "text" then some { options with format := some .text }
    else if value = "json" then some { options with format := some .json }
    else none

/-- Where an argument leads: on to the next one, on to the value that an option waits for, or to an
end. -/
inductive Step where
  | next (options : Options)
  | waiting (setting : Setting) (options : Options)
  | done (request : Request)

/-- The step to an option that was set, or to a misuse. -/
def Step.ofSet : Option Options → Step
  | some options => .next options
  | none => .done .misuse

/-- The value that is attached to a letter, behind an equals sign or directly. -/
def attached : List Char → Option String
  | [] => none
  | '=' :: value => some (String.ofList value)
  | value => some (String.ofList value)

/-- Letters behind one hyphen: switches, and at last perhaps an option with its value behind it. -/
def readLetters (options : Options) : List Char → Step
  | [] => .next options
  | letter :: rest =>
    match Switch.ofLetter? letter with
    | none => .done .misuse
    | some .help => .done .help
    | some .version => .done .version
    | some .debug =>
      if options.debug then .done .misuse else readLetters { options with debug := true } rest
    | some (.setting setting) =>
      match attached rest with
      | none => .waiting setting options
      | some value => .ofSet (options.set setting value)

/-- An option that is named by a word, with its value behind an equals sign, if any. -/
def readWord (options : Options) (word : List Char) : Step :=
  let name := word.takeWhile (· != '=')
  let value? := match word.drop name.length with
    | [] => none
    | _ :: value => some (String.ofList value)
  match Switch.ofWord? (String.ofList name), value? with
  | some (.setting setting), none => .waiting setting options
  | some (.setting setting), some value => .ofSet (options.set setting value)
  | some .help, none => .done .help
  | some .version, none => .done .version
  | some .debug, none =>
    if options.debug then .done .misuse else .next { options with debug := true }
  | _, _ => .done .misuse

/-- There is at most one expression, and none beside a program file. -/
def Options.finish (options : Options) : Request :=
  if options.expression.isSome && options.file.isSome then .misuse else .run options

/-- Arguments behind `--`, which are all expressions. -/
def readPlain (options : Options) : List String → Request
  | [] => options.finish
  | arg :: args =>
    if options.expression.isSome then .misuse
    else readPlain { options with expression := some arg } args

/-- The step that an argument makes. One that begins with a hyphen is an option, unless it is the
hyphen alone, and others are the value that an option waits for or else the expression. -/
def readArgument (options : Options) (waiting : Option Setting) (arg : String) : Step :=
  match arg.toList, waiting with
  | '-' :: '-' :: word, none => readWord options word
  | '-' :: letter :: letters, none => readLetters options (letter :: letters)
  | '-' :: _ :: _, some _ => .done .misuse
  | _, some setting => .ofSet (options.set setting arg)
  | _, none =>
    if options.expression.isSome then .done .misuse
    else .next { options with expression := some arg }

/-- Reads arguments from left to right. -/
def readArguments (options : Options) : Option Setting → List String → Request
  | some _, [] => .misuse
  | none, [] => options.finish
  | waiting, arg :: args =>
    if arg = "--" && waiting.isNone then readPlain options args
    else
      match readArgument options waiting arg with
      | .next options => readArguments options none args
      | .waiting setting options => readArguments options (some setting) args
      | .done request => request

def request (args : List String) : Request := readArguments {} none args

/-- What a run of the program leaves behind. -/
structure Result where
  exit : Nat
  output : String
  errors : String

/-- The lines of a cause, the later ones indented like the first. -/
def indented (first others : String) (cause : String) : String :=
  first ++ ("\n" ++ others).intercalate (cause.splitOn "\n")

/-- A cause behind its number. -/
def numbered (cause : String) (number : Nat) : String :=
  let digits := toString number
  "\n" ++ indented ("".pushn ' ' (5 - digits.length) ++ digits ++ ": ") "       " cause

/-- The text of a failure: what failed, and the causes of it, numbered if there are several. -/
def failureText (what : String) (causes : List String) : String :=
  let lines := match causes with
    | [] => ""
    | [cause] => "\n\nCaused by:\n" ++ indented "    " "    " cause
    | causes => "\n\nCaused by:" ++ String.join (causes.mapIdx fun n cause => numbered cause n)
  s!"Error: {what}{lines}\n"

def Result.failure (what : String) (causes : List String) : Result :=
  ⟨1, "", failureText what causes⟩

/-- An outcome as a line of text. A dataset starts on a line of its own behind its name. -/
def outcomeText : Outcome → String
  | .assigned name (.dataset data) => s!"{name} :=\n{Dataset.text data}\n"
  | .assigned name value => s!"{name} := {value.text}\n"
  | .evaluated value => s!"{value.text}\n"

def outcomeJson : Outcome → Json
  | .assigned name value =>
    .object [("assigned", .object [("name", .string name), ("value", value.toJson)])]
  | .evaluated value => .object [("evaluated", .object [("value", value.toJson)])]

def outcomesText (format : Format) (outcomes : List Outcome) : String :=
  match format with
  | .text => String.join (outcomes.map outcomeText)
  | .json => String.ofList ((Json.array (outcomes.map outcomeJson)).pretty 0) ++ "\n"

/-- Reads a file by its path. An error is the text of it. -/
abbrev FileReader := String → Except String String

/-- The program to be run: the expression, the program file, or the standard input. -/
def Options.source (options : Options) (files : FileReader) (input : String) :
    Except Result String :=
  match options.expression, options.file with
  | some expression, _ => .ok expression
  | none, some path =>
    (files path).mapError fun e => .failure s!"Failed to read program file {path}" [e]
  | none, none => .ok input

def Options.loadBindings (options : Options) (files : FileReader) : Except Result Bindings :=
  match options.bindings with
  | none => .ok []
  | some path => do
    let text ← (files path).mapError fun e => .failure s!"Failed to read bindings file {path}" [e]
    (Bindings.load text).mapError fun fault =>
      .failure s!"Failed to load bindings from {path}" fault.causes

def Options.session (options : Options) (bindings : Bindings) : Session :=
  ⟨bindings, options.policy.getD .typed⟩

/-- Runs the program that the options name and prints what its statements did. -/
def Options.execute (options : Options) (files : FileReader) (input : String) :
    Except Result Result := do
  let source ← options.source files input
  let bindings ← options.loadBindings files
  match ((options.session bindings).execute source).1 with
  | .error e => pure (.failure "Evaluation failed" [e.message])
  | .ok outcomes => pure ⟨0, outcomesText (options.format.getD .text) outcomes, ""⟩

/-- What a run reports. One that does not reach the program reports nothing. -/
def Options.executeLog (options : Options) (files : FileReader) (input : String) : List LogRecord :=
  match options.source files input, options.loadBindings files with
  | .ok source, .ok bindings =>
    ⟨.debug, s!"Loaded {bindings.length} binding(s)"⟩
      :: (options.session bindings).executeLog source
  | _, _ => []

def helpText : String :=
  "Evaluate VTL expressions against JSON bindings\n\n"
    ++ "Usage: vtl [OPTIONS] [EXPRESSION]\n\n"
    ++ "Arguments:\n"
    ++ "  [EXPRESSION]  Expression or program to evaluate (read from stdin when omitted)\n\n"
    ++ "Options:\n"
    ++ "  -f, --file <FILE>            Read the program from a file\n"
    ++ "  -b, --bindings <BINDINGS>    JSON file with variable bindings\n"
    ++ "      --join-keys <JOIN_KEYS>  Row key construction for dataset joins (typed, concatenated)\n"
    ++ "      --format <FORMAT>        Output format (text, json)\n"
    ++ "  -d, --debug                  Enable debug logging\n"
    ++ "  -h, --help                   Print help\n"
    ++ "  -V, --version                Print version\n"

def versionText : String := "vibevtl 0.1.0\n"

def misuseText : String := "error: invalid arguments\n\nUsage: vtl [OPTIONS] [EXPRESSION]\n"

/-- Carries out a request. -/
def Request.result (request : Request) (files : FileReader) (input : String) : Result :=
  match request with
  | .help => ⟨0, helpText, ""⟩
  | .version => ⟨0, versionText, ""⟩
  | .misuse => ⟨2, "", misuseText⟩
  | .run options =>
    match options.execute files input with
    | .ok result | .error result => result

def Request.log (request : Request) (files : FileReader) (input : String) : List LogRecord :=
  match request with
  | .run options => options.executeLog files input
  | _ => []

def run (args : List String) (files : FileReader) (input : String) : Result :=
  (request args).result files input

end CommandLine

end Vtl
