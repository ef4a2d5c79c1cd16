/-
# The command line

    [DIR] [--ast-dir D] [--out-dir D] [--trace] [--target-func N] [--min-depth N]
      [-v|--verbose] [--threads N] [-h|--help] [-V|--version]

Arguments are read from left to right; the first one that is wrong, or that asks for help or for the
version, decides. An option takes its value from the next argument or after an equals sign. Two
dashes end the options. No option may be given twice.

What the command line leaves open is taken from the environment, and a value there has to be as good
as one on the command line.
-/
import CallDepth.Digits
import CallDepth.Report.Basic

namespace CallDepth

/-- Why a command line is refused. -/
inductive UsageError where
  | unknownArgument (argument : String)
  | repeated (option : String)
  | missingValue (option : String)
  | unexpectedValue (option value : String)
  | invalidValue (option value : String)
  | extraArgument (argument : String)
deriving DecidableEq, Repr, Inhabited

def UsageError.message : UsageError → String
  | unknownArgument argument => "unexpected argument '" ++ argument ++ "' found"
  | repeated option => "the argument '" ++ option ++ "' cannot be used multiple times"
  | missingValue option => "a value is required for '" ++ option ++ "' but none was supplied"
  | unexpectedValue option value =>
      "unexpected value '" ++ value ++ "' for '" ++ option ++ "' found; no more were expected"
  | invalidValue option value => "invalid value '" ++ value ++ "' for '" ++ option ++ "'"
  | extraArgument argument => "unexpected argument '" ++ argument ++ "' found"

structure Job where
  /-- The directory of source files. -/
  directory : String
  /-- The directory of report files; that of the source files when absent. -/
  output : Option String
  settings : Settings
deriving DecidableEq, Repr, Inhabited

/-- What a command line asks for. -/
inductive Request where
  | help
  | version
  | run (job : Job)
deriving DecidableEq, Repr, Inhabited

inductive ValueOption where
  | astDir
  | outDir
  | targetFunc
  | minDepth
  | threads
deriving DecidableEq, Repr, Inhabited

inductive FlagOption where
  | trace
  | verbose
  | help
  | version
deriving DecidableEq, Repr, Inhabited

def longOption? (name : String) : Option (ValueOption ⊕ FlagOption) :=
  if name = "ast-dir" then some (.inl .astDir)
  else if name = "out-dir" then some (.inl .outDir)
  else if name = "target-func" then some (.inl .targetFunc)
  else if name = "min-depth" then some (.inl .minDepth)
  else if name = "threads" then some (.inl .threads)
  else if name = "trace" then some (.inr .trace)
  else if name = "verbose" then some (.inr .verbose)
  else if name = "help" then some (.inr .help)
  else if name = "version" then some (.inr .version)
  else none

def shortOption? (letter : Char) : Option FlagOption :=
  if letter = 'v' then some .verbose
  else if letter = 'h' then some .help
  else if letter = 'V' then some .version
  else none

def ValueOption.name : ValueOption → String
  | astDir => "--ast-dir <AST_DIR>"
  | outDir => "--out-dir <OUT_DIR>"
  | targetFunc => "--target-func <TARGET_FUNC>"
  | minDepth => "--min-depth <MIN_DEPTH>"
  | threads => "--threads <THREADS>"

/-- Why the rest of the command line is not read. -/
inductive Stop where
  | refused (error : UsageError)
  | help
  | version
deriving DecidableEq, Repr, Inhabited

/-- What has been given on the command line so far. -/
structure Given where
  dir : Option String := none
  astDir : Option String := none
  outDir : Option String := none
  targetFunc : Option String := none
  minDepth : Option Nat := none
  threads : Option Nat := none
  trace : Bool := false
  verbose : Bool := false
deriving DecidableEq, Repr, Inhabited

/-- A path, which may not be empty. -/
def path? (text : String) : Option String :=
  if text = "" then none else some text

def word? (text : String) : Option Nat :=
  boundedNat? wordBound text

/-- A truth value, in any letter case. -/
def truth? (text : String) : Option Bool :=
  let lower := String.ofList (text.toList.map Char.toLower)
  if ["y", "yes", "t", "true", "on", "1"].contains lower then some true
  else if ["n", "no", "f", "false", "off", "0"].contains lower then some false
  else none

namespace Given

/-- The first value of an option, read by its rule. -/
def first {α : Type} (old : Option α) (name text : String) (read : String → Option α) :
    Except Stop (Option α) :=
  if old.isSome then .error (.refused (.repeated name))
  else match read text with
    | none => .error (.refused (.invalidValue name text))
    | some value => .ok (some value)

def setValue (given : Given) (option : ValueOption) (text : String) : Except Stop Given :=
  match option with
  | .astDir => (first given.astDir option.name text path?).map ({ given with astDir := · })
  | .outDir => (first given.outDir option.name text path?).map ({ given with outDir := · })
  | .targetFunc =>
      (first given.targetFunc option.name text some).map ({ given with targetFunc := · })
  | .minDepth => (first given.minDepth option.name text word?).map ({ given with minDepth := · })
  | .threads => (first given.threads option.name text word?).map ({ given with threads := · })

def setDir (given : Given) (text : String) : Except Stop Given :=
  if given.dir.isSome then .error (.refused (.extraArgument text))
  else match path? text with
    | none => .error (.refused (.invalidValue "[DIR]" text))
    | some path => .ok { given with dir := some path }

def setFlag (given : Given) : FlagOption → Except Stop Given
  | .trace =>
      if given.trace then .error (.refused (.repeated "--trace"))
      else .ok { given with trace := true }
  | .verbose =>
      if given.verbose then .error (.refused (.repeated "--verbose"))
      else .ok { given with verbose := true }
  | .help => .error .help
  | .version => .error .version

def setLetters (given : Given) : List Char → Except Stop Given
  | [] => .ok given
  | letter :: rest =>
      match shortOption? letter with
      | none => .error (.refused (.unknownArgument (String.ofList ['-', letter])))
      | some flag => do (← given.setFlag flag).setLetters rest

end Given

/-- The shape of an argument before the end of the options. -/
inductive Shape where
  /-- Two dashes alone. -/
  | endOfOptions
  /-- A long option, with what follows an equals sign. -/
  | long (name : String) (value : Option String)
  /-- Letters after one dash. -/
  | letters (letters : List Char)
  /-- Anything else, a single dash included. -/
  | plain
deriving DecidableEq, Repr, Inhabited

def Shape.ofArgument (argument : String) : Shape :=
  match argument.toList with
  | ['-', '-'] => .endOfOptions
  | '-' :: '-' :: rest =>
      let name := rest.takeWhile (· ≠ '=')
      .long (String.ofList name)
        (if name.length = rest.length then none
          else some (String.ofList (rest.drop (name.length + 1))))
  | '-' :: letter :: rest => .letters (letter :: rest)
  | _ => .plain

/-- Read the arguments after the end of the options. -/
def readPlain (given : Given) : List String → Except Stop Given
  | [] => .ok given
  | argument :: rest => do readPlain (← given.setDir argument) rest

/-- Read arguments. A value option that waits for its value is given as `pending`. -/
def readArguments (given : Given) (pending : Option ValueOption) :
    List String → Except Stop Given
  | [] =>
      match pending with
      | some option => .error (.refused (.missingValue option.name))
      | none => .ok given
  | argument :: rest =>
      match Shape.ofArgument argument, pending with
      | .plain, some option => do readArguments (← given.setValue option argument) none rest
      | .plain, none => do readArguments (← given.setDir argument) none rest
      | _, some option => .error (.refused (.missingValue option.name))
      | .endOfOptions, none => readPlain given rest
      | .letters letters, none => do readArguments (← given.setLetters letters) none rest
      | .long name value, none =>
          match longOption? name, value with
          | none, _ => .error (.refused (.unknownArgument argument))
          | some (.inr _), some text => .error (.refused (.unexpectedValue ("--" ++ name) text))
          | some (.inr flag), none => do readArguments (← given.setFlag flag) none rest
          | some (.inl option), none => readArguments given (some option) rest
          | some (.inl option), some text => do
              readArguments (← given.setValue option text) none rest

/-- A value from the environment, read by its rule, unless the command line gives one. -/
def fallback {α : Type} (old : Option α) (environment : List (String × String)) (name : String)
    (read : String → Option α) : Except UsageError (Option α) :=
  match old, environment.lookup name with
  | some value, _ => .ok (some value)
  | none, none => .ok none
  | none, some text =>
      match read text with
      | none => .error (.invalidValue name text)
      | some value => .ok (some value)

def defaultDirectory : String := "test_ast"

/-- The run that is asked for, with what the environment adds. -/
def Given.job (given : Given) (environment : List (String × String)) : Except UsageError Job := do
  let astDir ← fallback given.astDir environment "AST_DIR" path?
  let trace ← fallback (if given.trace then some true else none) environment "TRACE" truth?
  let target ← fallback given.targetFunc environment "TARGET_FUNC" some
  let minDepth ← fallback given.minDepth environment "MIN_DEPTH" word?
  let verbose ←
    fallback (if given.verbose then some true else none) environment "DEBUG_CALLS" truth?
  return {
    directory := given.dir.getD (astDir.getD defaultDirectory)
    output := given.outDir
    settings := {
      trace := trace.getD false
      verbose := verbose.getD false
      target := target
      minDepth := minDepth.getD 0 } }

/-! ## Help -/

/-- An option as the help shows it, with the variable that stands in for it and its default. -/
structure HelpLine where
  usage : String
  purpose : String
  standIn : Option String := none
  default : Option String := none

def optionHelp : List HelpLine := [
  { usage := "    " ++ ValueOption.astDir.name, purpose := "Directory of Solidity AST JSON files",
    standIn := some "AST_DIR", default := some defaultDirectory },
  { usage := "    " ++ ValueOption.outDir.name,
    purpose := "Where depths.json / depth_traces.json go (default: the AST directory)" },
  { usage := "    --trace", purpose := "Build explanation chains and write depth_traces.json",
    standIn := some "TRACE" },
  { usage := "    " ++ ValueOption.targetFunc.name,
    purpose := "Function whose deepest trace is printed", standIn := some "TARGET_FUNC" },
  { usage := "    " ++ ValueOption.minDepth.name, purpose := "Hide table rows below this depth",
    standIn := some "MIN_DEPTH", default := some "0" },
  { usage := "-v, --verbose", purpose := "Log every evaluated call at debug level",
    standIn := some "DEBUG_CALLS" },
  { usage := "    " ++ ValueOption.threads.name,
    purpose := "Worker threads (default: half the cores)" },
  { usage := "-h, --help", purpose := "Print help" },
  { usage := "-V, --version", purpose := "Print version" }]

/-- The line of an option, its purpose at a column. The variable is shown with its value. -/
def HelpLine.text (environment : List (String × String)) (column : Nat) (line : HelpLine) :
    String :=
  let gap := String.ofList (List.replicate (column - line.usage.length) ' ')
  let standIn := line.standIn.map fun name =>
    " [env: " ++ name ++ "=" ++ (environment.lookup name).getD "" ++ "]"
  let default := line.default.map fun value => " [default: " ++ value ++ "]"
  "  " ++ line.usage ++ gap ++ "  " ++ line.purpose ++ standIn.getD "" ++ default.getD "" ++ "\n"

def aboutText : String :=
  "sol-depth - Static analysis of Solidity ASTs: weighted call-expansion depth per function, " ++
    "with inheritance-aware call resolution and max-depth traces."

def helpText (environment : List (String × String)) : String :=
  let column := ((optionHelp.map fun line => line.usage.length).max?).getD 0
  aboutText ++ "\n\nUsage: sol_depth [OPTIONS] [DIR]\n\nArguments:\n" ++
    "  [DIR]  Directory of Solidity AST JSON files (overrides --ast-dir)\n\nOptions:\n" ++
    String.join (optionHelp.map (·.text environment column))

def Request.parse (arguments : List String) (environment : List (String × String)) :
    Except UsageError Request :=
  match readArguments {} none arguments with
  | .error (.refused error) => .error error
  | .error .help => .ok .help
  | .error .version => .ok .version
  | .ok given => (given.job environment).map .run

end CallDepth
