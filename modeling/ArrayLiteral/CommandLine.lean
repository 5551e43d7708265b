import ArrayLiteral.Output

/-!
# Command line

Arguments are read from left to right, and the first one that is an error or
asks for the version or the help decides.  An argument that starts with a hyphen
is a long option, or a bundle of one-letter options; `-` alone and the empty
argument are none.  A value follows its option directly, behind an equals sign,
or as the next argument, which then must not look like an option.  Behind `--`
no argument is an option.  At most one argument is no option, the contents.  No
option but `verbose` may be repeated.
-/

namespace ArrayLiteral

/-- What the command line asks for. -/
structure Options where
  mode : Mode := .array
  /-- The contents are the path of a file. -/
  file : Bool := false
  pretty : Bool := false
  limits : Limits := {}
  contents? : Option String := none

namespace CommandLine

/-- An option without a value. -/
inductive Flag
  | file
  | pretty
  | verbose
  deriving DecidableEq

/-- An option with a value. -/
inductive Setting
  | mode
  | maxLen
  | maxDepth
  deriving DecidableEq

inductive Switch
  | flag (flag : Flag)
  | setting (setting : Setting)
  | version
  | help
  deriving DecidableEq

def Switch.ofLong? : String → Option Switch
  | "mode" => some (.setting .mode)
  | "file" => some (.flag .file)
  | "pretty" => some (.flag .pretty)
  | "max-len" => some (.setting .maxLen)
  | "max-depth" => some (.setting .maxDepth)
  | "verbose" => some (.flag .verbose)
  | "version" => some .version
  | "help" => some .help
  | _ => none

def Switch.ofShort? : Char → Option Switch
  | 'm' => some (.setting .mode)
  | 'f' => some (.flag .file)
  | 'p' => some (.flag .pretty)
  | 'v' => some (.flag .verbose)
  | 'V' => some .version
  | 'h' => some .help
  | _ => none

/-- Why the arguments are not accepted. -/
inductive UsageError
  | unknownOption (argument : String)
  | missingValue (setting : Setting)
  | unexpectedValue (argument : String)
  | unknownMode (mode : UnknownMode)
  | invalidNumber (text : String)
  | repeatedOption (argument : String)
  | extraArgument (argument : String)

def Setting.name : Setting → String
  | mode => "mode"
  | maxLen => "max-len"
  | maxDepth => "max-depth"

def UsageError.message : UsageError → String
  | unknownOption argument => "unknown option " ++ argument
  | missingValue setting => "a value is required for --" ++ setting.name
  | unexpectedValue argument => "--" ++ argument ++ " takes no value"
  | unknownMode mode => mode.message
  | invalidNumber text => "invalid number " ++ Text.quotedString text
  | repeatedOption argument => "--" ++ argument ++ " cannot be repeated"
  | extraArgument argument => "unexpected argument " ++ argument

/-- What a command line comes to. -/
inductive Request
  | run (options : Options)
  | version
  | help
  | refuse (error : UsageError)

/-- The options read so far. -/
structure Given where
  mode? : Option Mode := none
  maxLen? : Option UInt64 := none
  maxDepth? : Option UInt64 := none
  file : Bool := false
  pretty : Bool := false
  contents? : Option String := none

namespace Given

def toOptions (given : Given) : Options :=
  let defaults : Options := {}
  { mode := given.mode?.getD defaults.mode
    file := given.file
    pretty := given.pretty
    limits :=
      { maxArrayLen := given.maxLen?.getD defaults.limits.maxArrayLen
        maxDepth := given.maxDepth?.getD defaults.limits.maxDepth }
    contents? := given.contents? }

/-- Sets a flag, which must not be set already. -/
def setFlag (given : Given) : Flag → Except UsageError Given
  | .verbose => .ok given
  | .file =>
    if given.file then .error (.repeatedOption "file") else .ok { given with file := true }
  | .pretty =>
    if given.pretty then .error (.repeatedOption "pretty") else .ok { given with pretty := true }

end Given

/-- Reads decimal digits with an optional plus sign as a 64-bit word. -/
def readNumber (text : String) : Except UsageError UInt64 :=
  let digits :=
    match text.toList with
    | '+' :: digits => digits
    | digits => digits
  let value := Nat.ofDigitChars 10 digits 0
  if digits ≠ [] ∧ digits.all Char.isDigit ∧ value < UInt64.size then .ok (.ofNat value)
  else .error (.invalidNumber text)

/-- Gives an option its value, which it must not have already. -/
def Given.set (given : Given) (setting : Setting) (text : String) : Except UsageError Given :=
  match setting with
  | .mode => do
    let mode ← (Mode.ofName text).mapError .unknownMode
    if given.mode?.isSome then .error (.repeatedOption "mode")
    else return { given with mode? := some mode }
  | .maxLen => do
    let number ← readNumber text
    if given.maxLen?.isSome then .error (.repeatedOption "max-len")
    else return { given with maxLen? := some number }
  | .maxDepth => do
    let number ← readNumber text
    if given.maxDepth?.isSome then .error (.repeatedOption "max-depth")
    else return { given with maxDepth? := some number }

/-- Takes an argument that is no option. -/
def Given.setContents (given : Given) (argument : String) : Except UsageError Given :=
  if given.contents?.isSome then .error (.extraArgument argument)
  else .ok { given with contents? := some argument }

/-- What an argument leads to. -/
inductive Effect
  | goOn (given : Given)
  /-- The next argument is the value of this option. -/
  | await (setting : Setting) (given : Given)
  | stop (request : Request)

def Effect.ofExcept : Except UsageError Given → Effect
  | .ok given => goOn given
  | .error error => stop (.refuse error)

/-- Reads a long option, `name` or `name=value`. -/
def readLong (given : Given) (text : List Char) : Effect :=
  let name := text.takeWhile (· ≠ '=')
  let value? := (text.dropWhile (· ≠ '=')).tail?.map String.ofList
  match Switch.ofLong? (.ofList name), value? with
  | none, _ => .stop (.refuse (.unknownOption (.ofList name)))
  | some (.setting setting), none => .await setting given
  | some (.setting setting), some value => .ofExcept (given.set setting value)
  | some _, some _ => .stop (.refuse (.unexpectedValue (.ofList name)))
  | some (.flag flag), none => .ofExcept (given.setFlag flag)
  | some .version, none => .stop .version
  | some .help, none => .stop .help

/-- Reads a bundle of one-letter options. One with a value ends the bundle, and
what follows it is the value. -/
def readShort (given : Given) : List Char → Effect
  | [] => .goOn given
  | letter :: rest =>
    match Switch.ofShort? letter with
    | none => .stop (.refuse (.unknownOption (.singleton letter)))
    | some .version => .stop .version
    | some .help => .stop .help
    | some (.flag flag) =>
      match given.setFlag flag with
      | .ok given => readShort given rest
      | .error error => .stop (.refuse error)
    | some (.setting setting) =>
      match rest with
      | [] => .await setting given
      | '=' :: value => .ofExcept (given.set setting (.ofList value))
      | value => .ofExcept (given.set setting (.ofList value))

/-- Whether an argument is taken for options. -/
def looksLikeOption (argument : String) : Bool :=
  argument.toList.head? = some '-' && argument ≠ "-"

def readArgument (given : Given) (argument : String) : Effect :=
  if looksLikeOption argument then
    match argument.toList with
    | _ :: '-' :: long => readLong given long
    | _ :: short => readShort given short
    | [] => .goOn given
  else .ofExcept (given.setContents argument)

/-- Reads arguments of which none is an option. -/
def readContents (given : Given) : List String → Request
  | [] => .run given.toOptions
  | argument :: rest =>
    match given.setContents argument with
    | .ok given => readContents given rest
    | .error error => .refuse error

/-- Reads arguments from left to right. -/
def readArguments (given : Given) : List String → Request
  | [] => .run given.toOptions
  | "--" :: rest => readContents given rest
  | argument :: rest =>
    match readArgument given argument with
    | .goOn given => readArguments given rest
    | .stop request => request
    | .await setting given =>
      match rest with
      | [] => .refuse (.missingValue setting)
      | value :: rest =>
        if looksLikeOption value then .refuse (.missingValue setting)
        else
          match given.set setting value with
          | .ok given => readArguments given rest
          | .error error => .refuse error

/-- What the arguments ask for. -/
def read (arguments : List String) : Request :=
  readArguments {} arguments

end CommandLine

end ArrayLiteral
