import ArrayLiteral.CommandLine

/-!
# Program

The program as a function of its arguments and of what it can read.
`Program.run` says what it prints and how it exits.
-/

namespace ArrayLiteral

/-- Why an input cannot be read. -/
inductive InputFault
  | missing
  | denied
  | isDirectory
  | notText
  deriving DecidableEq

def InputFault.message : InputFault → String
  | missing => "No such file or directory (os error 2)"
  | denied => "Permission denied (os error 13)"
  | isDirectory => "Is a directory (os error 21)"
  | notText => "stream did not contain valid UTF-8"

/-- What the program can read. -/
structure Surroundings where
  standardInput : ByteArray
  /-- The bytes of the file at a path. -/
  file : String → Except InputFault ByteArray

/-- Where a source comes from. -/
inductive Input
  | text (source : String)
  | file (path : String)
  | standardInput

/-- The contents, as a source or as the path of one. Without contents it is the
standard input, even if a file was asked for. -/
def Options.input (options : Options) : Input :=
  match options.contents?, options.file with
  | none, _ => .standardInput
  | some path, true => .file path
  | some source, false => .text source

namespace Input

/-- Bytes as text. -/
def decode (bytes : ByteArray) : Except InputFault String :=
  match String.fromUTF8? bytes with
  | some source => .ok source
  | none => .error .notText

/-- The source that the input has. -/
def source (surroundings : Surroundings) : Input → Except InputFault String
  | text source => .ok source
  | file path => surroundings.file path >>= decode
  | standardInput => decode surroundings.standardInput

end Input

/-- What the program prints, and how it exits. -/
structure Answer where
  exitCode : UInt32
  stdout : String := ""
  stderr : String := ""

namespace Program

/-- Whether nothing is left of a source without the blanks at its ends. -/
def isEmpty (source : String) : Bool :=
  (Text.trim source.toList).isEmpty

/-- Prints what a source is turned into, and nothing for an empty source. -/
def answer (options : Options) (source : String) : Answer :=
  if isEmpty source then { exitCode := 0 }
  else
    match parse options.mode options.limits source with
    | .ok output => { exitCode := 0, stdout := output.toJson.render options.pretty ++ "\n" }
    | .error error => { exitCode := 1, stderr := error.message ++ "\n" }

def versionText : String :=
  "arrinit 0.1.0\n"

def usageText : String :=
  "Usage: arrinit [OPTIONS] [CONTENTS]\n"

def helpText : String :=
  String.intercalate "\n"
    ["Parses array initializers and prints the result as JSON",
      "",
      usageText,
      "Arguments:",
      "  [CONTENTS]  The program to parse. Read from stdin when omitted",
      "",
      "Options:",
      "  -m, --mode <MODE>            What to print: array, ast or tokens [default: array]",
      "  -f, --file                   Treat CONTENTS as a file path",
      "  -p, --pretty                 Pretty-print the JSON output",
      "      --max-len <MAX_LEN>      Largest number of values in the array [default: 1048576]",
      "      --max-depth <MAX_DEPTH>  How deeply brace groups may nest [default: 128]",
      "  -v, --verbose...             Increase logging verbosity",
      "  -h, --help                   Print help",
      "  -V, --version                Print version",
      ""]

/-- What the program does with its arguments. -/
def run (arguments : List String) (surroundings : Surroundings) : Answer :=
  match CommandLine.read arguments with
  | .run options =>
    match options.input.source surroundings with
    | .ok source => answer options source
    | .error fault =>
      { exitCode := 1, stderr := "Failed to read the input: " ++ fault.message ++ "\n" }
  | .version => { exitCode := 0, stdout := versionText }
  | .help => { exitCode := 0, stdout := helpText }
  | .refuse error =>
    { exitCode := 2, stderr := "error: " ++ error.message ++ "\n\n" ++ usageText }

end Program

end ArrayLiteral
