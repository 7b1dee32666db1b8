import FloatCases.Command.Arguments
import FloatCases.Command.Path
import FloatCases.Conversion
import FloatCases.Log
import FloatCases.Report.Drawing
import FloatCases.Text.Visible

/-!
A run of the program: from its name, its arguments, its environment and the files that it can read
to what it prints and how it ends.
-/
namespace FloatCases.Command

/-- What a run of the program depends on. -/
structure Invocation where
  /-- The name under which the program was started. -/
  program : Text
  args : List Text
  /-- The value of an environment variable, if it is set. -/
  env : Text → Option Text
  /-- The text of a file, if it can be read and is text. -/
  read : Text → Option Text

/-- What a run of the program shows. -/
structure Outcome where
  exit : Nat
  stdout : Text
  log : List Text
  /-- The report of a fault, if there is one. -/
  report : Option Text
  /-- What else went wrong, if anything did. -/
  complaint : Option Text
  deriving DecidableEq, Repr

/-- What the program is called if it was started without a name. -/
def defaultName : Text :=
  "fptab".toList

/-- What the program calls itself: the file name under which it was started. -/
def ownName (program : Text) : Text :=
  (Path.fileName? program).getD defaultName

/-- How a program of a given name is called. The name is shown without commands to a terminal. -/
def usage (name : Text) : Text :=
  "Usage: ".toList ++ Text.visible name ++ " [OPTIONS] <PATH>".toList

/-- The lines that a request for help prints. -/
def helpLines (name : Text) : List Text :=
  [ "Convert a libc-test math test file into a Zig test table".toList,
    [],
    usage name,
    [],
    "Arguments:".toList,
    "  <PATH>  Test file to convert".toList,
    [],
    "Options:".toList,
    "  -v, --verbose            Enable debug logging".toList,
    "  -a, --all                Keep test cases for every rounding mode, not only RN".toList,
    "  -f, --float-type <TYPE>  Float type of the file ".toList
      ++ "(f16, f32, f64, f128, c_longdouble); inferred when omitted".toList,
    "  -h, --help               Print help".toList ]

/-- The environment variables that say what is logged, the one that counts more first. -/
def logVariables : List Text :=
  ["FPTAB_LOG".toList, "RUST_LOG".toList]

/-- What is logged: all but traces on request, otherwise what the environment says, or warnings. -/
def filter (lg : Logger) (env : Text → Option Text) (verbose : Bool) : Filter :=
  if verbose then lg.filter "debug".toList
  else
    (logVariables.findSome? fun v => (env v).bind lg.filter?).getD (lg.filter "warn".toList)

/-- The options of the conversion that a request asks for. The listing names the program. -/
def options (program : Text) (r : Request) : Options :=
  ⟨r.format, if r.all then .all else .default, ownName program⟩

/-- Everything that is told about the conversion of a file. -/
def events (o : Options) (source : Text) : List Event :=
  Conversion.events o source
    ++ match Conversion.convert o source with
      | .error _ => []
      | .ok c => [.converted c.testcases.length c.format]

/-- Converts a file that has been read. -/
def convertFile (lg : Logger) (f : Filter) (o : Options) (path source : Text) : Outcome :=
  let log := lg.log f (events o source)
  match Conversion.convert o source with
  | .error e =>
    { exit := 1, stdout := [], log, report := some (Report.render true e path), complaint := none }
  | .ok c => { exit := 0, stdout := c.output, log, report := none, complaint := none }

/-- Ends without a conversion. -/
def finish (exit : Nat) (stdout : Text) (complaint : Option Text) : Outcome :=
  { exit, stdout, log := [], report := none, complaint }

/-- Runs the program. -/
def run (lg : Logger) (x : Invocation) : Outcome :=
  match Action.ofArguments x.args with
  | .help => finish 0 (Text.unlines (helpLines (ownName x.program))) none
  | .misuse => finish 2 [] (some (usage (ownName x.program)))
  | .convert r =>
    match x.read r.path with
    | none => finish 1 [] (some ("Failed to read ".toList ++ r.path))
    | some source =>
      convertFile lg (filter lg x.env r.verbose) (options x.program r) r.path source

end FloatCases.Command
