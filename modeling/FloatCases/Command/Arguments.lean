import FloatCases.Format

/-!
The arguments of the command line. They are read from left to right, and the first request for help
or mistake decides; an option may be given once, and one file has to be named.
-/
namespace FloatCases.Command

/-- What the command line asks for. -/
structure Request where
  /-- Whether everything is logged. -/
  verbose : Bool
  /-- Whether test cases for all rounding modes are kept. -/
  all : Bool
  format : Option FloatFormat
  path : Text
  deriving DecidableEq, Repr

/-- What an argument list amounts to. -/
inductive Action where
  | help
  | misuse
  | convert (request : Request)
  deriving DecidableEq, Repr

/-- What the arguments so far have set. -/
structure Settings where
  verbose : Bool
  all : Bool
  format : Option FloatFormat
  path : Option Text
  deriving DecidableEq, Repr

namespace Settings

/-- The settings before the first argument. -/
def initial : Settings :=
  ⟨false, false, none, none⟩

/-- Asks for everything to be logged, which can be done once. -/
def setVerbose? (s : Settings) : Option Settings :=
  if s.verbose then none else some { s with verbose := true }

/-- Asks for all rounding modes, which can be done once. -/
def setAll? (s : Settings) : Option Settings :=
  if s.all then none else some { s with all := true }

/-- Names the format, which can be done once. -/
def setFormat? (s : Settings) (value : Text) : Option Settings :=
  match s.format, FloatFormat.ofName? value with
  | none, some f => some { s with format := some f }
  | _, _ => none

/-- Names the file, which can be done once and not with an empty name. -/
def setPath? (s : Settings) (path : Text) : Option Settings :=
  if s.path.isSome || path = [] then none else some { s with path := some path }

/-- What the settings amount to after the last argument. -/
def finish (s : Settings) : Action :=
  match s.path with
  | none => .misuse
  | some path => .convert ⟨s.verbose, s.all, s.format, path⟩

end Settings

/-- What the next argument can be. -/
inductive Phase where
  /-- An option or the name of a file. -/
  | options
  /-- The name of the format. -/
  | format
  /-- The name of a file. -/
  | paths
  deriving DecidableEq, Repr

/-- What an argument leads to: an end of the reading, or settings to go on with. -/
inductive Effect where
  | stop (outcome : Action)
  | next (phase : Phase) (s : Settings)
  deriving DecidableEq, Repr

namespace Effect

/-- Goes on with settings unless they were refused. -/
def orMisuse (phase : Phase) : Option Settings → Effect
  | none => stop .misuse
  | some s => next phase s

/-- The effect of a group of options of one letter each. The format takes the rest of its group. -/
def ofLetters (s : Settings) : Text → Effect
  | [] => next .options s
  | 'h' :: _ => stop .help
  | 'v' :: rest =>
    match s.setVerbose? with
    | none => stop .misuse
    | some s => ofLetters s rest
  | 'a' :: rest =>
    match s.setAll? with
    | none => stop .misuse
    | some s => ofLetters s rest
  | ['f'] => next .format s
  | 'f' :: '=' :: value => orMisuse .options (s.setFormat? value)
  | 'f' :: value => orMisuse .options (s.setFormat? value)
  | _ => stop .misuse

/-- The effect of an option that is a word, with the value after its equals sign if there is one. -/
def ofWord (s : Settings) (name : Text) : Option Text → Effect
  | none =>
    if name = "help".toList then stop .help
    else if name = "verbose".toList then orMisuse .options s.setVerbose?
    else if name = "all".toList then orMisuse .options s.setAll?
    else if name = "float-type".toList then next .format s
    else stop .misuse
  | some value =>
    if name = "float-type".toList then orMisuse .options (s.setFormat? value) else stop .misuse

/-- The effect of an argument that may be an option. A minus sign alone is the name of a file. -/
def ofArgument (s : Settings) : Text → Effect
  | ['-', '-'] => next .paths s
  | '-' :: '-' :: word => ofWord s (word.takeWhile (· ≠ '=')) (word.dropWhile (· ≠ '=')).tail?
  | '-' :: c :: letters => ofLetters s (c :: letters)
  | path => orMisuse .options (s.setPath? path)

/-- The effect of an argument. -/
def of (s : Settings) (arg : Text) : Phase → Effect
  | .options => ofArgument s arg
  | .format => orMisuse .options (s.setFormat? arg)
  | .paths => orMisuse .paths (s.setPath? arg)

end Effect

namespace Action

/-- Reads arguments on from given settings. -/
def readFrom : Phase → Settings → List Text → Action
  | .format, _, [] => misuse
  | _, s, [] => s.finish
  | phase, s, arg :: rest =>
    match Effect.of s arg phase with
    | .stop outcome => outcome
    | .next phase s => readFrom phase s rest

/-- What an argument list amounts to. -/
def ofArguments (args : List Text) : Action :=
  readFrom .options .initial args

end Action
end FloatCases.Command
