import FloatCases.Command.Run
import FloatCases.Log.Standard

/-!
The command line.
-/
namespace FloatCases.Command

/-- The text of a file, if it can be read and is text. -/
def readFile (path : Text) : IO (Option Text) := do
  try
    return (String.fromUTF8? (← IO.FS.readBinFile (String.ofList path))).map String.toList
  catch _ => return none

/-- What a list of arguments refers to in the world: the one file that it names. -/
def readNamed (args : List Text) : IO (Text → Option Text) := do
  match Action.ofArguments args with
  | .convert r =>
    let source ← readFile r.path
    return fun path => if path = r.path then source else none
  | _ => return fun _ => none

/-- The values of the environment variables that the program looks at. -/
def readEnv : IO (Text → Option Text) := do
  let values ← logVariables.mapM fun v => return (v, ← IO.getEnv (String.ofList v))
  return fun name => ((values.lookup name).join).map String.toList

end FloatCases.Command

open FloatCases Command in
def main (args : List String) : IO UInt32 := do
  let args := args.map String.toList
  let program := (← IO.appPath).toString.toList
  let outcome := Command.run .standard ⟨program, args, ← readEnv, ← readNamed args⟩
  for entry in outcome.log do
    IO.eprintln (String.ofList entry)
  if let some report := outcome.report then
    IO.eprint (String.ofList report)
  if let some complaint := outcome.complaint then
    IO.eprintln (String.ofList complaint)
  IO.print (String.ofList outcome.stdout)
  return UInt32.ofNat outcome.exit
