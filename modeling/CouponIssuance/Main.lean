import CouponIssuance.Http.Transcript
import CouponIssuance.Settings.CommandLine
/-!
# The command

Takes settings from the command line and the environment, plays the transcript on the standard input,
and prints the responses.
-/
namespace CouponIssuance

/-- Prints a text on the standard error, and gives a status to exit with. -/
def failWith (text : String) (status : UInt32) : IO UInt32 := do
  IO.eprintln text
  return status

/-- Plays what is left of a transcript. -/
partial def playLines (settings : Settings) (started : Option Server) : IO UInt32 := do
  let line ← (← IO.getStdin).getLine
  if line.isEmpty then return 0
  match Http.Entry.ofLine? (Text.trimEnd line.toList) with
  | none => failWith "a line is no request" 1
  | some entry =>
    match Http.playNext settings started entry with
    | .error fault => failWith fault.message 1
    | .ok (server, response) =>
      IO.println response.toText
      playLines settings (some server)

/-- The values of the settings that stand in the environment. -/
def environment : IO (List (String × String)) :=
  Setting.all.filterMapM fun s => do
    return (← IO.getEnv s.envName).map fun value => (s.envName, value)

def runCommand (argv : List String) : IO UInt32 := do
  let env ← environment
  match CommandLine.parse argv fun name => env.lookup name with
  | .error fault =>
    if fault.isAnswer then
      IO.println fault.message
      return 0
    else failWith fault.message 2
  | .ok arguments =>
    match Settings.ofArguments arguments with
    | .error fault => failWith fault.message 1
    | .ok settings => playLines settings none

end CouponIssuance

def main (argv : List String) : IO UInt32 := CouponIssuance.runCommand argv
