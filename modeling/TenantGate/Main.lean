import TenantGate.Serving
import Std.Time.DateTime.Timestamp
/-!
# The program

Reads the command line, the environment and the settings file and starts the service that they
ask for.  A service talks to whoever is at the other end of its standard input and output, and no
backend is connected to it.
-/

namespace TenantGate
namespace Program

def variableNames : List String :=
  [KeySet.setVariable, KeySet.legacyVariable]
    ++ ([CommandLine.CommandName.cortex, .loki, .config, .ddapi].flatMap (·.specs)).filterMap
      (·.fallback)

def readVariables : IO (List (String × String)) :=
  variableNames.filterMapM fun name => do
    return (← IO.getEnv name).map (name, ·)

def reasonOf : IO.Error → String
  | .noFileOrDirectory _ code _ => "No such file or directory (os error " ++ toString code ++ ")"
  | .permissionDenied _ code _ => "Permission denied (os error " ++ toString code ++ ")"
  | e => toString e

def readConfigFile (name : String) : IO ConfigFile := do
  try
    return .holding (← IO.FS.readBinFile ⟨name⟩).data.toList
  catch
    | .noFileOrDirectory file code details =>
      return .missing (reasonOf (.noFileOrDirectory file code details))
    | .permissionDenied file code details =>
      return .missing (reasonOf (.permissionDenied file code details))
    | _ => return .unreadable

def surroundings (args : List String) : IO Surroundings := do
  let found ← readVariables
  let environment := fun (name : String) => found.lookup name
  let file ← match CommandLine.read environment args with
    | .ok { configFile := some name, .. } => readConfigFile name
    | _ => pure .unreadable
  return ⟨fun _ => file, environment, fun _ => .ok (), .ok ()⟩

def now : IO Int := do return (← Std.Time.Timestamp.now).toSecondsSinceUnixEpoch.val

partial def readAll (input : IO.FS.Stream) (before : ByteArray) : IO ByteArray := do
  let bytes ← input.read 65536
  if bytes.isEmpty then return before else readAll input (before ++ bytes)

def serve (g : Gateway) : IO Unit := do
  let received ← readAll (← IO.getStdin) .empty
  let moment : Moment := ⟨← now, fun _ => .error .unreachable⟩
  let output ← IO.getStdout
  output.write ⟨(g.converse moment received.data.toList).toArray⟩
  output.flush

def usage : String := "usage: [--config-file FILE] cortex|loki|config|ddapi --listen ADDRESS ..."

end Program
end TenantGate

open TenantGate in
def main (args : List String) : IO UInt32 := do
  let ending := Startup.run (← Program.surroundings args) args
  match ending with
  | .usage .help => IO.println Program.usage
  | .usage _ => IO.eprintln Program.usage
  | .failure _ => IO.eprintln (ending.complaint?.getD "")
  | .serving gateway => Program.serve gateway
  return UInt32.ofNat ending.exitCode
