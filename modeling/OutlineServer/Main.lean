import OutlineServer.CommandLine.Start
import OutlineServer.Server.Basic
import Std.Time.DateTime.Timestamp

/-!
# The program

Reads the command line, the settings file and the log that is there already, and then answers
standard input line by line.  The clock is set before each line, and what the server adds to its log
is added to the file before the answer is sent.
-/
namespace OutlineServer.Program

def readOctets? (path : AbsolutePath) : IO (Option (List UInt8)) := do
  let file := (← IO.currentDir) / path.toText.toString
  if ← file.pathExists then return some (← IO.FS.readBinFile file).toList else return none

def microsecondsNow : IO Int := do
  return (← Std.Time.Timestamp.now).toNanosecondsSinceUnixEpoch.val / 1000

def appendLog (path : String) (before after : AuditLog) : IO Unit := do
  let added := after.pieces.toList.drop before.pieces.size
  if added.isEmpty then return
  IO.FS.withFile path .append fun file => file.write ⟨added.flatten.toArray⟩

partial def serveInput (logPath : String) (server : Server) : IO Unit := do
  let input ← (← IO.getStdin).getLine
  if input.isEmpty then return
  let clock : Clock := { now := ← microsecondsNow, step := 0 }
  let (responses, next) := { server with clock }.serve (Text.ofString input).lines
  appendLog logPath server.log next.log
  let output ← IO.getStdout
  responses.forM fun response => output.putStr (Server.outputLine response).toString
  output.flush
  serveInput logPath next

def run (config : Config) : IO Unit := do
  IO.FS.createDirAll config.dataDir.toText.toString
  let logPath := Server.logPath config
  let found ← readOctets? logPath
  serveInput logPath.toText.toString (.start config found { now := 0, step := 0 })

def report (e : CommandLine.StartError) : IO UInt32 := do
  let errors ← IO.getStderr
  match e with
  | .usage e =>
    errors.putStr CommandLine.usage.toString
    errors.putStrLn e.report.toString
    return 2
  | .emptyPath e =>
    errors.putStrLn e.message.toString
    return 1
  | .load e =>
    errors.putStrLn e.message.toString
    return 1

end OutlineServer.Program

def main (arguments : List String) : IO UInt32 := do
  let directory := OutlineServer.AbsolutePath.root.resolve
    (OutlineServer.Text.ofString (← IO.currentDir).toString)
  let surroundings : OutlineServer.Surroundings IO :=
    { directory, octets? := OutlineServer.Program.readOctets? }
  match ← OutlineServer.CommandLine.start surroundings
      (arguments.map OutlineServer.Text.ofString) with
  | .error e => OutlineServer.Program.report e
  | .ok none =>
    (← IO.getStdout).putStr OutlineServer.CommandLine.help.toString
    return 0
  | .ok (some config) =>
    OutlineServer.Program.run config
    return 0
