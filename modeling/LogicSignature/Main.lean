import LogicSignature.CommandLine.Run
import Std.Time.DateTime.Timestamp

/-
The command line of the checker. Whatever the arguments, the environment and the settings may name
is read into a storage first; the run itself is a function of that storage.
-/

namespace LogicSignature.Main

/-- The variables that the settings know. -/
def variableNames : List String := ["LSIG_LANGSPEC_PATH", "LSIG_LOG_LEVEL", "LSIG_LOG_FORMAT"]

/-- The file names that an argument may hold: all of it, what follows `=`, or what follows the
letter of an option. -/
def fileNames (argument : Text) : List Text :=
  let attached :=
    match CommandLine.splitMark argument with
    | (_, some value) => [value]
    | (_, none) => []
  argument :: argument.drop 2 :: attached

/-- The path of a file name and the paths on the way to it. -/
def pathsOnTheWay (path : Storage.Path) : List Storage.Path :=
  (List.range path.parts.length).map
    (fun count => { path with parts := path.parts.take (count + 1) })

/-- The storage with an entry, or as it was when there is no place for it. -/
def enter (storage : Storage) (path : Storage.Path) (entry : Storage.Entry) : Storage :=
  match storage.write path entry with
  | .ok written => written
  | .error _ => storage

/-- Reads what a path leads to into a storage. -/
def preload (storage : Storage) (path : Storage.Path) : IO Storage := do
  let here ← IO.currentDir
  let full := here / path.text.asString
  if ← full.isDir then return enter storage path .directory
  else if ← full.pathExists then
    let content ← IO.FS.readBinFile full
    return enter storage path (.file content.toList)
  else return storage

/-- Reads what several paths lead to into a storage. -/
def preloadAll (paths : List Storage.Path) (storage : Storage) : IO Storage :=
  paths.foldlM (fun current path => (pathsOnTheWay path).foldlM preload current) storage

/-- The file of the language specification that the settings of a run name. -/
def configuredFile (arguments : List Text) (session : Session) : List Storage.Path :=
  match CommandLine.readLine arguments with
  | .error _ => []
  | .ok request =>
    let (_, prepared) := session.perform (CommandLine.prepare request.given)
    match prepared.configuredSpecPath with
    | .ok (some path) => [path]
    | _ => []

def presentMoment : IO Int := do
  let now ← Std.Time.Timestamp.now
  return now.toNanosecondsSinceUnixEpoch.val / 1000

/-- The session in which a command line runs. -/
def openSession (arguments : List Text) : IO Session := do
  let working := Storage.Path.ofText (Text.ofString (← IO.currentDir).toString)
  let homeText := Text.ofString ((← IO.getEnv "HOME").getD "/")
  let home := Storage.Path.ofText homeText
  let environment ← variableNames.filterMapM (fun name => do
    let value ← IO.getEnv name
    return value.map (fun text => (Text.ofString name, Text.ofString text)))
  let moment ← presentMoment
  let places := Storage.empty (working.parts.map Storage.nameBytes)
    (home.parts.map Storage.nameBytes)
  let empty := Session.start places homeText environment (.ofReading moment (Binary64.zero false))
  let named := (arguments.flatMap fileNames).map Storage.Path.ofText
  let storage ← preloadAll (named ++ empty.defaultFiles) empty.storage
  let session := { empty with storage }
  let complete ← preloadAll (configuredFile arguments session) storage
  return { session with storage := complete }

end LogicSignature.Main

open LogicSignature in
def main (arguments : List String) : IO UInt32 := do
  let words := arguments.map Text.ofString
  let session ← Main.openSession words
  let (result, after) := Session.perform (CommandLine.run words) session
  let stderr ← IO.getStderr
  let stdout ← IO.getStdout
  after.diagnostics.forM (fun line => stderr.putStr line.asString)
  match result with
  | .ok outcome =>
    stdout.putStr outcome.output.asString
    return outcome.code.toUInt32
  | .error fault =>
    stderr.putStr (fault.message.asString ++ "\n")
    return CommandLine.failedCode.toUInt32
