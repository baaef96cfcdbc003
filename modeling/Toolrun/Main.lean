/-
The command line. What the program does is decided by `Program.run`; here its
surroundings are read in before, and its results written out after it.

Tools run on the machine of this library. Beside its standard programs there
are those files on it that the command line may have something to do with.
What is new or different on the machine afterwards is written back.
-/
import Toolrun.Host.Supervision
import Toolrun.Program

namespace Toolrun.Terminal

-- ======================================================== surroundings

/-- The variables that the program or its tools may look at. -/
def variableNames : List String :=
  ["HOME", "USERPROFILE", "PATH", "TMPDIR", Settings.toolVariable,
    Settings.languageVariable, Settings.timeoutVariable,
    Logging.filterVariable]

/-- The variables that are set. -/
def readVariables : IO (List (Bytes × Bytes)) :=
  variableNames.filterMapM fun name => do
    match ← IO.getEnv name with
    | some value => return some (Utf8.encode name, Utf8.encode value)
    | none => return none

/-- What a command line asks to run, if it does. -/
def requestOf? (line : CommandLine) : Option RunRequest :=
  match line.command with
  | .run request => some request
  | .showConfig => none

/-- The paths at which a command line makes the program look. -/
def consulted (env : Variables) (line : CommandLine) : List Bytes :=
  let request := requestOf? line
  let changeSet := (request.bind (·.filesFrom)).filter (· ≠ streamWord)
  let named := changeSet.toList ++ (request.bind (·.workingDir)).toList
  line.configPath.toList ++ (Settings.homePath? env).toList ++
    [Settings.localPath] ++ named.map Utf8.encode

/-- Whether a command line takes its change-set from the input. -/
def wantsInput (line : CommandLine) : Bool :=
  (requestOf? line).bind (·.filesFrom) = some streamWord

/-- Where a path leads if all names on it are those of directories. -/
def locationAlong (cwd : Location) (path : Bytes) : Location :=
  (Files.parts path).foldl
    (fun location part =>
      if part.isEmpty || part = [0x2E] then location
      else if part = [0x2E, 0x2E] then location.dropLast
      else location ++ [part])
    (Files.startOf cwd path)

/-- Files with one more node, and the directories that lead to it. -/
def place (files : Files) (location : Location) (node : Node) : Files :=
  let above := (List.range location.length).map location.take
  let files := above.foldl
    (fun files l =>
      if (files.at? l).isSome then files else files.set l .directory)
    files
  if location.isEmpty then files else files.set location node

/-- What is at a path, if anything. -/
def nodeAt? (path : String) : IO (Option Node) := do
  try
    let content ← IO.FS.readBinFile path
    return some (.file content.toList Files.defaultMode)
  catch
    | .inappropriateType .. => return some .directory
    | _ => return none

/-- Adds what is at a path to the files. -/
def look (cwd : Location) (files : Files) (path : Bytes) : IO Files := do
  match Utf8.decode? path with
  | none => return files
  | some text =>
    match ← nodeAt? text with
    | some node => return place files (locationAlong cwd path) node
    | none => return files

/-- Reads the input to its end, or up to a fault. -/
def readInput : IO (Bytes × Option IoFault) := do
  try
    return ((← (← IO.getStdin).readBinToEnd).toList, none)
  catch fault => return ([], some (.other (toString fault)))

/-- Reads in everything that the program may look at. -/
def readSurroundings (words : List Bytes) : IO Surroundings := do
  let environment ← readVariables
  let cwd := Host.locationOf (← IO.currentDir).toString
  let bare : Surroundings :=
    { files := place Host.standardFiles cwd .directory
      cwd := cwd
      environment := environment
      processId := ← IO.monoMsNow }
  match CommandLine.read words with
  | .error _ => return bare
  | .ok line =>
    let files ← (consulted bare.env line).foldlM (look cwd) bare.files
    let (stdin, fault?) ←
      if wantsInput line then readInput else pure ([], none)
    return { bare with files := files, stdin := stdin, stdinFault? := fault? }

-- ============================================================= results

/-- Writes bytes to a stream. -/
def put (stream : IO.FS.Stream) (bytes : Bytes) : IO Unit := do
  stream.write ⟨bytes.toArray⟩
  stream.flush

/-- Writes back what is new or different. A new file that has nothing in it was
opened only: if it has been there all the time, unseen, it stays as it is. -/
def writeBack (before after : Files) : IO Unit := do
  for (location, node) in after.nodes do
    let known := before.at? location
    if known ≠ some node then
      match Utf8.decode? (Files.pathOf location), node with
      | some path, .directory => IO.FS.createDirAll path
      | some path, .file content _ =>
        if known.isNone && content.isEmpty then
          IO.FS.withFile path .append fun _ => pure ()
        else IO.FS.writeBinFile path ⟨content.toArray⟩
      | _, _ => pure ()

/-- How the program is used. -/
def usage : String :=
  "Usage: toolrun [--config PATH] run [OPTIONS] [FILES]...\n" ++
  "       toolrun [--config PATH] config\n"

/-- Answers a command line that leads to no command. -/
def answer (refusal : CommandLine.Refusal) : IO Unit := do
  match refusal with
  | .versionRequested => (← IO.getStdout).putStr CommandLine.versionLine
  | .helpRequested => (← IO.getStdout).putStr usage
  | _ => (← IO.getStderr).putStr usage

/-- Runs the program. -/
def run (words : List Bytes) : IO Int := do
  let w ← readSurroundings words
  let circumstances : Host.Circumstances :=
    { cwd := w.cwd, environment := w.environment }
  match Program.run (Host.runTool circumstances) w words with
  | .usage refusal =>
    answer refusal
    return refusal.exitCode
  | .completed c =>
    writeBack w.files c.files
    put (← IO.getStdout) c.stdout
    put (← IO.getStderr) c.stderr
    return c.exitCode

end Toolrun.Terminal

/-- The program. -/
def main (words : List String) : IO UInt32 := do
  let code ← Toolrun.Terminal.run (words.map Toolrun.Utf8.encode)
  return UInt32.ofNat code.toNat
