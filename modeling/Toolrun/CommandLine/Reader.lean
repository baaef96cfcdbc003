/-
Reading a command line, word by word from the left.

A value that stands in a word of its own is not checked when it is met but
when the next option or group of words begins, or at the end; so is the want
of a value. A word that belongs nowhere ends the reading before that, so it is
what gets reported even if the value in front of it is bad as well.
-/
import Toolrun.CommandLine.Basic
import Toolrun.Text.Numeral

namespace Toolrun.CommandLine

/-- What has been met but not yet checked. -/
inductive Pending where
  | nothing
  | option (opt : Opt) (value : Option Bytes)
  | files (paths : List Bytes)
  deriving DecidableEq, Repr

/-- How far the words of one level have been read. -/
structure Progress where
  request : RunRequest := {}
  configPath : Option Bytes := none
  given : List Opt := []
  pending : Pending := .nothing
  deriving DecidableEq, Repr

namespace Progress

/-- A value that is text. -/
def textValue (value : Bytes) : Except Refusal String :=
  match Utf8.decode? value with
  | some s => .ok s
  | none => .error .notUtf8

/-- A value that is an unsigned 64-bit number. -/
def numberValue (value : Bytes) : Except Refusal UInt64 := do
  match Numeral.read (← textValue value) with
  | .ok n => .ok n
  | .error _ => .error .unreadableNumber

/-- A value that names a format. -/
def formatValue (value : Bytes) : Except Refusal Format :=
  if value = Utf8.encode "text" then .ok .text
  else if value = Utf8.encode "json" then .ok .json
  else .error .badValue

/-- A value that is a path, which is never empty. -/
def pathValue (value : Bytes) : Except Refusal Bytes :=
  if value.isEmpty then .error .badValue else .ok value

/-- Stores an option's value. -/
def store (p : Progress) (opt : Opt) (value : Bytes) :
    Except Refusal Progress := do
  let r := p.request
  match opt with
  | .config => .ok { p with configPath := some (← pathValue value) }
  | .tool => .ok { p with request := { r with tool := ← textValue value } }
  | .language =>
    .ok { p with request := { r with language := ← textValue value } }
  | .filesFrom =>
    .ok { p with request := { r with filesFrom := ← textValue value } }
  | .timeoutMs =>
    .ok { p with request := { r with timeoutMs := ← numberValue value } }
  | .captureBytes =>
    .ok { p with request := { r with captureBytes := ← numberValue value } }
  | .cwd =>
    .ok { p with request := { r with workingDir := ← textValue value } }
  | .env =>
    .ok { p with request := { r with env := r.env ++ [← textValue value] } }
  | .format =>
    .ok { p with request := { r with format := ← formatValue value } }

/-- Takes an option with its value, if it has one. Every option but `--env`
stands at most once at a level. -/
def take (p : Progress) (opt : Opt) (value : Option Bytes) :
    Except Refusal Progress :=
  match value with
  | none => .error .badValue
  | some value =>
    if opt ≠ .env && p.given.contains opt then .error .repeatedOption
    else store { p with given := opt :: p.given } opt value

/-- Checks what is pending. -/
def settle (p : Progress) : Except Refusal Progress := do
  let q := { p with pending := .nothing }
  match p.pending with
  | .nothing => .ok q
  | .option opt value => q.take opt value
  | .files paths =>
    let paths ← paths.mapM pathValue
    .ok { q with request := { q.request with
      files := q.request.files ++ paths } }

/-- Begins an option: one with its value attached is complete, another waits
for the next word. -/
def begin (p : Progress) (opt : Opt) (attached : Option Bytes) :
    Except Refusal Progress := do
  let p ← p.settle
  match attached with
  | some value => p.take opt (some value)
  | none => .ok { p with pending := .option opt none }

/-- Takes a path; paths that follow one another are checked together. -/
def addFile (p : Progress) (path : Bytes) : Except Refusal Progress := do
  match p.pending with
  | .files paths => .ok { p with pending := .files (paths ++ [path]) }
  | _ =>
    let p ← p.settle
    .ok { p with pending := .files [path] }

/-- Ends the reading with a request for help or the version, unless what is
pending is bad. -/
def answer (p : Progress) (refusal : Refusal) : Except Refusal Progress := do
  let _ ← p.settle
  .error refusal

end Progress

-- ============================================ what the levels have alike

/-- The name of the help flag. -/
def helpName : Bytes := Utf8.encode "help"

/-- The name of the version flag. -/
def versionName : Bytes := Utf8.encode "version"

/-- A flag that takes no value and ends the reading. -/
def flag (p : Progress) (refusal : Refusal) (attached : Option Bytes) :
    Except Refusal Progress :=
  match attached with
  | some _ => .error .unexpectedValue
  | none => p.answer refusal

-- ========================================================= behind `run`

/-- Every word is a path. -/
def readPaths (p : Progress) : List Bytes → Except Refusal Progress
  | [] => p.settle
  | path :: words => do readPaths (← p.addFile path) words

/-- The words behind `run`. -/
def readRun (p : Progress) : List Bytes → Except Refusal Progress
  | [] => p.settle
  | word :: words =>
    match Word.of word with
    | .endOfOptions => readPaths p words
    | .long name attached =>
      match Opt.named? name with
      | some opt => do readRun (← p.begin opt attached) words
      | none =>
        if name = helpName then flag p .helpRequested attached
        else .error .unknownArgument
    | .short letters =>
      if letters.head? = some 0x68 then p.answer .helpRequested
      else .error .unknownArgument
    | .plain value =>
      match p.pending with
      | .option opt none =>
        readRun { p with pending := .option opt (some value) } words
      | _ => do readRun (← p.addFile value) words

-- ====================================================== behind `config`

/-- The words behind `config`: there are no paths. -/
def readConfig (p : Progress) : List Bytes → Except Refusal Progress
  | [] => p.settle
  | word :: words =>
    match Word.of word with
    | .endOfOptions =>
      if words.isEmpty then p.settle else .error .unknownArgument
    | .long name attached =>
      if name = Utf8.encode Opt.config.name then do
        readConfig (← p.begin .config attached) words
      else if name = helpName then flag p .helpRequested attached
      else .error .unknownArgument
    | .short letters =>
      if letters.head? = some 0x68 then p.answer .helpRequested
      else .error .unknownArgument
    | .plain value =>
      match p.pending with
      | .option opt none =>
        readConfig { p with pending := .option opt (some value) } words
      | _ => .error .unknownArgument

-- ==================================================== the outermost level

/-- The names of the commands that help knows about. -/
def commandNames : List Bytes := ["run", "config", "help"].map Utf8.encode

/-- The words behind `help`: at most the name of one command. -/
def readHelp : List Bytes → Refusal
  | [] => .helpRequested
  | [name] =>
    if commandNames.contains name then .helpRequested else .unknownSubcommand
  | _ => .unknownSubcommand

/-- Puts the levels together. What is pending in front of a command is
checked last, and a configuration file named behind it wins. -/
def close (outer inner : Progress) (command : Command) :
    Except Refusal CommandLine := do
  let outer ← outer.settle
  .ok ⟨inner.configPath <|> outer.configPath, command⟩

/-- The end of a command line without a command. -/
def closeEmpty (p : Progress) : Except Refusal CommandLine := do
  let p ← p.settle
  .error (if p.given.isEmpty then .nothingGiven else .noSubcommand)

/-- The words in front of a command, and the command. -/
def readFrom (p : Progress) : List Bytes → Except Refusal CommandLine
  | [] => closeEmpty p
  | word :: words =>
    match Word.of word with
    | .endOfOptions =>
      if words.isEmpty then closeEmpty p else .error .unknownArgument
    | .long name attached =>
      if name = Utf8.encode Opt.config.name then do
        readFrom (← p.begin .config attached) words
      else if name = helpName then do
        let p ← flag p .helpRequested attached
        closeEmpty p
      else if name = versionName then do
        let p ← flag p .versionRequested attached
        closeEmpty p
      else .error .unknownArgument
    | .short letters =>
      match letters.head? with
      | some 0x68 => do closeEmpty (← p.answer .helpRequested)
      | some 0x56 => do closeEmpty (← p.answer .versionRequested)
      | _ => .error .unknownArgument
    | .plain value =>
      match p.pending with
      | .option opt none =>
        readFrom { p with pending := .option opt (some value) } words
      | _ =>
        if value = Utf8.encode "run" then do
          let inner ← readRun {} words
          close p inner (.run inner.request)
        else if value = Utf8.encode "config" then do
          let inner ← readConfig {} words
          close p inner .showConfig
        else if value = Utf8.encode "help" then .error (readHelp words)
        else .error .unknownSubcommand

/-- Reads the words of a command line, without the program's name. -/
def read (words : List Bytes) : Except Refusal CommandLine := readFrom {} words

end Toolrun.CommandLine
