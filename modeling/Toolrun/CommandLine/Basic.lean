/-
What a command line asks for: to run the tool once, with settings that take
the place of the configured ones, or to show the configuration.
-/
import Toolrun.Report

namespace Toolrun

/-- What `run` asks for. An option that is not given leaves the setting as
configured. -/
structure RunRequest where
  tool : Option String := none
  language : Option String := none
  filesFrom : Option String := none
  timeoutMs : Option UInt64 := none
  captureBytes : Option UInt64 := none
  workingDir : Option String := none
  env : List String := []
  format : Format := .text
  files : List Bytes := []
  deriving DecidableEq, Repr

/-- The two commands. -/
inductive CommandLine.Command where
  | run (request : RunRequest)
  | showConfig
  deriving DecidableEq, Repr

/-- A whole command line: the configuration file named on it, if any, and
the command. -/
structure CommandLine where
  configPath : Option Bytes
  command : CommandLine.Command
  deriving DecidableEq, Repr

namespace CommandLine

/-- Why a command line leads to no command. Asking for help or for the
version is one of the reasons. -/
inductive Refusal where
  | helpRequested
  | versionRequested
  | nothingGiven
  | noSubcommand
  | unknownSubcommand
  | unknownArgument
  | badValue
  | unreadableNumber
  | repeatedOption
  | unexpectedValue
  | notUtf8
  deriving DecidableEq, Repr

namespace Refusal

/-- Help and version are answers; everything else is a usage error. -/
def exitCode : Refusal → Int
  | helpRequested => 0
  | versionRequested => 0
  | _ => 2

end Refusal

/-- What asking for the version prints. -/
def versionLine : String := "toolrun 0.1.0\n"

-- ============================================================ options

/-- The options that take a value. -/
inductive Opt where
  | config
  | tool
  | language
  | filesFrom
  | timeoutMs
  | captureBytes
  | cwd
  | env
  | format
  deriving DecidableEq, Repr

namespace Opt

/-- All options. -/
def all : List Opt :=
  [config, tool, language, filesFrom, timeoutMs, captureBytes, cwd, env,
    format]

/-- The name of an option behind its two dashes. -/
def name : Opt → String
  | config => "config"
  | tool => "tool"
  | language => "language"
  | filesFrom => "files-from"
  | timeoutMs => "timeout-ms"
  | captureBytes => "capture-bytes"
  | cwd => "cwd"
  | env => "env"
  | format => "format"

/-- The option with a given name. -/
def named? (name : Bytes) : Option Opt :=
  all.find? fun o => Utf8.encode o.name = name

end Opt

-- ============================================================== words

/-- A word of a command line by its shape: the end of options, an option with
or without a value attached, letters behind one dash, or anything else. A
lone dash is anything else. -/
inductive Word where
  | endOfOptions
  | long (name : Bytes) (attached : Option Bytes)
  | short (letters : Bytes)
  | plain (word : Bytes)
  deriving DecidableEq, Repr

/-- The shape of a word. -/
def Word.of : Bytes → Word
  | 0x2D :: 0x2D :: [] => .endOfOptions
  | 0x2D :: 0x2D :: rest =>
    match splitAtFirst 0x3D rest with
    | none => .long rest none
    | some (name, value) => .long name (some value)
  | 0x2D :: b :: rest => .short (b :: rest)
  | word => .plain word

end CommandLine

end Toolrun
