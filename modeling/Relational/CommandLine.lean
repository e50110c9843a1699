import Relational.Console

/-!
# The command line

What the arguments of a call ask for (`CommandLine.read`), and how a call that has all of its input
at hand ends (`CommandLine.run`).
-/

namespace Relational.CommandLine

/-- What can be set by an argument. -/
inductive Setting where
  | dataDirectory
  | memory
  | errorMode
  | json
  | logLevel
  | execute
  | help
  | version
deriving DecidableEq

namespace Setting

def all : List Setting :=
  [dataDirectory, memory, errorMode, json, logLevel, execute, help, version]

/-- The name behind two dashes. -/
def long : Setting → String
  | dataDirectory => "data-dir"
  | memory => "memory"
  | errorMode => "error-mode"
  | json => "json"
  | logLevel => "log-level"
  | execute => "execute"
  | help => "help"
  | version => "version"

/-- The letter behind one dash. -/
def short? : Setting → Option Char
  | dataDirectory => some 'd'
  | execute => some 'e'
  | help => some 'h'
  | version => some 'V'
  | _ => none

def takesValue : Setting → Bool
  | dataDirectory => true
  | errorMode => true
  | logLevel => true
  | execute => true
  | _ => false

end Setting

/-- How the program runs. -/
structure Options where
  /-- The path of the data directory; nothing for a storage in memory. -/
  directory : Option String
  mode : ErrorMode
  format : OutputFormat
  /-- The script that is carried out instead of reading lines. -/
  script : Option String
deriving DecidableEq

/-- What a call asks for. -/
inductive Request where
  | run (options : Options)
  | help
  | version
  | usageError
deriving DecidableEq

def versionText : String := "simple_rdb 0.1.0\n"

def helpText : String :=
  Console.lines ["一个支持连接、索引和聚合查询的简单关系数据库",
    "",
    "Usage: simple_rdb [OPTIONS]",
    "",
    "Options:",
    "  -d, --data-dir <DATA_DIR>      数据目录，每个数据库一个子目录 [default: data]",
    "      --memory                   使用内存存储，不读写磁盘",
    "      --error-mode <ERROR_MODE>  错误信息的显示方式 [default: brief] [possible values: brief, detailed]",
    "      --json                     以 JSON 输出结果",
    "      --log-level <LOG_LEVEL>    日志级别 (RUST_LOG 优先) [default: warn]",
    "  -e, --execute <EXECUTE>        执行给定的 SQL 后退出",
    "  -h, --help                     Print help",
    "  -V, --version                  Print version"]

/-! ## Reading arguments -/

/-- The settings that were given so far, with their values. -/
abbrev Given := List (Setting × String)

def Given.value? (given : Given) (setting : Setting) : Option String :=
  (given.find? fun entry => entry.1 == setting).map (·.2)

def Given.has (given : Given) (setting : Setting) : Bool :=
  given.any fun entry => entry.1 == setting

/-- Whether a setting can have a value. -/
def allows (setting : Setting) (value : String) : Bool :=
  match setting with
  | .dataDirectory => value ≠ ""
  | .errorMode => value = "brief" || value = "detailed"
  | _ => true

/-- What the settings ask for. -/
def Given.request (given : Given) : Request :=
  .run {
    directory :=
      if given.has .memory then none else some ((given.value? .dataDirectory).getD "data")
    mode := if given.value? .errorMode = some "detailed" then .detailed else .brief
    format := if given.has .json then .json else .report
    script := given.value? .execute }

/-- Whether an argument looks like a setting; it cannot be the value of one then. -/
def isSettingLike (argument : List Char) : Bool :=
  argument.head? == some '-' && argument.length ≠ 1

/-- The name before the first equals sign, and the value behind it. -/
def splitValue : List Char → List Char × Option (List Char)
  | [] => ([], none)
  | c :: s =>
    if c = '=' then ([], some s)
    else
      let (name, value) := splitValue s
      (c :: name, value)

/-- The setting that an argument names, with the value that is attached to it. A setting of one
letter has its value right behind the letter, or behind an equals sign. -/
def readSetting? : List Char → Option (Setting × Option (List Char))
  | '-' :: '-' :: argument =>
    let (name, value) := splitValue argument
    (Setting.all.find? fun setting => setting.long.toList == name).map fun setting =>
      (setting, value)
  | '-' :: c :: argument =>
    (Setting.all.find? fun setting => setting.short? == some c).map fun setting =>
      (setting,
        if !setting.takesValue then none
        else match argument with
          | [] => none
          | '=' :: value => some value
          | value => some value)
  | _ => none

/-- Reads arguments up to the first that is wrong, or that asks for help or for the version. -/
def readArguments (given : Given) : List (List Char) → Request
  | [] => given.request
  | ['-', '-'] :: arguments => if arguments.isEmpty then given.request else .usageError
  | argument :: arguments =>
    match readSetting? argument with
    | none => .usageError
    | some (.help, none) => .help
    | some (.version, none) => .version
    | some (setting, attached) =>
      if given.has setting then .usageError
      else if setting.takesValue then
        match attached, arguments with
        | some value, arguments =>
          let value := String.ofList value
          if allows setting value then readArguments ((setting, value) :: given) arguments
          else .usageError
        | none, value :: arguments =>
          if isSettingLike value then .usageError
          else
            let value := String.ofList value
            if allows setting value then readArguments ((setting, value) :: given) arguments
            else .usageError
        | none, [] => .usageError
      else if attached.isSome then .usageError
      else readArguments ((setting, "") :: given) arguments

/-- What a call asks for. -/
def read (arguments : List String) : Request :=
  readArguments [] (arguments.map String.toList)

/-! ## Running -/

/-- The storage that options ask for, on a disk. -/
def storage (options : Options) (disk : Disk) : Storage :=
  match options.directory with
  | none => .inMemory
  | some path => .ofDirectory disk (Path.ofText path)

def console (options : Options) (disk : Disk) : Console :=
  .new (storage options disk) options.mode options.format

/-- The exit code of a call. -/
def exitCode : Console.Outcome → Nat
  | .goOn => 0
  | .quit => 0
  | .fail (.error _) => 1
  | .fail (.missingCell _) => 101

/-- The exit code of a call that asks for something impossible. -/
def usageCode : Nat := 2

/-- How a call ends: its exit code, what it wrote, and the disk it leaves. -/
structure Result where
  code : Nat
  output : String
  disk : Disk
deriving DecidableEq

/-- Carries out a call that reads an input. -/
def run (arguments : List String) (input : List Char) (disk : Disk) : Result :=
  match read arguments with
  | .help => ⟨0, helpText, disk⟩
  | .version => ⟨0, versionText, disk⟩
  | .usageError => ⟨usageCode, "", disk⟩
  | .run options =>
    let console := console options disk
    let reply := match options.script with
      | some script => console.runScript script.toList
      | none =>
        let reply := console.readLines (Console.splitLines input)
        { reply with output := Console.greeting ++ reply.output }
    let disk := (reply.console.engine.storage.directory.map (·.disk)).getD disk
    ⟨exitCode reply.outcome, reply.output, disk⟩

end Relational.CommandLine
