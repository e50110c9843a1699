import Relational.Engine
import Relational.Report
import Relational.Value.Json

/-!
# Consoles

A console reads lines and answers them. A line may be a command of the console itself; other lines
are collected until one of them ends a script.
-/

namespace Relational

/-- How answers are shown. -/
inductive OutputFormat where
  | report
  | json
deriving DecidableEq

structure Console where
  engine : Engine
  session : SessionId
  format : OutputFormat
  /-- The lines of a script that has not come to its end, the last one first. -/
  collected : List (List Char)

namespace Console

/-- What a console does after a line. -/
inductive Outcome where
  | goOn
  | quit
  | fail (failure : Failure)
deriving DecidableEq

/-- What a console writes after a line, and what becomes of it. -/
structure Reply where
  output : String
  outcome : Outcome
  console : Console

/-- A console over a storage, with a session of its own. -/
def new (storage : Storage) (mode : ErrorMode) (format : OutputFormat) : Console :=
  let (session, engine) := ((Engine.new storage).setMode mode).openSession
  ⟨engine, session, format, []⟩

/-! ## Texts -/

def lines (l : List String) : String :=
  String.join (l.map (· ++ "\n"))

def greeting : String :=
  lines ["SimpleRDB - 一个简单的关系数据库", "输入 'help' 获取帮助信息", "输入 'exit' 退出程序",
    "语句以分号(;)或单独一行的 GO 结束，可以跨多行输入"]

def help : String :=
  lines ["可用命令:",
    "  help      - 显示帮助信息",
    "  exit      - 退出程序",
    "  databases - 列出所有数据库",
    "  list      - 列出当前数据库的表",
    "  save      - 保存数据",
    "  mode      - 切换错误显示模式",
    "  clear     - 清除当前SQL缓冲区",
    "SQL命令:",
    "  -- 这是SQL注释",
    "  CREATE DATABASE name; DROP DATABASE name; USE name;",
    "  CREATE TABLE t (id INT PRIMARY KEY, name VARCHAR(20) NOT NULL, ...);",
    "  DROP TABLE t;",
    "  CREATE [UNIQUE] INDEX idx ON t (column);",
    "  INSERT INTO t [(c1, c2)] VALUES (v1, v2), (v3, v4);",
    "  DELETE FROM t [WHERE condition];",
    "  SELECT c1, t2.c2 | * | COUNT(*) | MIN(c) | MAX(c) FROM t [alias]",
    "      [JOIN t2 [alias] ON t.c = t2.c] [WHERE condition];",
    "  GO  - 结束当前批次"]

/-- What stands before a line that is to be read. -/
def prompt (console : Console) : String :=
  if console.collected.isEmpty then "> " else "-> "

/-- Answers in a format. -/
def shown (format : OutputFormat) (answers : List Answer) : String :=
  match format with
  | .report => String.join (answers.map Report.answer)
  | .json => String.ofList (Json.array (answers.map Answer.toJson)).pretty ++ "\n"

/-- The tables of a database. -/
def tableList : List String → String
  | [] => "没有表\n"
  | names => "表列表:\n" ++ lines (names.map ("  " ++ ·))

def modeName : ErrorMode → String
  | .brief => "Brief"
  | .detailed => "Detailed"

/-! ## Scripts -/

def goOn (console : Console) (output : String) : Reply := ⟨output, .goOn, console⟩

/-- Carries out a script and shows its answers, or the error that it has as a whole. -/
def runScript (console : Console) (script : List Char) : Reply :=
  let (result, engine) := console.engine.execute console.session script
  let console := { console with engine }
  match result with
  | .ok answers => console.goOn (shown console.format answers)
  | .error (.error e) => console.goOn (e.message engine.mode ++ "\n")
  | .error failure => ⟨"", .fail failure, console⟩

/-! ## Lines -/

/-- The commands of the console itself. -/
inductive Command where
  | nothing
  | quit
  | help
  | databases
  | list
  | save
  | mode
deriving DecidableEq

/-- The command that a line without blanks around it is, in any case. -/
def Command.read? (line : List Char) : Option Command :=
  match String.ofList (Text.lower line) with
  | "" => some nothing
  | "exit" => some quit
  | "quit" => some quit
  | "help" => some help
  | "databases" => some databases
  | "list" => some list
  | "save" => some save
  | "mode" => some mode
  | _ => none

/-- Carries out a command. -/
def runCommand (console : Console) : Command → Reply
  | .nothing => console.goOn ""
  | .quit => ⟨"", .quit, console⟩
  | .help => console.goOn help
  | .databases =>
    console.goOn (lines (console.engine.storage.store.databaseNames.map ("  " ++ ·)))
  | .list =>
    match console.engine.tableNames console.session with
    | .ok names => console.goOn (tableList names)
    | .error e => console.goOn (e.message console.engine.mode ++ "\n")
  | .save =>
    match console.engine.save with
    | (.ok (), engine) => { console with engine }.goOn "数据库已保存\n"
    | (.error failure, engine) => ⟨"", .fail failure, { console with engine }⟩
  | .mode =>
    let engine := console.engine.toggleMode
    { console with engine }.goOn ("错误显示模式: " ++ modeName engine.mode ++ "\n")

/-- Whether a line without blanks around it ends a script. -/
def endsScript (line : List Char) : Bool :=
  line.getLast? == some ';' || Text.sameWord line "GO".toList

/-- The script that collected lines make. -/
def script (collected : List (List Char)) : List Char :=
  collected.reverse.flatMap fun line => line ++ ['\n']

/-- Collects a line, and carries out the script if the line ends it. -/
def collect (console : Console) (line : List Char) : Reply :=
  let collected := line :: console.collected
  if endsScript (Text.trim line) then { console with collected := [] }.runScript (script collected)
  else { console with collected }.goOn ""

/-- Answers a line. Commands are known only where no script has begun; `clear` gives up one that
has. -/
def readLine (console : Console) (line : List Char) : Reply :=
  let trimmed := Text.trim line
  if console.collected.isEmpty then
    match Command.read? trimmed with
    | some command => console.runCommand command
    | none => console.collect line
  else if Text.sameWord trimmed "clear".toList then
    { console with collected := [] }.goOn "已清除当前SQL缓冲区\n"
  else console.collect line

/-- Answers lines up to the end or to the one that ends the console; returns all that is written,
prompts included, the last outcome and the console. -/
def readLines (console : Console) : List (List Char) → Reply
  | [] => console.goOn console.prompt
  | line :: more =>
    let reply := console.readLine line
    match reply.outcome with
    | .goOn =>
      let rest := reply.console.readLines more
      { rest with output := console.prompt ++ reply.output ++ rest.output }
    | _ => { reply with output := console.prompt ++ reply.output }

/-- The lines of a text. Each ends with a line break, which a carriage return may stand before; the
last may end with the text. -/
def splitLines (s : List Char) : List (List Char) :=
  go [] s
where
  go (line : List Char) : List Char → List (List Char)
    | [] => if line.isEmpty then [] else [line.reverse]
    | c :: s =>
      if c = '\n' then
        (match line with
          | '\r' :: line => line.reverse
          | line => line.reverse) :: go [] s
      else go (c :: line) s

end Console

end Relational
