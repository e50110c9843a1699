import Relational.CommandLine

/-!
# The program

Reads the data directory and the lines of the input, and writes what consoles and calls answer.
-/

namespace Relational.Program

/-- Where segments below a directory lead to. -/
def locate (root : String) (segments : List String) := do
  return (← IO.currentDir).join (String.intercalate "/" (root :: segments))

/-- Reads what stands below a directory. -/
partial def readTree (root : String) (place : Place) (disk : Disk) : IO Disk := do
  let mut disk := disk
  for entry in ← (← locate root place).readDir do
    let below := place ++ [entry.fileName]
    if ← entry.path.isDir then
      disk := ⟨disk.entries.insert below .directory⟩
      disk ← readTree root below disk
    else
      let content ← IO.FS.readBinFile entry.path
      disk := ⟨disk.entries.insert below (.file (.ofBytes content.data.toList))⟩
  return disk

/-- Makes a change below a directory. -/
def makeChange (root : String) (change : DiskChange) : IO Unit := do
  match change with
  | .makeDirectory path => IO.FS.createDirAll (← locate root path.segments)
  | .readDirectory path => let _ ← (← locate root path.segments).readDir
  | .write path content =>
    IO.FS.writeBinFile (← locate root path.segments) ⟨(content.bytes ()).toArray⟩
  | .removeFile path => IO.FS.removeFile (← locate root path.segments)
  | .removeTree path => IO.FS.removeDirAll (← locate root path.segments)

/-- Makes the changes between two disks below a directory. -/
def makeChanges (root : String) (old new : Disk) : IO Unit :=
  (old.difference new).forM (makeChange root)

def diskOf (storage : Storage) : Disk :=
  (storage.directory.map (·.disk)).getD .empty

/-- Reads lines and answers each at once. -/
partial def serve (root : String) (input output : IO.FS.Stream) (console : Console) :
    IO UInt32 := do
  output.putStr console.prompt
  output.flush
  let line ← input.getLine
  if line.isEmpty then return 0
  let reply := console.readLine ((Console.splitLines line.toList).headD [])
  makeChanges root (diskOf console.engine.storage) (diskOf reply.console.engine.storage)
  output.putStr reply.output
  if reply.outcome = .goOn then serve root input output reply.console
  else return UInt32.ofNat (CommandLine.exitCode reply.outcome)

/-- Carries out a call. -/
def call (options : CommandLine.Options) (input output : IO.FS.Stream) : IO UInt32 := do
  let root := options.directory.getD "."
  if options.directory.isSome then IO.FS.createDirAll (← locate root [])
  let disk ← if options.directory.isSome then readTree root [] .empty else pure .empty
  let options := { options with directory := options.directory.map fun _ => "" }
  let console := CommandLine.console options disk
  match options.script with
  | some script =>
    let reply := console.runScript script.toList
    makeChanges root disk (diskOf reply.console.engine.storage)
    output.putStr reply.output
    return UInt32.ofNat (CommandLine.exitCode reply.outcome)
  | none =>
    output.putStr Console.greeting
    serve root input output console

end Relational.Program

open Relational in
def main (arguments : List String) : IO UInt32 := do
  let input ← IO.getStdin
  let output ← IO.getStdout
  match CommandLine.read arguments with
  | .help => output.putStr CommandLine.helpText; return 0
  | .version => output.putStr CommandLine.versionText; return 0
  | .usageError => return UInt32.ofNat CommandLine.usageCode
  | .run options => Program.call options input output
