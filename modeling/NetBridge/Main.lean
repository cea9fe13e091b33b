import NetBridge.Job.Convert
import NetBridge.Job.Dump
import NetBridge.Job.Fetch

/-!
# The command line

The first word names a command and the others are its arguments. The files that they name are read
before the command starts, and those that it has written are stored when it has ended.
-/

namespace NetBridge

open CommandLine Job

def command? : String → Option (List String → Job.Task Int)
  | "import" => some fun args => do importJob (← parse importCommand args)
  | "code" => some fun args => do codeJob (← parse codeCommand args)
  | "pack" => some fun args => do packJob (← parse packCommand args)
  | "convert" => some fun args => convertJob args "converted"
  | "save" => some (dumpJob [])
  | "fetch" => some fun args => do
    fetchJob args .none
    return 0
  | _ => none

def usage : String := "usage: netbridge (import | code | pack | convert | save | fetch) [arguments]"

def readFolder (words : List String) : IO Folder :=
  words.foldlM (fun f path => do
    let f := f.makeDirectories (Text.directory path)
    try
      let bytes ← IO.FS.readBinFile path
      return f.put path (.bytes bytes.toList)
    catch _ => return f) {}

def storeChanges (before after : Folder) : IO Unit := do
  for (path, bytes) in before.changes after do
    let above := Text.directory path
    unless above.isEmpty do IO.FS.createDirAll above
    IO.FS.writeBinFile path ⟨bytes.toArray⟩

def exitStatus : Except Fault Int → UInt32
  | .ok n => n.toNat.toUInt32
  | .error f =>
    match f.cause with
    | .exit (some n) => n.toNat.toUInt32
    | .exit none => 0
    | _ => 1

end NetBridge

open NetBridge in
def main (args : List String) : IO UInt32 := do
  match args with
  | [] =>
    IO.eprintln usage
    return 2
  | name :: words =>
    match command? name with
    | none =>
      IO.eprintln usage
      return 2
    | some job =>
      let before ← readFolder words
      let (out, desk) := (job words).outcome { folder := before }
      IO.print desk.printed
      storeChanges before desk.folder
      match out with
      | .ok _ => pure ()
      | .error f => IO.eprintln (f.message.getD "The command has failed.")
      return exitStatus out
