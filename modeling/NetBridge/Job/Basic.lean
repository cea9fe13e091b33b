import NetBridge.Config.Weights
import NetBridge.Prototxt.Spec
import NetBridge.Source.Cntk
import NetBridge.Source.Frozen
import NetBridge.Source.Keras
import NetBridge.Source.Torch
import NetBridge.Wire.Network

/-!
# Jobs

A job reads and writes files, prints, and calls frameworks. What it has done stays when it stops with
a fault.
-/

namespace NetBridge.Job

open Source

inductive Content where
  | bytes (bs : List UInt8)
  | network (n : Network)
  | weights (w : Weights)
  | arrays (t : Table Value)
  | document (style : Json.Style) (v : Value)
  | net (n : Prototxt.NetSpec)
  | numbers (r : Config.Reel Float)
  | symbol (nodes : List Value) (shapes : Table (List Value))
  | model (m : Keras.Model)
  | functions (objects : Cntk.Objects) (outputs : List Value)
  | graph (nodes : List Layer) (told : Frozen.Told)
  | runnable (m : Torch.Model)

def Content.text (s : String) : Content := .bytes (Text.encodeUtf8 s)

structure Folder where
  files : Table Content := ∅
  directories : List String := []
  checkpoint : Option (Table Tensor) := none

def steps (path : String) : List String :=
  (Text.split '/' path).foldl (fun acc s =>
    if s = "" || s = "." then acc
    else if s = ".." && !acc.isEmpty && acc.getLast? ≠ some ".." then acc.dropLast
    else acc ++ [s]) []

def plainPath (path : String) : String := Text.join "/" (steps path)

def directoriesAbove (path : String) : List String :=
  let above := (steps path).dropLast
  (List.range above.length).map fun k => Text.join "/" (above.take (k + 1))

namespace Folder

variable (f : Folder)

def find? (path : String) : Option Content := f.files.find? (plainPath path)

def hasFile (path : String) : Bool := (f.find? path).isSome

def hasDirectory (path : String) : Bool :=
  (!path.isEmpty && plainPath path = "") || f.directories.contains (plainPath path)

def has (path : String) : Bool := f.hasFile path || f.hasDirectory path

def makeDirectories (path : String) : Folder :=
  let new := (directoriesAbove (path ++ "/x")).filter fun d => !f.directories.contains d
  { f with directories := f.directories ++ new }

def put (path : String) (c : Content) : Folder :=
  let f := f.makeDirectories (Text.join "/" (steps path).dropLast)
  { f with files := f.files.insert (plainPath path) c }

def write (path : String) (c : Content) : Except Fault Folder := do
  let above := Text.join "/" (steps path).dropLast
  require (!path.isEmpty && (above.isEmpty || f.directories.contains above)) { cause := .missingFile }
  return { f with files := f.files.insert (plainPath path) c }

def remove (path : String) : Folder := { f with files := f.files.erase (plainPath path) }

def names : List String := f.files.keys.mergeSort fun a b => a ≤ b

end Folder

structure Desk where
  folder : Folder := {}
  printed : String := ""
  calls : List Call := []

abbrev Task := Run Desk

def print (s : String) : Task Unit := modify fun d => { d with printed := d.printed ++ s }

def printLine (s : String) : Task Unit := print (s ++ "\n")

def printLines (ss : List String) : Task Unit := ss.forM printLine

def call (cs : List Call) : Task Unit := modify fun d => { d with calls := d.calls ++ cs }

def folder : Task Folder := do return (← get).folder

def modifyFolder (f : Folder → Folder) : Task Unit := modify fun d => { d with folder := f d.folder }

def pathOf (v : Value) : Except Fault String := v.toText

def readFile (path : Value) : Task Content := do
  let p ← pathOf path
  orFault { cause := .missingFile } ((← folder).find? p)

def hasPath (path : Value) : Task Bool := do
  let p ← pathOf path
  return (← folder).has p

def writeFile (path : String) (c : Content) : Task Unit := do
  let f ← (← folder).write path c
  modifyFolder fun _ => f

/-! ## Arguments -/

abbrev Arguments := Table Value

def argument (a : Arguments) (name : String) : Except Fault Value := a.get name .property

/-! ## Stored files

Networks, documents and texts have a stored form; weights and the models of frameworks are there only
while a job runs. -/

def Content.stored? : Content → Option (List UInt8)
  | .bytes bs => some bs
  | .network n => some (Wire.Store.network n)
  | .document style v => some (Text.encodeUtf8 (Json.document style v))
  | _ => none

def Folder.changes (before after : Folder) : List (String × List UInt8) :=
  after.files.entries.filterMap fun (path, c) =>
    let old := (before.files.find? path).bind Content.stored?
    match c.stored? with
    | some bs => if old = some bs then none else some (path, bs)
    | none => none

end NetBridge.Job
