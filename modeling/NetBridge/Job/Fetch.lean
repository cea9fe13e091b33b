import NetBridge.Archive.Zip
import NetBridge.Catalog.Models
import NetBridge.CommandLine.Commands
import NetBridge.Job.Basic
import NetBridge.Tensor.Layout

/-!
# Fetching pretrained models

The job of fetching a pretrained model of a framework and, if an image is given, of printing what the
model predicts for it.
-/

namespace NetBridge

/-! ## Downloads

A file is fetched into a directory unless it is there already. There is no net: only addresses of local
files can be fetched. -/

namespace Job

def blockSize : Nat := 8192

def localStart : String := "file:///proc/self/cwd/"

def printProgress (total : Nat) : Nat → Nat → Task Unit
  | _, 0 => pure ()
  | count, blocks + 1 => do
    print (← Catalog.progressText count blockSize total)
    printProgress total (count + 1) blocks

def fetchBytes (address path : String) : Task Unit := do
  Run.require (Text.startsWith address localStart) { cause := .unreachable }
  let source := Text.drop localStart.length address
  let bytes ← match (← folder).find? source with
    | some (.bytes bs) => pure bs
    | _ => throw { cause := .unreachable }
  writeFile path (.bytes [])
  let same := plainPath source = plainPath path
  let received := if same then [] else bytes
  let blocks := (received.length + blockSize - 1) / blockSize
  print (← Catalog.progressText 0 blockSize bytes.length)
  printProgress bytes.length 1 blocks
  writeFile path (.bytes received)
  Run.require (received.length = bytes.length) { cause := .incomplete }

/-- Writes the members of an archive below a directory, up to the first that cannot be read; tells
whether all could. -/
def unpackMembers (archive : List UInt8) (directory : String) : List Archive.Member → Task Bool
  | [] => return true
  | m :: ms => do
    let path := Text.joinPath directory m.target
    if m.isDirectory then
      modifyFolder fun f => f.makeDirectories path
      unpackMembers archive directory ms
    else
      match m.bytes archive with
      | some bs =>
        modifyFolder fun f => f.put path (.bytes bs)
        unpackMembers archive directory ms
      | none =>
        modifyFolder fun f => f.put path (.bytes [])
        return false

def unpack (path directory : String) : Task Unit := do
  let failed : Task Unit := printLine ("Unzip file [" ++ path ++ "] failed.")
  if Text.endsWith path ".tar.gz" || Text.endsWith path ".tgz" then failed
  else if Text.endsWith path ".zip" then
    match (← folder).find? path with
    | some (.bytes bs) =>
      match Archive.members bs with
      | some ms => if !(← unpackMembers bs directory ms) then failed
      | none => failed
    | _ => failed

structure DownloadOrder where
  address : String
  directory : String := "./"
  name : String := ""
  overwrites : Bool := false
  unpacks : Bool := false

def ensureDirectory (path : String) : Task Unit := do
  let f ← folder
  if !f.hasDirectory path then
    let above := Text.join "/" (steps path).dropLast
    Run.require (!path.isEmpty && (above.isEmpty || f.hasDirectory above)) { cause := .missingFile }
    modifyFolder fun f => f.makeDirectories path

def download (o : DownloadOrder) : Task String := do
  ensureDirectory o.directory
  let name := if o.name.isEmpty then Text.afterLast '/' o.address else o.name
  let path := Text.joinPath o.directory name
  if (← folder).has path && !o.overwrites then
    printLine ("File [" ++ path ++ "] existed!")
  else
    printLine ("Downloading file [" ++ path ++ "] from [" ++ o.address ++ "]")
    fetchBytes o.address path
    if o.unpacks then unpack path o.directory
  return path

open Catalog CommandLine Source

/-! ## Models -/

def printNames (names : List String) : Task Unit :=
  printLine ("Support frameworks: " ++ listText (names.map Text.quoted))

def printNameSet (names : List String) : Task Unit :=
  printLine ("Support frameworks: \x7b" ++ Text.join ", " (names.map Text.quoted) ++ "\x7d")

def chosenModel (models : List Pretrained) (help : Task Unit) (name : Value) :
    Task (Option Pretrained) := do
  if name.isNone then
    help
    return none
  match pretrained? models name.display with
  | some m => return some m
  | none =>
    help
    throw (.report .value ("Unknown pretrained model name [" ++ name.display ++ "]."))

def modelFile (directory name : String) : Task String := download { address := name, directory }

def fetchPair (framework : String) (models : List Pretrained) (name : Value) (directory : String) :
    Task Bool := do
  match ← chosenModel models (printNames (models.map (·.name))) name with
  | none => return false
  | some m =>
    let files ← m.files.mapM (modelFile directory)
    printLine (framework ++ " Model " ++ m.name ++ " saved as " ++
      Text.join " and " (files.map fun f => "[" ++ f ++ "]") ++ ".")
    return true

def fetchObjects (name : Value) (directory : String) : Task Bool := do
  match pretrained? sharedKerasModels name.display with
  | some m =>
    discard (m.files.mapM (modelFile directory))
    return true
  | none =>
    let names := (kerasModels ++ sharedKerasModels).map (·.name)
    match ← chosenModel kerasModels (printNameSet names) name with
    | none => return false
    | some m =>
      let path := directory ++ m.files.headD ""
      Run.require ((← folder).has path) .property
      printLine ("File [" ++ path ++ "] existed, skip download.")
      return true

def narrowed (os : Cntk.Objects) (outputs : List Value) : Except Fault (Option Value) := do
  if outputs.length ≤ 1 then return none
  let output ← Cntk.chosenOutput os outputs
  return some (← output.get "owner")

def fetchFunctions (name : Value) (directory : String) : Task Bool := do
  match ← chosenModel functionModels (printNames (functionModels.map (·.name))) name with
  | none => return false
  | some m =>
    let path ← modelFile directory (m.files.headD "")
    match ← readFile (.text path) with
    | .functions os outputs =>
      match ← narrowed os outputs with
      | some owner =>
        call [{ name := "as_composite", args := [.text owner.display] },
          { name := "as_composite().save", args := [.text path] }]
        printLine ("Cntk Model " ++ m.name ++ " saved as [" ++ path ++ "].")
      | none => pure ()
    | _ => throw .property
    return true

/-! ## Predictions -/

def elementText (e : Elem) (s : Scalar) : String :=
  let number := match e, s with
    | .float32, .real x => Decimal.singleText x.toFloat32
    | _, s => s.text
  if e = .bool then (if s.toFloat == 0 then "np.False_" else "np.True_")
  else "np." ++ e.name ++ "(" ++ number ++ ")"

def ordered (a b : Scalar) : Bool :=
  match a, b with
  | .int m, .int n => m ≤ n
  | a, b => !(b.toFloat < a.toFloat)

def topClasses (count : Nat) (scores : List Scalar) : List (Nat × Scalar) :=
  let sorted := (scores.zipIdx.map fun (s, i) => (i, s)).mergeSort fun a b => ordered a.2 b.2
  sorted.reverse.take count

def backgroundClasses : Nat := 1001

def printClasses (t : Tensor) (labelFile : Value) : Task Unit := do
  let offset : Int := if t.size = backgroundClasses then 1 else 0
  let best := topClasses 5 t.toList
  let scored (i : Nat) (s : Scalar) : List String :=
    ["np.int64(" ++ toString i ++ ")", elementText t.elem s]
  let path ← pathOf labelFile
  match (← folder).find? path with
  | some (.bytes bs) =>
    let labels := labelsOf ((Text.decodeUtf8 bs).getD "")
    let lines ← best.mapM fun (i, s) => do
      let label ← Value.nth labels ((i : Int) - offset)
      return tupleText (Text.quoted label :: scored i s)
    printLines lines
  | _ => printLines (best.map fun (i, s) => tupleText (scored i s))

def printPrediction (prediction labelFile : Value) : Task Unit := do
  match prediction with
  | .array t =>
    if t.rank = 1 then printClasses t labelFile
    else
      printLine (intTuple (t.shape.map Int.ofNat))
      printLine t.display
  | v => printLine v.display

def fetchModel (a : Arguments) (predict : Value) : Task Unit := do
  let framework ← argument a "framework"
  let fetch : Value → String → Task Bool ← match framework.display with
    | "caffe" => pure (fetchPair "Caffe" caffeModels)
    | "mxnet" => pure (fetchPair "MXNet" symbolModels)
    | "keras" => pure fetchObjects
    | "cntk" => pure fetchFunctions
    | "tensorflow" | "tf" | "pytorch" | "darknet" => throw { cause := .missingModule }
    | name => throw (.report .value ("Unknown framework [" ++ name ++ "]."))
  let network ← argument a "network"
  let found ← fetch network (← pathOf (← argument a "path"))
  if found then
    let image ← argument a "image"
    if image.isSet then printPrediction predict (← argument a "label")

def fetchJob (args : List String) (predict : Value) : Task Unit := do
  let a ← parse fetchCommand args
  fetchModel a predict

end Job

end NetBridge
