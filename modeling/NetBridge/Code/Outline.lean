import NetBridge.Network.Draft
import NetBridge.Network.Document

/-!
# Code outlines

An outline of a draft is a class whose set-up makes one layer a statement. Layers that follow one
another without a branch form a chain; chains are set apart by blank lines.
-/

namespace NetBridge.Outline

inductive Family where
  | tensorflow | keras | caffe
  deriving DecidableEq, Repr

def Family.ofName (s : String) : Except Fault Family :=
  match Text.lower s with
  | "tensorflow" => .ok .tensorflow
  | "keras" => .ok .keras
  | "caffe" => .ok .caffe
  | t => .error (.report .conversion ("Target " ++ t ++ " is not supported yet."))

def Family.name : Family → String
  | .tensorflow => "tensorflow"
  | .keras => "keras"
  | .caffe => "caffe"

def Family.base : Family → String
  | .tensorflow => "TensorFlowNetwork"
  | .keras => "KerasNetwork"
  | .caffe => "CaffeNetwork"

def statement (level : Nat) (s : String) : String := Text.blanks (4 * level) ++ s ++ "\n"

def importLine (f : Family) (level : Nat) : String :=
  statement level ("from dlconv." ++ f.name ++ " import " ++ f.base ++ "\n")

def classLine (f : Family) (level : Nat) (name : String) : String :=
  statement level ("class " ++ name ++ "(" ++ f.base ++ "):")

def setupLine (level : Nat) : String := statement level "def setup(self):"

variable (d : Draft)

def operand (ref : String) : Except Fault String := do
  let last := (Text.split ':' (Text.trim ref)).getLastD ""
  let i ← orFault .value (Decimal.readInt? last)
  let l ← orFault .condition (d.layers.find? (Text.referent ref))
  Value.nth l.outputs i

def argument (name : String) (a : Attr) : Except Fault String :=
  if name = "cell_type" then
    match a with
    | .text bs => do return name ++ "='" ++ (← Attr.decode bs).display ++ "'"
    | _ => .error .kind
  else do return name ++ "=" ++ (← Document.attrText a)

def layerStatement (level : Nat) (l : DraftLayer) : Except Fault String := do
  let operands ← l.layer.inputs.mapM (operand d)
  let output ← Value.nth l.outputs 0
  let args ← l.layer.attrs.entries.mapM fun e => argument e.1 e.2
  let all := operands ++ args ++ ["name='" ++ l.layer.name ++ "'"]
  return statement level (output ++ " = self." ++ l.layer.op ++ "(" ++ Text.join ", " all ++ ")")

def attach (name parent : String) : List (List String) → List (List String)
  | [] => [[name]]
  | c :: cs => if c.getLast? = some parent then (c ++ [name]) :: cs else c :: attach name parent cs

def place (cs : List (List String)) (name : String) : List (List String) :=
  match (d.layers.find? name).map (·.layer.inputs) with
  | some [ref] => attach name (Text.referent ref) cs
  | _ => cs ++ [[name]]

def chains : List (List String) := d.sorted.foldl (place d) []

def chainText (names : List String) : Except Fault String := do
  let lines ← names.mapM fun n => do layerStatement d 2 (← d.get n)
  return Text.dropEnd 1 (String.join lines)

def write (f : Family) : Except Fault String := do
  let blocks ← (chains d).mapM (chainText d)
  return importLine f 0 ++ classLine f 0 d.name ++ setupLine 1 ++ Text.join "\n\n" blocks

/-! ## Pictures -/

def isWebPage (path : String) : Bool :=
  let ending := (Text.split '.' path).getLastD ""
  ending = "html" || ending = "htm"

def draw (toolkit : String) : Except Fault Unit :=
  match Text.lower toolkit with
  | "tensorflow" | "keras" => .error { cause := .missingModule }
  | t => .error (.report .unsupported ("Visualization of " ++ t ++ " is unsupported!"))

def page (png : List UInt8) : String := Text.join "\n" [
  "<!DOCTYPE>",
  "<html>",
  "    <head>",
  "        <meta charset=\"utf-8\">",
  "        <title>Keras</title>",
  "    </head>",
  "    <body>",
  "        <img alt=\"Model Graph\" src=\"data:image/png;base64," ++ Text.base64 png ++ "\" />",
  "    </body>",
  "</html>"]

end NetBridge.Outline
