import NetBridge.Table
import NetBridge.Value.Basic

/-!
# The commands and their options

An option is named by one of its flags, in full or by the start of a long one that no other flag has.
The words behind it are its values; a value may also be joined to the flag. Words that belong to no
option are left over. A command line that is refused ends with status two.
-/

namespace NetBridge.CommandLine

inductive Action where
  | single
  | collect
  | several (least : Nat)
  | switch
  | help
  deriving DecidableEq, Repr

inductive Reading where
  | text
  | number
  deriving DecidableEq, Repr

structure Opt where
  flags : List String
  action : Action := .single
  reading : Reading := .text
  choices : List String := []
  required : Bool := false
  default : Value := .none

namespace Opt

def name (o : Opt) : String :=
  let long := o.flags.find? fun f => Text.startsWith f "--"
  let flag := long.getD (o.flags.headD "")
  String.ofList (flag.toList.dropWhile (· == '-'))

end Opt

structure Command where
  options : List Opt

def helpOption : Opt := { flags := ["-h", "--help"], action := .help }

def refused : Fault := { cause := .exit (some 2) }

namespace Command

def flags (c : Command) : List (String × Opt) :=
  (helpOption :: c.options).flatMap fun o => o.flags.map fun f => (f, o)

def option? (c : Command) (flag : String) : Option Opt := (c.flags.find? fun f => f.1 == flag).map (·.2)

end Command

inductive Word where
  | plain
  | mark
  | flag (option : Opt) (flag : String) (value : Option String)
  | unknown

def Word.isPlain : Word → Bool
  | .plain => true
  | _ => false

def isNegativeNumber (w : String) : Bool :=
  match w.toList with
  | '-' :: r =>
    let whole := r.takeWhile Char.isDigit
    match r.drop whole.length with
    | [] => !whole.isEmpty
    | '.' :: r => !r.isEmpty && r.all Char.isDigit
    | _ => false
  | _ => false

def joined? (w : String) : Option (String × String) :=
  match Text.splitFirst '=' w with
  | (a, some b) => some (a, b)
  | _ => none

/-- The flags that a word may stand for although it is none of them: flags with two dashes that start
with it, flags of one letter that it starts with, and other flags with one dash that start with it. -/
def readings (c : Command) (w : String) : List Word :=
  if Text.startsWith w "--" then
    let (start, value) := Text.splitFirst '=' w
    (c.flags.filter fun f => Text.startsWith f.1 start).map fun (f, o) => .flag o f value
  else
    c.flags.filterMap fun (f, o) =>
      if f = Text.take 2 w then some (.flag o f (some (Text.drop 2 w)))
      else if Text.startsWith f w then some (.flag o f none)
      else none

def classify (c : Command) (w : String) : Except Fault Word :=
  if !Text.startsWith w "-" then .ok .plain
  else
    match c.option? w with
    | some o => .ok (.flag o w none)
    | none =>
      if w.length = 1 then .ok .plain
      else
        match (joined? w).bind fun (f, v) => (c.option? f).map fun o => Word.flag o f (some v) with
        | some word => .ok word
        | none =>
          match readings c w with
          | [word] => .ok word
          | [] =>
            if isNegativeNumber w || w.toList.contains ' ' then .ok .plain else .ok .unknown
          | _ => .error refused

def classifyAll (c : Command) : List String → Except Fault (List (String × Word))
  | [] => .ok []
  | w :: ws =>
    if w = "--" then .ok ((w, .mark) :: ws.map fun w => (w, .plain))
    else do
      let word ← classify c w
      return (w, word) :: (← classifyAll c ws)

structure Parsed where
  values : Table Value
  used : List String := []
  rest : List String := []

def Opt.read (o : Opt) (w : String) : Except Fault Value := do
  match o.reading with
  | .number => return .float (← orFault refused (Decimal.readFloat? w))
  | .text =>
    require (o.choices.isEmpty || o.choices.contains w) refused
    return .text w

def Parsed.use (p : Parsed) (o : Opt) (words : List String) : Except Fault Parsed := do
  let vs ← words.mapM o.read
  let value ← match o.action with
    | .single => orFault refused vs.head?
    | .collect => pure (.list ((p.values.findD o.name .none).elems ++ vs))
    | .several _ => pure (.list vs)
    | .switch => pure (.bool true)
    | .help => throw { cause := .exit (some 0) }
  return { p with values := p.values.insert o.name value, used := p.used ++ [o.name] }

def Action.takes (plain : Nat) : Action → Except Fault Nat
  | .single | .collect => if plain = 0 then .error refused else .ok 1
  | .several least => if plain < least then .error refused else .ok plain
  | .switch | .help => .ok 0

def Action.takesWords : Action → Bool
  | .switch | .help => false
  | _ => true

/-- Uses an option with a value joined to its flag. An option of one letter that takes no value may be
followed by the letters of further options. -/
def Parsed.useJoined (c : Command) (p : Parsed) (o : Opt) (flag : String) :
    List Char → Except Fault Parsed
  | [] => if o.action.takesWords then p.use o [""] else .error refused
  | letter :: more => do
    if o.action.takesWords then
      p.use o [String.ofList (letter :: more)]
    else
      require (!Text.startsWith flag "--") refused
      let next := String.ofList ['-', letter]
      let o' ← orFault refused (c.option? next)
      let p ← p.use o []
      if more.isEmpty then p.use o' [] else p.useJoined c o' next more

def consume (c : Command) (p : Parsed) : List (String × Word) → Except Fault Parsed
  | [] => .ok p
  | (w, word) :: r =>
    match word with
    | .plain | .mark | .unknown => consume c { p with rest := p.rest ++ [w] } r
    | .flag o flag (some value) => do consume c (← p.useJoined c o flag value.toList) r
    | .flag o _ none => do
      let plain := r.takeWhile fun f => f.2.isPlain
      let n ← o.action.takes plain.length
      consume c (← p.use o ((plain.take n).map (·.1))) (r.drop n)
termination_by ws => ws.length

def parseKnown (c : Command) (args : List String) : Except Fault Parsed := do
  let start : Parsed := { values := Table.ofList (c.options.map fun o => (o.name, o.default)) }
  let p ← consume c start (← classifyAll c args)
  require (c.options.all fun o => !o.required || p.used.contains o.name) refused
  return p

def parse (c : Command) (args : List String) : Except Fault (Table Value) := do
  let p ← parseKnown c args
  require p.rest.isEmpty refused
  return p.values

/-! ## The options of each command -/

def word (flags : List String) (default : Value := .none) : Opt := { flags, default }

def required (flags : List String) (choices : List String := []) : Opt :=
  { flags, choices, required := true }

def number (flags : List String) (default : Float) : Opt :=
  { flags, reading := .number, default := .float default }

def phaseOption : Opt := { flags := ["--phase"], choices := ["train", "test"], default := .text "test" }

def importCommand : Command where
  options := [
    { flags := ["--srcFramework", "-f"]
      choices := ["caffe", "caffe2", "cntk", "mxnet", "keras", "tensorflow", "tf", "torch", "torch7",
        "onnx", "darknet"] },
    word ["--weights", "-w", "-iw"],
    word ["--network", "-n", "-in"],
    required ["--dstPath", "-d", "-o"],
    word ["--inNodeName", "-inode"] (.text "input"),
    word ["--dstNodeName", "-node"],
    word ["--frozen_pb"],
    { flags := ["--inputShape"], action := .several 1 },
    word ["--caffePhase"] (.text "TRAIN")]

def codeFrameworks : List String :=
  ["caffe", "caffe2", "cntk", "mxnet", "keras", "tensorflow", "coreml", "pytorch"]

def codeCommand : Command where
  options := [
    phaseOption,
    required ["--dstFramework", "-f"] codeFrameworks,
    required ["--IRModelPath", "-n", "-in"],
    word ["--IRWeightPath", "-w", "-iw"],
    required ["--dstModelPath", "-d"],
    word ["--dstWeightPath", "-dw", "-ow"]]

def packCommand : Command where
  options := [
    required ["-f", "--framework"] ["coreml"],
    required ["-in", "--inputNetwork"],
    required ["-iw", "--inputWeight"],
    required ["-o", "--output"],
    phaseOption,
    { flags := ["--inputNames"], action := .several 0 },
    { flags := ["--outputNames"], action := .several 0 },
    { flags := ["--imageInputNames"], action := .collect, default := .list [] },
    { flags := ["--isBGR"], action := .switch, default := .bool false },
    number ["--redBias"] 0.0,
    number ["--blueBias"] 0.0,
    number ["--greenBias"] 0.0,
    number ["--grayBias"] 0.0,
    number ["--scale"] 1.0,
    word ["--classInputPath"] (.text ""),
    word ["--predictedFeatureName"] (.text "class_output")]

def convertCommand : Command where
  options := [
    { flags := ["--srcFramework", "-sf"]
      choices := ["caffe", "caffe2", "cntk", "mxnet", "keras", "tensorflow", "tf", "pytorch"] },
    word ["--inputWeight", "-iw"],
    word ["--inputNetwork", "-in"],
    required ["--dstFramework", "-df"] codeFrameworks,
    required ["--outputModel", "-om"]]

def dumpCommand : Command where
  options := [
    required ["-f", "--framework"] ["caffe", "cntk", "mxnet", "keras", "tensorflow", "torch"],
    required ["-in", "--inputNetwork"],
    required ["-iw", "--inputWeight"],
    required ["-o", "-om", "--outputModel"]]

def defaultLabels : String := "data/imagenet_1000.txt"

def fetchCommand : Command where
  options := [
    required ["--framework", "-f"]
      ["caffe", "cntk", "mxnet", "keras", "tensorflow", "tf", "pytorch", "darknet"],
    word ["--network", "-n"],
    word ["-i", "--image"],
    word ["--path", "-p", "-o"] (.text "./"),
    word ["-l", "--label"] (.text defaultLabels)]

/-! ## Commands in a row -/

def givenWords (flag : String) (v : Value) : List String :=
  if v.isNone then [] else [flag, v.display]

def importWords (values : Table Value) (rest : List String) (temporary : String) : List String :=
  let value (name : String) : Value := values.findD name .none
  rest ++ ["--srcFramework", (value "srcFramework").display] ++
    givenWords "--weights" (value "inputWeight") ++ givenWords "--network" (value "inputNetwork") ++
    ["--dstPath", temporary]

def codeWords (values : Table Value) (rest : List String) (temporary code : String) : List String :=
  rest ++ ["--dstFramework", (values.findD "dstFramework" .none).display,
    "--IRModelPath", temporary ++ ".pb", "--IRWeightPath", temporary ++ ".npy",
    "--dstModelPath", code ++ ".py", "--dstWeightPath", temporary ++ ".npy"]

def packWords (values : Table Value) (rest : List String) (temporary : String) : List String :=
  rest ++ ["--framework", (values.findD "dstFramework" .none).display,
    "--inputNetwork", temporary ++ ".pb", "--inputWeight", temporary ++ ".npy",
    "--output", (values.findD "outputModel" .none).display]

end NetBridge.CommandLine
