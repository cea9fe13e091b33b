import NetBridge.Decimal.Basic
import NetBridge.Fault
import NetBridge.Table
import NetBridge.Text.Quoted

/-!
# Net descriptions as plain trees

A line `key: value` is an entry, a line `key {` opens a block, a line `}` closes it, and all other
lines say nothing. A key that comes again collects its values. Behind the last line the reader reads
empty lines, so a description with an open block is never finished. A block can be asked whether it has
a key.
-/

namespace NetBridge.Prototxt.Plain

inductive Item where
  | text (s : String)
  | many (items : List Item)
  | block (entries : List (String × Item))
  deriving Inhabited

namespace Item

def get (item : Item) (key : String) : Except Fault Item :=
  match item with
  | .block es => orFault .key (Table.findIn key es)
  | _ => .error .kind

def nth (item : Item) (i : Nat) : Except Fault Item :=
  match item with
  | .many items => orFault .position items[i]?
  | .text s => orFault .position (s.toList[i]?.map fun c => .text (String.ofList [c]))
  | .block _ => .error .key

end Item

abbrev Entries := List (String × Item)

def addValue (es : Entries) (key value : String) : Entries :=
  Table.insertIn key (match Table.findIn key es with
    | none => .text value
    | some (.many items) => .many (items ++ [.text value])
    | some item => .many [item, .text value]) es

/-! ## Lines -/

inductive Line where
  | entry (key value : String)
  | opening (key : String)
  | malformed
  | nothing
  deriving DecidableEq, Repr

def uncommented (cs : List Char) : List Char := cs.takeWhile (· != '#')

def entryLine (cs : List Char) : Line :=
  match Text.splitChars ':' cs with
  | [key, value] =>
    .entry (String.ofList (Text.trimBy Text.isBlank key))
      (String.ofList (Text.trimBy (· == '"') (Text.trimBy Text.isBlank value)))
  | _ => .malformed

def Line.ofChars (cs : List Char) : Line :=
  if cs.contains ':' then entryLine (uncommented cs)
  else if cs.contains '\x7b' then
    .opening (String.ofList (Text.trimBy Text.isBlank (cs.takeWhile (· != '\x7b'))))
  else .nothing

/-! ## The reader -/

structure Frame where
  key : String
  entries : Entries := []
  /-- Has no line of the block been read yet? The comment of a first line is not cut off. -/
  fresh : Bool := true

structure Reader where
  ahead : List (List Char)
  frames : List Frame := []
  props : Entries := []
  layers : List Item := []

variable (r : Reader)

def Reader.result : Item :=
  if r.layers.isEmpty then .block r.props
  else .block [("props", .block r.props), ("layers", .many r.layers)]

def Reader.close (f : Frame) (rest : List Frame) : Reader :=
  match rest with
  | g :: gs =>
    { r with frames := { g with entries := Table.insertIn f.key (.block f.entries) g.entries } :: gs }
  | [] =>
    if f.key = "layer" then { r with frames := [], layers := r.layers ++ [.block f.entries] }
    else { r with frames := [], props := Table.insertIn f.key (.block f.entries) r.props }

def Reader.inBlock (f : Frame) (rest : List Frame) (cs : List Char) :
    Except Fault Reader :=
  let cs := Text.trimBy Text.isBlank cs
  let cs := if f.fresh then cs else uncommented cs
  let f := { f with fresh := false }
  if cs = ['\x7d'] then .ok (r.close f rest)
  else
    match Line.ofChars cs with
    | .entry key value =>
      .ok { r with frames := { f with entries := addValue f.entries key value } :: rest }
    | .opening key => .ok { r with frames := { key } :: f :: rest }
    | .malformed => .error .value
    | .nothing => .ok { r with frames := f :: rest }

def Reader.outside (cs : List Char) : Except Fault Reader :=
  match Line.ofChars (uncommented (Text.trimBy Text.isBlank cs)) with
  | .entry key value => .ok { r with props := addValue r.props key value }
  | .opening key => .ok { r with frames := [{ key }] }
  | .malformed => .error .value
  | .nothing => .ok r

inductive Progress where
  | reading (r : Reader)
  | finished (item : Item)
  | failed (f : Fault)

def Progress.ofExcept : Except Fault Reader → Progress
  | .ok r => .reading r
  | .error f => .failed f

def Reader.step : Progress :=
  match r.frames, r.ahead with
  | [], [] => .finished r.result
  | f :: rest, [] => .ofExcept (r.inBlock f rest [])
  | [], l :: ls => .ofExcept ({ r with ahead := ls }.outside l)
  | f :: rest, l :: ls => .ofExcept ({ r with ahead := ls }.inBlock f rest l)

def Progress.run : Nat → Progress → Progress
  | n + 1, .reading r => r.step.run n
  | _, p => p

def Reader.start (text : String) : Reader :=
  { ahead := Text.splitChars '\n' (Text.unifyLineEnds text.toList) }

def parse (text : String) : Progress :=
  let r := Reader.start text
  (Progress.reading r).run (r.ahead.length + 1)

def Reader.atEntry : Bool :=
  let isEntry (cs : List Char) : Bool := match Line.ofChars cs with
    | .entry _ _ => true
    | _ => false
  match r.frames, r.ahead with
  | [], l :: _ => isEntry (uncommented (Text.trimBy Text.isBlank l))
  | f :: _, l :: _ =>
    let cs := Text.trimBy Text.isBlank l
    let cs := if f.fresh then cs else uncommented cs
    cs != ['\x7d'] && isEntry cs
  | _, [] => false

def Progress.runBare : Nat → Progress → Progress
  | n + 1, .reading r => if r.atEntry then .failed .property else r.step.runBare n
  | _, p => p

def parseBare (text : String) : Progress :=
  let r := Reader.start text
  (Progress.reading r).runBare (r.ahead.length + 1)

def Progress.outcome : Progress → Except Fault Item
  | .finished item => .ok item
  | .failed f => .error f
  | .reading _ => .error { cause := .resource }

/-! ## Printing -/

abbrev Printer := Run (List String)

def say (line : String) : Printer Unit := modify fun ls => ls ++ [line]

def isNumber (s : String) : Bool := (Decimal.readFloat? s).isSome

def bareWords : List String := ["true", "false", "MAX", "SUM", "AVE"]

def valueText (s : String) : String :=
  if isNumber s || bareWords.contains s then s else "\"" ++ s ++ "\""

mutual

def Item.words : Item → String
  | .text s => Text.quoted s
  | .many items => "[" ++ Text.join ", " (showAll items) ++ "]"
  | .block es => "OrderedDict([" ++ Text.join ", " (showEntries es) ++ "])"

def showAll : List Item → List String
  | [] => []
  | i :: is => i.words :: showAll is

def showEntries : List (String × Item) → List String
  | [] => []
  | (k, i) :: es => ("(" ++ Text.quoted k ++ ", " ++ i.words ++ ")") :: showEntries es

end

def Item.display : Item → String
  | .text s => s
  | item => item.words

def printValues (lead : String) : List Item → Printer Unit
  | [] => pure ()
  | .text s :: r => do
    say (lead ++ valueText s)
    printValues lead r
  | _ :: _ => throw .kind

mutual

def printBlock (indent : Nat) (name : String) : Item → Printer Unit
  | .block es => do
    say (Text.blanks indent ++ name ++ " \x7b")
    printEntries indent es
    say (Text.blanks indent ++ "\x7d")
  | _ => do
    say (Text.blanks indent ++ name ++ " \x7b")
    throw .property

def printEntries (indent : Nat) : List (String × Item) → Printer Unit
  | [] => pure ()
  | (key, .block es) :: r => do
    printBlock (indent + 4) key (.block es)
    printEntries indent r
  | (key, .many items) :: r => do
    printValues (Text.blanks indent ++ "    " ++ key ++ ": ") items
    printEntries indent r
  | (key, .text s) :: r => do
    printValues (Text.blanks indent ++ "    " ++ key ++ ": ") [.text s]
    printEntries indent r

end

def Item.parts : Item → List Item
  | .many items => items
  | .block es => es.map fun e => .text e.1
  | .text s => s.toList.map fun c => .text (String.ofList [c])

def print (info : Item) : Printer Unit := do
  let props ← info.get "props"
  let layers ← info.get "layers"
  say ("name: \"" ++ (← props.get "name").display ++ "\"")
  say ("input: \"" ++ (← props.get "input").display ++ "\"")
  for i in [0, 1, 2, 3] do
    say ("input_dim: " ++ (← (← props.get "input_dim").nth i).display)
  say ""
  layers.parts.forM (printBlock 0 "layer")

/-- A description can be written only by `print`: to write it to a file is refused, once it has
turned out to have layers. -/
def save (info : Item) : Except Fault Unit := do
  let _ ← info.get "props"
  let _ ← info.get "layers"
  throw .kind

end NetBridge.Prototxt.Plain
