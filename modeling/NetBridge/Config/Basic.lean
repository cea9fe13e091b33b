import NetBridge.Table
import NetBridge.Value.Basic

/-!
# Configuration files

A block of a configuration file starts with its type in brackets and goes on with lines `key=value`; a
number sign starts a comment. A written block reads back as the same block, with every setting given
as text.
-/

namespace NetBridge.Config

inductive Setting where
  | given (s : String)
  | preset (n : Int)
  deriving DecidableEq, Repr, Inhabited

def Setting.text : Setting → String
  | .given s => s
  | .preset n => toString n

structure Block where
  type : String
  settings : Table Setting := ∅
  deriving Inhabited

namespace Block

def start (type : String) : Block :=
  { type, settings := if type = "convolutional" then ⟨[("batch_normalize", .preset 0)]⟩ else ∅ }

def settingKey (key : String) : String := if key = "type" then "_type" else key

def set (b : Block) (key value : String) : Block :=
  { b with settings := b.settings.insert (settingKey key) (.given value) }

def get (b : Block) (key : String) : Except Fault Setting := b.settings.get key .key

def lines (b : Block) : List String :=
  ("[" ++ b.type ++ "]") :: b.settings.entries.map (fun e => e.1 ++ "=" ++ e.2.text) ++ [""]

end Block

/-! ## Lines -/

inductive Line where
  | blank
  | header (type : String)
  | setting (key value : String)
  | malformed
  deriving DecidableEq, Repr

def headerType (cs : List Char) : String :=
  String.ofList ((cs.dropWhile (· == '[')).reverse.dropWhile (· == ']')).reverse

def settingLine (cs : List Char) : Line :=
  match Text.splitChars '=' (cs.takeWhile (· != '#')) with
  | [key, value] =>
    .setting (String.ofList (Text.trimBy Text.isBlank key))
      (String.ofList (Text.trimBy Text.isBlank value))
  | _ => .malformed

/-- Reads a line. Blanks at its end do not count, those at its start do. -/
def Line.ofText (s : String) : Line :=
  match (s.toList.reverse.dropWhile Text.isBlank).reverse with
  | [] => .blank
  | '#' :: _ => .blank
  | '[' :: r => .header (headerType r)
  | cs => settingLine cs

/-! ## Files -/

def blocksFrom : Option Block → List Line → Except Fault (List Block)
  | b, [] => .ok b.toList
  | b, .blank :: r => blocksFrom b r
  | b, .header type :: r => do return b.toList ++ (← blocksFrom (some (.start type)) r)
  | some b, .setting key value :: r => blocksFrom (some (b.set key value)) r
  | none, .setting _ _ :: _ => .error .kind
  | _, .malformed :: _ => .error .value

def fileLines (text : String) : List String :=
  (Text.splitChars '\n' (Text.unifyLineEnds text.toList)).map String.ofList

def parse (text : String) : Except Fault (List Block) :=
  blocksFrom none ((fileLines text).map Line.ofText)

def lines (bs : List Block) : List String := bs.flatMap Block.lines

def render (bs : List Block) : String := String.join ((lines bs).map (· ++ "\n"))

/-! ## Listings

One row a block, with the sizes of what goes in and what comes out. Sizes that are computed by division
are fractions, and the table shows their whole part. -/

def Setting.whole : Setting → Except Fault Int
  | .given s => orFault .value (Decimal.readInt? s)
  | .preset n => .ok n

def Block.whole (b : Block) (key : String) : Except Fault Int := do (← b.get key).whole

def Block.wholes (b : Block) (key : String) : Except Fault (List Int) := do
  (Text.split ',' (← b.get key).text).mapM fun s => orFault .value (Decimal.readInt? s)

namespace Listing

structure Volume where
  width : Scalar
  height : Scalar
  filters : Int

structure State where
  rows : List String := ["layer     filters    size              input                output"]
  number : Int := -1
  last : Volume := ⟨416, 416, 3⟩
  filters : Option Int := none
  outputs : List Volume := []

abbrev Listing := Run State

def column (width : Nat) (n : Int) : String := Text.padLeft width (toString n)

def label (s : State) (kind : String) : String := column 5 s.number ++ " " ++ Text.padRight 6 kind

def Volume.text (v : Volume) : String :=
  column 3 v.width.whole ++ " x " ++ column 3 v.height.whole ++ " x" ++ column 4 v.filters

def passage (a b : Volume) : String := a.text ++ "   ->   " ++ b.text

def window (size stride : Int) : String :=
  toString size ++ " x " ++ toString size ++ " / " ++ toString stride

def write (row : String) : Listing Unit := modify fun s => { s with rows := s.rows ++ [row] }

def produce (v : Volume) : Listing Unit :=
  modify fun s => { s with last := v, outputs := s.outputs ++ [v] }

def setFilters (n : Int) : Listing Unit := modify fun s => { s with filters := some n }

def referent (s : State) (n : Int) : Int := if n > 0 then n else n + s.number

def slide (side pad size stride : Scalar) : Except Fault Scalar := do
  return (← (side + 2 * pad - size).quotient stride) + 1

variable (b : Block)

def convolutional : Listing Unit := do
  let filters ← b.whole "filters"
  setFilters filters
  let size ← b.whole "size"
  let stride ← b.whole "stride"
  let padded ← b.whole "pad"
  let pad ← if padded != 0 then Scalar.quotient (.int (size - 1)) 2 else pure 0
  let s ← get
  let v : Volume := ⟨← slide s.last.width pad (.int size) (.int stride),
    ← slide s.last.height pad (.int size) (.int stride), filters⟩
  write (label s "conv" ++ " " ++ column 4 filters ++ "  " ++ window size stride ++ "   " ++
    passage s.last v)
  produce v

def maxpool : Listing Unit := do
  let size ← b.whole "size"
  let stride ← b.whole "stride"
  let s ← get
  let width ← s.last.width.quotient (.int stride)
  let height ← s.last.height.quotient (.int stride)
  let v : Volume := ⟨width, height, ← orFault { cause := .unassigned } s.filters⟩
  write (label s "max" ++ "       " ++ window size stride ++ "   " ++ passage s.last v)
  produce v

def avgpool : Listing Unit := do
  let s ← get
  write (label s "avg" ++ "                   " ++ s.last.text ++ "   ->      " ++
    column 3 s.last.filters)
  produce { s.last with width := 1, height := 1 }

def filtersOnly (kind : String) (gap : Nat) : Listing Unit := do
  let s ← get
  write (label s kind ++ Text.blanks gap ++ "->      " ++ column 3 s.last.filters)
  produce s.last

def reorg : Listing Unit := do
  let stride ← b.whole "stride"
  let s ← get
  let filters := stride * stride * s.last.filters
  setFilters filters
  let v : Volume := ⟨← s.last.width.quotient (.int stride), ← s.last.height.quotient (.int stride), filters⟩
  write (label s "reorg" ++ "             / " ++ toString stride ++ "   " ++ passage s.last v)
  produce v

def route (b : Block) : Listing Unit := do
  let s ← get
  match (← b.wholes "layers").map (referent s) with
  | [i] =>
    write (label s "route" ++ " " ++ toString i)
    produce (← Value.nth s.outputs i)
  | [i, j] =>
    write (label s "route" ++ " " ++ toString i ++ " " ++ toString j)
    let v ← Value.nth s.outputs i
    let w ← Value.nth s.outputs j
    Run.require (v.width.same w.width)
    Run.require (v.height.same w.height)
    produce { v with filters := v.filters + w.filters }
  | _ => produce s.last

def detection : Listing Unit := do
  let s ← get
  write (label s "detection")
  produce s.last

def shortcut : Listing Unit := do
  let n ← b.whole "from"
  let s ← get
  write (label s "shortcut" ++ " " ++ toString (referent s n))
  produce (← Value.nth s.outputs (referent s n))

def connected : Listing Unit := do
  let filters ← b.whole "output"
  setFilters filters
  let s ← get
  write (label s "connected" ++ "                            " ++ toString s.last.filters ++
    "  ->      " ++ column 3 filters)
  modify fun s => { s with
    last := { s.last with filters := filters }
    outputs := s.outputs ++ [⟨1, 1, filters⟩] }

def row : Listing Unit := do
  match b.type with
  | "net" =>
    let width ← b.whole "width"
    modify fun s => { s with last := { s.last with width := .int width } }
    let height ← b.whole "height"
    modify fun s => { s with last := { s.last with height := .int height } }
  | "convolutional" => convolutional b
  | "maxpool" => maxpool b
  | "avgpool" => avgpool
  | "softmax" => filtersOnly "softmax" 36
  | "cost" => filtersOnly "cost" 37
  | "reorg" => reorg b
  | "route" => route b
  | "region" => detection
  | "shortcut" => shortcut b
  | "connected" => connected b
  | t => write ("unknown type " ++ t)
  modify fun s => { s with number := s.number + 1 }

end Listing

def listing (bs : List Block) : Except Fault Unit × List String :=
  let (out, s) := (bs.forM Listing.row).outcome {}
  (out, s.rows)

end NetBridge.Config
