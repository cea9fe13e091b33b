import NetBridge.Record.Network
import NetBridge.Source.Cntk
import NetBridge.Source.Keras

/-!
# Models of objects as records

A layer object is given by its class, its name, the layers it reads, its arrays, and its properties. A
reference to another object is a record with its name.
-/

namespace NetBridge.Record

open Source

def axisProperties : List String :=
  ["output_shape", "input_shape", "kernel_size", "strides", "dilation_rate", "pool_size",
   "target_shape"]

def layerFields : List String := ["class", "name", "inbound", "weights", "config", "hidden"]

def propertyOf (name : String) (v : Value) : Except Fault Value :=
  match v with
  | .list vs => .ok (if axisProperties.contains name then .tuple vs else .list vs)
  | .record _ => if (v.field? "data").isSome then (tensorOf v).map .array else .ok v
  | v => .ok v

def layerObject (v : Value) : Except Fault Keras.Node := do
  let own := v.fields.filter fun f => !layerFields.contains f.1
  return {
    kind := textOf v "class", name := textOf v "name"
    inbound := (v.fieldD "inbound").elems.map textsOf
    hidden := (v.fieldD "hidden").isSet
    arrays := ← (v.fieldD "weights").elems.mapM fun t => do return Value.array (← tensorOf t)
    settings := match v.fieldD "config" with
      | .none => .record []
      | c => c
    properties := Table.ofList (← own.mapM fun (k, x) => do return (k, ← propertyOf k x)) }

def modelOf (v : Value) : Except Fault Keras.Model := do
  return {
    kind := match v.fieldD "kind" with
      | .text k => k
      | _ => "Model"
    channelsLast := match v.fieldD "data_format" with
      | .text f => f = "channels_last"
      | _ => true
    nodes := ← (v.fieldD "layers").elems.mapM layerObject }

open Source

mutual

def objectValue (v : Value) : Except Fault Value :=
  match v with
  | .list vs => (objectValues vs).map .list
  | .record fs =>
    match v.field? "ref", v.field? "data" with
    | some (.text uid), _ => .ok (.handle uid)
    | _, some _ => (tensorOf v).map .array
    | _, _ => (objectFields fs).map .record
  | v => .ok v

def objectValues (vs : List Value) : Except Fault (List Value) :=
  match vs with
  | [] => .ok []
  | v :: vs => do return (← objectValue v) :: (← objectValues vs)

def objectFields (fs : List (String × Value)) : Except Fault (List (String × Value)) :=
  match fs with
  | [] => .ok []
  | (k, v) :: fs => do return (k, ← objectValue v) :: (← objectFields fs)

end

def objectProperty (name : String) (v : Value) : Except Fault Value := do
  match name, ← objectValue v with
  | "shape", .list ds => return .tuple ds
  | _, x => return x

def objectsOf (v : Value) : Except Fault Cntk.Objects := do
  let os ← v.fields.mapM fun (uid, o) => do
    let ps ← o.fields.mapM fun (k, x) => do return (k, ← objectProperty k x)
    return (uid, ({ uid := uid, properties := Table.ofList ps } : Cntk.Item))
  return { items := Table.ofList os }

end NetBridge.Record
