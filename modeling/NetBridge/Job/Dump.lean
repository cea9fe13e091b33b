import NetBridge.CommandLine.Commands
import NetBridge.Job.Basic

/-!
# Saving the models that code describes

Code that was written for a framework is loaded as a module, its functions are called to build the
model and to load the weights, and the framework saves the result.
-/

namespace NetBridge.Job

open CommandLine

structure DumpOrder where
  network : String
  weights : Value
  destination : String

def buildCall (o : DumpOrder) : Call := { name := "KitModel", args := [o.weights] }

def DumpOrder.origin (o : DumpOrder) : String :=
  "generated by [" ++ o.network ++ ".py] and [" ++ o.weights.display ++ "]."

def savingOf (o : DumpOrder) : String → Option (List Call × String)
  | "caffe" =>
    let net := o.destination ++ ".prototxt"
    let arrays := o.destination ++ ".caffemodel"
    some ([
      { name := "make_net", args := [.text net] },
      { name := "gen_weight", args := [o.weights, .text arrays, .text net] },
      { name := "caffe.Net", args := [.text "file", .text "file", .int 1] }],
      "Caffe model files are saved as [" ++ net ++ "] and [" ++ arrays ++ "], " ++ o.origin)
  | "cntk" =>
    some ([buildCall o, { name := "model.save", args := [.text o.destination] }],
      "CNTK model file is saved as [" ++ o.destination ++ "], " ++ o.origin)
  | "keras" =>
    some ([buildCall o, { name := "model.save", args := [.text o.destination] }],
      "Keras model file is saved as [" ++ o.destination ++ "], " ++ o.origin)
  | "mxnet" =>
    some ([
      { name := "RefactorModel" },
      { name := "deploy_weight", args := [.handle "RefactorModel()", o.weights] },
      { name := "deploy_weight().save_checkpoint", args := [.text o.destination, .int 0] }],
      "MXNet checkpoint file is saved with prefix [" ++ o.destination ++ "] and iteration 0, " ++ o.origin)
  | "pytorch" =>
    some ([buildCall o, { name := "model.eval" }, { name := "torch.save", args := [.text o.destination] }],
      "PyTorch model file is saved as [" ++ o.destination ++ "], " ++ o.origin ++
        " Notice that you may need [" ++ o.network ++ ".py] to load the model back.")
  | "tensorflow" =>
    some ([
      buildCall o,
      { name := "tf.Session" },
      { name := "tf.global_variables_initializer" },
      { name := "tf.Session().run", args := [.handle "tf.global_variables_initializer()"] },
      { name := "tf.train.Saver" },
      { name := "tf.train.Saver().save", args := [.handle "tf.Session()", .text o.destination] }],
      "Tensorflow file is saved as [" ++ o.destination ++ "], " ++ o.origin)
  | _ => none

def dump (modules : List String) (framework : Value) (o : DumpOrder) : Task Int := do
  let network := if Text.endsWith o.network ".py" then Text.dropEnd 3 o.network else o.network
  Run.require (!network.isEmpty) .value
  Run.require (modules.contains network) { cause := .missingModule }
  match savingOf { o with network } framework.display with
  | none => throw (.report .unsupported (framework.display ++ " saver is not finished yet."))
  | some (calls, line) =>
    call calls
    printLine line
    return 0

def dumpJob (modules : List String) (args : List String) : Task Int := do
  let a ← parse dumpCommand args
  let word (name : String) : String := (a.findD name .none).display
  dump modules (a.findD "framework" .none)
    { network := word "inputNetwork", weights := a.findD "inputWeight" .none
      destination := word "outputModel" }

end NetBridge.Job
