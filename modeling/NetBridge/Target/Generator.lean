import NetBridge.Target.TensorFlow
import NetBridge.Target.Keras
import NetBridge.Target.Cntk
import NetBridge.Target.Caffe
import NetBridge.Target.MxNet
import NetBridge.Target.PyTorch

/-!
# The code generators

The targets that code is generated for, and the start of a generation.
-/

namespace NetBridge.Target

open Code

inductive CodeTarget where
  | caffe | cntk | keras | mxnet | pytorch | tensorflow
  deriving DecidableEq, Repr

def CodeTarget.ofName? : String → Option CodeTarget
  | "caffe" => some .caffe
  | "cntk" => some .cntk
  | "keras" => some .keras
  | "mxnet" => some .mxnet
  | "pytorch" => some .pytorch
  | "tensorflow" => some .tensorflow
  | _ => none

def CodeTarget.code (file : String) : CodeTarget → Emit String
  | .caffe => Target.Caffe.code
  | .cntk => Target.Cntk.code
  | .keras => Target.Keras.code
  | .mxnet => Target.MxNet.code file
  | .pytorch => Target.PyTorch.code
  | .tensorflow => Target.TensorFlow.code

def CodeTarget.takesWeights : CodeTarget → Bool
  | .keras => false
  | _ => true

def startScope (n : Network) (w : Option Weights) (phase : String) : Scope :=
  let (g, log) := LayerGraph.ofNetwork n
  { graph := g, weights := w.getD ∅, loaded := w.isSome, phase := phase, log := log }

end NetBridge.Target
