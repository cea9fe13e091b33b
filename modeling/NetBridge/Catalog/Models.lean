import NetBridge.Config.Basic

/-!
# Pretrained models

The pretrained models that can be fetched for each framework, with the names of their files.
-/

namespace NetBridge.Catalog

structure Pretrained where
  name : String
  files : List String

def pretrained? (models : List Pretrained) (name : String) : Option Pretrained :=
  models.find? fun m => m.name == name

def caffeModels : List Pretrained :=
  ["alexnet", "inception_v1", "vgg16", "vgg19", "resnet50", "resnet101", "resnet152", "squeezenet",
   "xception", "inception_v4", "voc-fcn8s", "voc-fcn16s", "voc-fcn32s"].map fun name =>
    ⟨name, [name ++ "-deploy.prototxt", name ++ ".caffemodel"]⟩

def symbolModels : List Pretrained := [
  ⟨"imagenet1k-inception-bn", ["Inception-BN-symbol.json", "Inception-BN-0126.params"]⟩,
  ⟨"imagenet1k-resnet-18", ["resnet-18-symbol.json", "resnet-18-0000.params"]⟩,
  ⟨"imagenet1k-resnet-34", ["resnet-34-symbol.json", "resnet-34-0000.params"]⟩,
  ⟨"imagenet1k-resnet-50", ["resnet-50-symbol.json", "resnet-50-0000.params"]⟩,
  ⟨"imagenet1k-resnet-101", ["resnet-101-symbol.json", "resnet-101-0000.params"]⟩,
  ⟨"imagenet1k-resnet-152", ["resnet-152-symbol.json", "resnet-152-0000.params"]⟩,
  ⟨"imagenet1k-resnext-50", ["resnext-50-symbol.json", "resnext-50-0000.params"]⟩,
  ⟨"imagenet1k-resnext-101", ["resnext-101-symbol.json", "resnext-101-0000.params"]⟩,
  ⟨"imagenet1k-resnext-101-64x4d", ["resnext-101-64x4d-symbol.json", "resnext-101-64x4d-0000.params"]⟩,
  ⟨"imagenet11k-resnet-152", ["resnet-152-symbol.json", "resnet-152-0000.params"]⟩,
  ⟨"imagenet11k-place365ch-resnet-152", ["resnet-152-symbol.json", "resnet-152-0000.params"]⟩,
  ⟨"imagenet11k-place365ch-resnet-50", ["resnet-50-symbol.json", "resnet-50-0000.params"]⟩,
  ⟨"vgg19", ["vgg19-symbol.json", "vgg19-0000.params"]⟩,
  ⟨"vgg16", ["vgg16-symbol.json", "vgg16-0000.params"]⟩,
  ⟨"squeezenet_v1.0", ["squeezenet_v1.0-symbol.json", "squeezenet_v1.0-0000.params"]⟩,
  ⟨"squeezenet_v1.1", ["squeezenet_v1.1-symbol.json", "squeezenet_v1.1-0000.params"]⟩]

def kerasModels : List Pretrained :=
  ["inception_v3", "vgg16", "vgg19", "resnet50", "mobilenet", "xception", "inception_resnet_v2",
   "densenet", "nasnet"].map fun name => ⟨name, ["imagenet_" ++ name ++ ".h5"]⟩

def sharedKerasModels : List Pretrained := [⟨"yolo2", ["yolo2.h5"]⟩]

def functionModels : List Pretrained := [
  ⟨"alexnet", ["AlexNet_ImageNet_CNTK.model"]⟩,
  ⟨"inception_v3", ["InceptionV3_ImageNet_CNTK.model"]⟩,
  ⟨"resnet18", ["ResNet18_ImageNet_CNTK.model"]⟩,
  ⟨"resnet50", ["ResNet50_ImageNet_CNTK.model"]⟩,
  ⟨"resnet101", ["ResNet101_ImageNet_CNTK.model"]⟩,
  ⟨"resnet152", ["ResNet152_ImageNet_CNTK.model"]⟩,
  ⟨"Fast-RCNN_grocery100", ["Fast-RCNN_grocery100.model"]⟩,
  ⟨"Fast-RCNN_Pascal", ["Fast-RCNN.model"]⟩]

/-! ## Labels of predictions -/

/-- The labels of a label file, without blanks at their ends. A last line without an end counts. -/
def labelsOf (text : String) : List String :=
  let lines := Config.fileLines text
  let lines := if lines.getLast? = some "" then lines.dropLast else lines
  lines.map Text.trimEnd

def scoredClass (v : Value) : Except Fault (Value × Value) := do
  match ← v.elements with
  | [i, score] => return (i, score)
  | _ => throw .value

def labelled (labels : List String) (offset : Int) (predictions : List Value) :
    Except Fault (List Value) :=
  predictions.mapM fun v => do
    let (i, score) ← scoredClass v
    let label ← Value.nth labels ((← i.toInt) - offset)
    return .tuple [.text label, i, score]

/-! ## Downloads -/

def progressText (count block total : Int) : Except Fault String := do
  let size ← (Scalar.int (count * block)).quotient 1024
  let percent ← (Scalar.int (count * block * 100)).quotient (.int total)
  return "\rprogress: " ++ size.text ++ " KB downloaded, " ++ toString (min percent.whole 100) ++ "%"

end NetBridge.Catalog
