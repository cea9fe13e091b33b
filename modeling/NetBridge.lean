import NetBridge.Main
import NetBridge.Proofs.AttrValues
import NetBridge.Proofs.BlobReaders
import NetBridge.Proofs.BlockShapes
import NetBridge.Proofs.CaffeWeights
import NetBridge.Proofs.ChannelLayouts
import NetBridge.Proofs.ConfigLines
import NetBridge.Proofs.ConvRoundTrip
import NetBridge.Proofs.DraftNames
import NetBridge.Proofs.FusedLinks
import NetBridge.Proofs.JoinedShapes
import NetBridge.Proofs.KeptNames
import NetBridge.Proofs.LayerOrder
import NetBridge.Proofs.ModelWires
import NetBridge.Proofs.MxNetReorder
import NetBridge.Proofs.FunctionGraphs
import NetBridge.Proofs.OnnxEdges
import NetBridge.Proofs.OutlineChains
import NetBridge.Proofs.PadPairs
import NetBridge.Proofs.PaddedReaders
import NetBridge.Proofs.PyTorchAxes
import NetBridge.Proofs.PyTorchCode
import NetBridge.Proofs.SplitBlobs
import NetBridge.Proofs.StoredArrays
import NetBridge.Proofs.VariableClashes
import NetBridge.Proofs.WeightFiles
import NetBridge.Proofs.WeightNames
import NetBridge.Proofs.WindowExtents
import NetBridge.Service.Config
import NetBridge.Service.Draft
import NetBridge.Service.LayerGraph
import NetBridge.Service.MlModel
import NetBridge.Service.Model
import NetBridge.Service.Net
import NetBridge.Service.Task
import NetBridge.Service.TensorFlow
import NetBridge.Service.Tool
import NetBridge.Service.Torch
import NetBridge.Proofs.CropBorders
import NetBridge.Proofs.WindowPlaces
import NetBridge.Proofs.WordNames
import NetBridge.Proofs.WalkMarks
import NetBridge.Proofs.OpenBlocks
import NetBridge.Service.Function
