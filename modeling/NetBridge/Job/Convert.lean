import NetBridge.CommandLine.Commands
import NetBridge.Job.Import
import NetBridge.Job.Code

/-!
# Conversions from framework to framework

A conversion reads a model into a network under a temporary name and then writes code for it or packs
it into a model file. Words of the command line that the conversion does not know go to these jobs.
-/

namespace NetBridge.Job

open CommandLine

def codePath (framework temporary output : String) : String :=
  if framework = "pytorch" then
    Text.joinPath (Text.directory output) (Text.splitFirst '.' (Text.fileName output)).1
  else temporary

def removeTemporary (temporary : String) : Task Unit :=
  [".json", ".pb", ".npy", ".py"].forM fun ending => modifyFolder fun f => f.remove (temporary ++ ending)

/-- Converts a model. The code that is written for a framework is there to be run by it; without the
framework the conversion ends there. -/
def convertJob (args : List String) (temporary : String) : Task Int := do
  let p ← parseKnown convertCommand args
  let read ← parseKnown importCommand (importWords p.values p.rest temporary)
  discard (importJob read.values)
  let framework := (p.values.findD "dstFramework" .none).display
  if framework = "coreml" then
    let packed ← parseKnown packCommand (packWords p.values read.rest temporary)
    let status ← packJob packed.values
    removeTemporary temporary
    return status
  else
    let code := codePath framework temporary (p.values.findD "outputModel" .none).display
    let written ← parseKnown codeCommand (codeWords p.values read.rest temporary code)
    discard (codeJob written.values)
    throw { cause := .missingModule }

end NetBridge.Job
