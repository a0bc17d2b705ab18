/-!
# Pipeline stages and roles

A tensor partition crosses the communication pipeline in seven **stages**, and each stage of
each process owns one dispatcher. What a dispatcher has to wait for depends on the **role** of
its process in the topology:

* `Stage.gatesOnTable` — whether the stage consults a table of contributions;
* `Stage.usesCredit` — whether the stage meters the bytes in flight.
-/

namespace TensorDispatch

/-- One phase of the communication pipeline. -/
inductive Stage
  | reduce
  | pcieReduce
  | copyToHost
  | push
  | pull
  | copyToDevice
  | broadcast
  deriving DecidableEq, Repr

/-- The place of a process in the topology. -/
structure Role where
  /-- Coordinates reduction and broadcast within the node. -/
  signalRoot : Bool := false
  /-- Owns the push stage of the node. -/
  rootDevice : Bool := false
  /-- The node spans more than one PCIe switch. -/
  crossSwitch : Bool := false
  /-- Root of the reduction on the host. -/
  hostReducerRoot : Bool := false
  deriving DecidableEq, Repr

namespace Stage

/-- The stages in pipeline order. -/
def all : List Stage :=
  [reduce, pcieReduce, copyToHost, push, pull, copyToDevice, broadcast]

/-- The spelling of a stage in configuration, commands and reports. -/
def name : Stage → String
  | reduce => "reduce"
  | pcieReduce => "pcie-reduce"
  | copyToHost => "copy-d2h"
  | push => "push"
  | pull => "pull"
  | copyToDevice => "copy-h2d"
  | broadcast => "broadcast"

/-- The stage with exactly this spelling. -/
def ofName? (s : String) : Option Stage :=
  all.find? fun stage => stage.name == s

/-- The stage with this spelling in any letter case. Lower-casing the ASCII letters is enough:
the spellings are ASCII, and the one letter outside ASCII with an ASCII lower case, the Kelvin
sign, stands for a `k`, which no spelling contains. -/
def parse? (s : String) : Option Stage :=
  ofName? (s.map Char.toLower)

/-- What is said of a text that names no stage. -/
def unknownMessage (s : String) : String :=
  "Unknown stage: " ++ s

/-- Whether a dispatcher of this stage waits for contributions under the given role. -/
def gatesOnTable (role : Role) : Stage → Bool
  | reduce | broadcast => role.signalRoot
  | pcieReduce => role.crossSwitch && role.hostReducerRoot
  | push => role.rootDevice
  | copyToDevice => !role.rootDevice
  | copyToHost | pull => false

/-- Only the reduction on the signal root meters the bytes in flight. -/
def usesCredit (role : Role) (stage : Stage) : Bool :=
  stage == reduce && role.signalRoot

theorem mem_all (stage : Stage) : stage ∈ all := by
  cases stage <;> decide

end Stage

end TensorDispatch
