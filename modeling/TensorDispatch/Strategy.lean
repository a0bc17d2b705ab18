/-!
# Dispatch strategies

A **strategy** says how the push stage releases gradients; every other stage scans its
pending tasks plainly, whatever the configuration asks for.
-/

namespace TensorDispatch

/-- How push-stage gradients are released. -/
inductive Strategy
  /-- The first admissible pending task goes. -/
  | plain
  /-- A precomputed order of tensors is replayed behind the iteration door. -/
  | tokenReplay
  /-- Bytes are metered per window of a profiled timeline. -/
  | timeWindow
  deriving DecidableEq, Repr

namespace Strategy

/-- The strategies in the order of their definition. -/
def all : List Strategy := [plain, tokenReplay, timeWindow]

/-- The spelling of a strategy in configuration and reports. -/
def name : Strategy → String
  | plain => "plain"
  | tokenReplay => "token-replay"
  | timeWindow => "time-window"

/-- The strategy with exactly this spelling. -/
def ofName? (s : String) : Option Strategy :=
  all.find? fun strategy => strategy.name == s

end Strategy

end TensorDispatch
