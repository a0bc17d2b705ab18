import TensorDispatch.Json.Text
import TensorDispatch.Main
import TensorDispatch.Task.Description
import TensorDispatch.Proofs.History
import TensorDispatch.Proofs.Pending
import TensorDispatch.Proofs.Queue.Choice
import TensorDispatch.Proofs.Queue.Operations
import TensorDispatch.Proofs.Queue.Faults
import TensorDispatch.Proofs.Queue.Frames
import TensorDispatch.Proofs.Queue.Checks
import TensorDispatch.Proofs.Queue.Counters
import TensorDispatch.Proofs.Queue.Submission
import TensorDispatch.Proofs.Queue.Profiles
import TensorDispatch.Proofs.Queue.Batch
import TensorDispatch.Proofs.Conservation
import TensorDispatch.Proofs.Credit
import TensorDispatch.Proofs.Admission
import TensorDispatch.Proofs.Replay.Poll
import TensorDispatch.Proofs.Replay.Emission
import TensorDispatch.Proofs.Replay.Door
import TensorDispatch.Proofs.Replay.Fresh
import TensorDispatch.Proofs.Replay.Line
import TensorDispatch.Proofs.Throttle.Trace
import TensorDispatch.Proofs.Throttle.Metering
import TensorDispatch.Proofs.Rehearsal.Tensors
import TensorDispatch.Proofs.Rehearsal.Worker
import TensorDispatch.Proofs.Rehearsal.Iterations
import TensorDispatch.Proofs.Queue.Control
import TensorDispatch.Proofs.Queue.Interference
import TensorDispatch.Proofs.Replay.Completion
import TensorDispatch.Proofs.Replay.Partition
import TensorDispatch.Proofs.Queue.Breaches
import TensorDispatch.Proofs.Replay.Permits
import TensorDispatch.Proofs.Replay.Reopening
import TensorDispatch.Proofs.Throttle.Overflow
import TensorDispatch.Proofs.Replay.Banking
import TensorDispatch.Proofs.Contributions
import TensorDispatch.Proofs.Replay.Selection
import TensorDispatch.Proofs.Rehearsal.Polls
import TensorDispatch.Proofs.Rehearsal.Record
import TensorDispatch.Proofs.Rehearsal.Accounts
import TensorDispatch.Proofs.Queue.Numbering
import TensorDispatch.Proofs.Queue.Scan
import TensorDispatch.Proofs.Queue.Idling
import TensorDispatch.Proofs.Throttle.Draining
import TensorDispatch.Proofs.Rehearsal.Credited
import TensorDispatch.Proofs.Config.Loading
import TensorDispatch.Proofs.Queue.Starts
import TensorDispatch.Proofs.Rehearsal.Priorities
import TensorDispatch.Proofs.Throttle.Pacing
import TensorDispatch.Proofs.Rehearsal.Throttled
import TensorDispatch.Proofs.Rehearsal.Keys
import TensorDispatch.Proofs.Rehearsal.Order
import TensorDispatch.Proofs.Pending.Slots
