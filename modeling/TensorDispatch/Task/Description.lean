import TensorDispatch.Task
import TensorDispatch.Text.Quoted

/-!
# Task descriptions

The one-line description of a task in diagnostics: its fields by name, and whether it waits for
a readiness flag.
-/

namespace TensorDispatch

/-- The spelling of a payload in diagnostics. -/
def Payload.title : Payload → String
  | gradient => "Gradient"
  | control => "Control"

/-- A task with all its fields, in one line. -/
def Task.description (t : Task) : String :=
  let fields := [
    ("name", Text.quoted t.name),
    ("key", toString t.key),
    ("priority", toString t.priority),
    ("len", toString t.len),
    ("total_partnum", toString t.partitions),
    ("payload", t.payload.title),
    ("has_ready_event", if t.flag.isSome then "true" else "false")]
  "Task \x7b " ++ ", ".intercalate (fields.map fun (name, value) => name ++ ": " ++ value)
    ++ " \x7d"

end TensorDispatch
