import AxisGraph.Attribute
import AxisGraph.NameMap
import AxisGraph.Tensor

/-!
Log entries of executions. An execution that gets as far as running its operator logs its start,
then each diagnostic when it is reported, then, if it succeeds, each output.
-/

namespace AxisGraph

inductive LogLevel where
  | debug
  | warning
  deriving DecidableEq

instance : ToString LogLevel where
  toString
    | .debug => "DEBUG"
    | .warning => "WARN"

inductive LogEntry where
  | started (operator kind : String) (inputs : NameMap Tensor)
  | diagnosed (operator : String) (diagnostic : Diagnostic)
  | published (operator slot : String) (tensor : Tensor)
  deriving DecidableEq

namespace LogEntry

def level : LogEntry → LogLevel
  | started .. => .debug
  | diagnosed .. => .warning
  | published .. => .debug

def slotText (slot : String) (tensor : Tensor) : String :=
  slot ++ ": " ++ toString tensor

def message : LogEntry → String
  | started operator kind inputs =>
    "[" ++ operator ++ "] exec " ++ kind ++ " with inputs " ++
      Text.commaSeparated (inputs.entries.map fun entry => slotText entry.1 entry.2)
  | diagnosed operator diagnostic => "[" ++ operator ++ "] " ++ toString diagnostic
  | published operator slot tensor => "[" ++ operator ++ "] output " ++ slotText slot tensor

instance : ToString LogEntry := ⟨fun entry => toString entry.level ++ " " ++ entry.message⟩

end LogEntry

end AxisGraph
