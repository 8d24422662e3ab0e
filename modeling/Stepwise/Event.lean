/-!
# Events

Beside its result and its trace a computation reports events, each a message
at a level of detail. Events are read off from what was computed; computing
never depends on them.
-/

namespace Stepwise

/-- How detailed an event is. -/
inductive Level where
  | trace
  | debug
  | warn
  deriving DecidableEq

/-- **An event**: a message and its level. -/
structure Event where
  level : Level
  message : String
  deriving DecidableEq

/-- An event of level `trace`. -/
def Event.trace (message : String) : Event := ⟨.trace, message⟩

/-- An event of level `debug`. -/
def Event.debug (message : String) : Event := ⟨.debug, message⟩

/-- An event of level `warn`. -/
def Event.warn (message : String) : Event := ⟨.warn, message⟩

end Stepwise
