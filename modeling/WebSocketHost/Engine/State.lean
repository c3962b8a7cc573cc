/-!
The states of a server.
-/
namespace WebSocketHost

inductive EngineState
  | idle
  | starting
  | listening
  | stopping
  | failed
deriving DecidableEq

namespace EngineState

def initial : EngineState := idle

/-- The name in lower case, for people. -/
def toText : EngineState → String
  | idle => "idle"
  | starting => "starting"
  | listening => "listening"
  | stopping => "stopping"
  | failed => "failed"

/-- The name in logs. -/
def toLog : EngineState → String
  | idle => "Idle"
  | starting => "Starting"
  | listening => "Listening"
  | stopping => "Stopping"
  | failed => "Failed"

end EngineState

end WebSocketHost
