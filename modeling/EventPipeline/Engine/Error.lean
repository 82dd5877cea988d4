import EventPipeline.Config.Error
import EventPipeline.Number.Duration

/-!
# `EventPipeline.Engine.Error`: what can go wrong in nodes and streams
-/

set_option autoImplicit false

namespace EventPipeline

/-- Why a node, one of its units or one of its plugins failed. -/
inductive NodeError where
  | initTimeout (unit : String) (timeout : Duration)
  | initFailed (unit reason : String)
  | spawn (unit reason : String)
  | emitAlreadyRegistered (node : String)
  | emitNotRegistered (node : String)
  | poolNotReady (node : String)
  | unsupportedMode (node mode : String)
  | invalidArgs (node reason : String)
  | invalidFilter (node : String) (source : Rules.RulerError)
  | invalidFilterResult (value : String)
  | filter (source : Rules.RulerError)
  | processing (reason : String)
  | panicked (unit message : String)
deriving DecidableEq

/-- The text of a node error. -/
def NodeError.message : NodeError → String
  | initTimeout unit timeout => s!"unit '{unit}' did not initialize within {timeout.text}"
  | initFailed unit reason => s!"unit '{unit}' failed to initialize: {reason}"
  | spawn unit reason => s!"cannot spawn worker for unit '{unit}': {reason}"
  | emitAlreadyRegistered node => s!"node '{node}' already has a registered emit target"
  | emitNotRegistered node =>
    s!"node '{node}' was started before its emit target was registered"
  | poolNotReady node => s!"node '{node}' is not accepting events"
  | unsupportedMode node mode => s!"node '{node}': execution mode '{mode}' is not supported"
  | invalidArgs node reason => s!"node '{node}': invalid arguments: {reason}"
  | invalidFilter node source => s!"filter of node '{node}' is invalid: {source.message}"
  | invalidFilterResult value =>
    s!"filter returned {value}, expected CONTINUE, ACCEPT or DROP"
  | filter source => source.message
  | processing reason => s!"processing failed: {reason}"
  | panicked unit text => s!"unit '{unit}' panicked: {text}"

/-- The kind of a node error, with the kind of the error in it. -/
def NodeError.code : NodeError → String
  | initTimeout .. => "InitTimeout"
  | initFailed .. => "InitFailed"
  | spawn .. => "Spawn"
  | emitAlreadyRegistered .. => "EmitAlreadyRegistered"
  | emitNotRegistered .. => "EmitNotRegistered"
  | poolNotReady .. => "PoolNotReady"
  | unsupportedMode .. => "UnsupportedMode"
  | invalidArgs .. => "InvalidArgs"
  | invalidFilter _ source => "InvalidFilter.Ruler." ++ source.code
  | invalidFilterResult .. => "InvalidFilterResult"
  | filter source => "Filter.Ruler." ++ source.code
  | processing .. => "Processing"
  | panicked .. => "Panicked"

/-- The texts of the causes below a node error. -/
def NodeError.causes : NodeError → List String
  | invalidFilter _ source => source.message :: source.causes
  | filter source => source.causes
  | _ => []

/-- Why a stream could not be built, started or stopped. -/
inductive StreamError where
  | unknownStream (name : String)
  | alreadyRunning (name : String)
  | notRunning (name : String)
  | startTimeout (name : String) (timeout : Duration)
  | stillStopping (name : String)
  | startFailed (name reason : String)
  | controllerBusy (timeout : Duration)
  | controllerRunning
  | heartbeat (name reason : String)
  | config (source : ConfigError)
  | node (source : NodeError)

/-- The text of a stream error. -/
def StreamError.message : StreamError → String
  | unknownStream name => s!"stream '{name}' is not configured"
  | alreadyRunning name => s!"stream '{name}' is already running"
  | notRunning name => s!"stream '{name}' is not running"
  | startTimeout name timeout =>
    s!"stream '{name}' did not report ready within {timeout.text}"
  | stillStopping name => s!"stream '{name}' was abandoned and is still winding down"
  | startFailed name reason => s!"stream '{name}' failed to start: {reason}"
  | controllerBusy timeout =>
    s!"stream controller busy: lock not acquired within {timeout.text}"
  | controllerRunning => "stream controller is already running"
  | heartbeat name reason => s!"heartbeat '{name}' failed: {reason}"
  | config source => source.message
  | node source => source.message

/-- The kind of a stream error, with the kind of the error in it. -/
def StreamError.code : StreamError → String
  | unknownStream .. => "UnknownStream"
  | alreadyRunning .. => "AlreadyRunning"
  | notRunning .. => "NotRunning"
  | startTimeout .. => "StartTimeout"
  | stillStopping .. => "StillStopping"
  | startFailed .. => "StartFailed"
  | controllerBusy .. => "ControllerBusy"
  | controllerRunning => "ControllerRunning"
  | heartbeat .. => "HeartBeat"
  | config source => "Config." ++ source.code
  | node source => "Node." ++ source.code

/-- The texts of the causes below a stream error. -/
def StreamError.causes : StreamError → List String
  | config source => source.causes
  | node source => source.causes
  | _ => []

end EventPipeline
