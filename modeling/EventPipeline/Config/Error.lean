import EventPipeline.Rules.Error

/-!
# `EventPipeline.Config.Error`: what can be wrong with a configuration
-/

set_option autoImplicit false

namespace EventPipeline

/-- Why a configuration cannot be used. -/
inductive ConfigError where
  | unreadable (path reason : String)
  | parse (path reason : String)
  | unknownStream (name : String)
  | missingTrigger (stream : String)
  | unknownNode (stream name : String)
  | unsupportedMode (node mode : String)
  | invalidTemplate (node reason : String)
  | invalidFilter (node : String) (source : Rules.RulerError)
  | unknownPlugin (kind name : String)
  | duplicatePlugin (kind name : String)
  | invalidArgs (kind name reason : String)
  | logging (reason : String)
  | validation (errors : List ConfigError)
deriving Inhabited

namespace ConfigError

mutual

/-- The text of a configuration error. -/
def message : ConfigError → String
  | unreadable path reason => s!"cannot read config {path}: {reason}"
  | parse path reason => s!"cannot parse config {path}: {reason}"
  | unknownStream name => s!"stream '{name}' is not configured"
  | missingTrigger stream => s!"stream '{stream}' must start with at least one trigger"
  | unknownNode stream name => s!"stream '{stream}' references unknown node '{name}'"
  | unsupportedMode node mode => s!"node '{node}': execution mode '{mode}' is not supported"
  | invalidTemplate node reason => s!"node '{node}': {reason}"
  | invalidFilter node source => s!"node '{node}' has an invalid filter: {source.message}"
  | unknownPlugin kind name => s!"no {kind} named '{name}' is registered"
  | duplicatePlugin kind name => s!"a {kind} named '{name}' is already registered"
  | invalidArgs kind name reason => s!"{kind} '{name}' has invalid arguments: {reason}"
  | logging reason => s!"cannot set up logging: {reason}"
  | validation errors =>
    "configuration validation failed:\n" ++ "\n".intercalate (messages errors)

/-- The texts of several errors, each marked as an entry of a list. -/
def messages : List ConfigError → List String
  | [] => []
  | e :: es => ("  - " ++ message e) :: messages es

end

/-- The kind of a configuration error, with the kind of the error in it. -/
def code : ConfigError → String
  | unreadable .. => "Io"
  | parse .. => "Parse"
  | unknownStream .. => "UnknownStream"
  | missingTrigger .. => "MissingTrigger"
  | unknownNode .. => "UnknownNode"
  | unsupportedMode .. => "UnsupportedMode"
  | invalidTemplate .. => "InvalidTemplate"
  | invalidFilter _ source => "InvalidFilter.Ruler." ++ source.code
  | unknownPlugin .. => "UnknownPlugin"
  | duplicatePlugin .. => "DuplicatePlugin"
  | invalidArgs .. => "InvalidArgs"
  | logging .. => "Logging"
  | validation .. => "Validation"

/-- The texts of the causes below a configuration error. -/
def causes : ConfigError → List String
  | unreadable _ reason => [reason]
  | invalidFilter _ source => source.message :: source.causes
  | _ => []

end ConfigError
end EventPipeline
