import EventPipeline.Document.Decode
import EventPipeline.Plugin.Registry
import EventPipeline.Text.Convert

/-!
# `EventPipeline.Plugin.ChangeCase`: a transform for the letter case of texts

The payload is converted if it is a text; of an object the texts in its fields are, or
only those in the fields that the arguments list. Other payloads pass.
-/

set_option autoImplicit false

namespace EventPipeline

open Text (TextCase)

/-- What the transform converts, and how. -/
structure ChangeCase where
  style : TextCase
  /-- the fields of an object that are converted; all of them if none are listed -/
  fields : Option (List String) := none

namespace ChangeCase

/-- The name of the transform. -/
def name : String := "change_case"

/-- The letter cases by name. -/
def styles : List (String × TextCase) :=
  [TextCase.upper, .lower, .proper, .title].map fun style => (style.name, style)

/-- Reads the arguments of the transform. -/
def ofArgs (args : Json) : Document.Decoded ChangeCase := do
  let fields ← (Document.ofJson args).record ["case", "fields"]
  return {
    style := ← Document.required fields "case" (Document.oneOf styles)
    fields := ← Document.fieldD fields "fields" none
      (Document.optional (Document.listOf Document.text)) }

/-- Converts a text. -/
def convert (plugin : ChangeCase) (text : String) : String :=
  String.ofList (Text.convert plugin.style text.toList)

/-- The field is one of those that are converted. -/
def wants (plugin : ChangeCase) (field : String) : Bool :=
  plugin.fields.all (·.contains field)

/-- What becomes of a payload. -/
def process (plugin : ChangeCase) (payload : Json) : Outcome :=
  match payload with
  | .str text => .update (.str (plugin.convert text))
  | .obj fields =>
    .update (.obj (fields.map fun field =>
      match field.2 with
      | .str text =>
        if plugin.wants field.1 then (field.1, .str (plugin.convert text)) else field
      | _ => field))
  | _ => .pass

/-- The hooks of the transform. -/
def hooks (σ : Type) : ProcessorHooks ChangeCase σ where
  prepare _ plugin shared := { reply := .returned (), plugin, shared }
  process _ payload plugin shared :=
    { reply := .returned (plugin.process payload), plugin, shared }
  finish _ plugin shared := { reply := .returned (), plugin, shared }

end ChangeCase
end EventPipeline
