import EventPipeline.Config.Decode
import EventPipeline.Document.Toml.Reader
import EventPipeline.Document.Yaml.Reader
import EventPipeline.Json.Reader
import EventPipeline.Text.Blank

/-!
# `EventPipeline.Config.Format`: configurations in files

The extension of a file's name chooses its notation. The data format may have comment
lines and trailing commas in a configuration; `stripComments` takes them out.
-/

set_option autoImplicit false

namespace EventPipeline

/-- A notation for configurations. -/
inductive ConfigFormat where
  | yaml | toml | json
deriving DecidableEq, Repr

namespace ConfigFormat

/-- The name of a notation. -/
def name : ConfigFormat → String
  | yaml => "yaml"
  | toml => "toml"
  | json => "json"

/-- The last part of a path, if it names a file: empty parts and single dots do not
count, and a path that ends with two dots names none. -/
def fileName? (path : String) : Option String :=
  let parts := (path.splitOn "/").filter (· ≠ "")
  let parts := match parts, path.startsWith "/" with
    -- only at its start can a single dot be all of a path
    | "." :: rest, false => "." :: rest.filter (· ≠ ".")
    | parts, _ => parts.filter (· ≠ ".")
  match parts.getLast? with
  | none | some ".." | some "." => none
  | some last => some last

/-- What follows the last dot of a file's name; a name whose only dot is its first
character has no extension. -/
def extension? (path : String) : Option String :=
  match fileName? path with
  | none => none
  | some name =>
    match (name.splitOn ".").reverse with
    | last :: before :: earlier =>
      if before = "" && earlier.isEmpty then none else some last
    | _ => none

/-- The notation of a file. -/
def ofPath (path : String) : ConfigFormat :=
  match extension? path with
  | some "yaml" | some "yml" => yaml
  | some "toml" => toml
  | _ => json

end ConfigFormat

namespace PipelineConfig

/-- Takes out every comma that only blanks separate from a closing bracket. -/
def stripCommas : List Char → List Char
  | [] => []
  | c :: cs =>
    let closes := (Text.trimStart cs).head?.any fun d => d == '}' || d == ']'
    if c == ',' && closes then stripCommas cs else c :: stripCommas cs

/-- Takes out lines that are comments, and trailing commas. -/
def stripComments (text : String) : String :=
  let isComment (line : List Char) : Bool := "//".toList.isPrefixOf (Text.trimStart line)
  let kept := (Text.lines text.toList).filter fun line => !isComment line
  String.ofList (stripCommas (['\n'].intercalate kept))

/-- Reads the document that a text holds. -/
def document? (format : ConfigFormat) (text : String) : Option Document :=
  match format with
  | .yaml => Document.Yaml.read? text
  | .toml => Document.Toml.read? text
  | .json => (Json.read? (stripComments text)).map Document.ofJson

/-- Reads a configuration; the path only tells where an error is. -/
def parse (text : String) (format : ConfigFormat) (path : String) :
    Except ConfigError PipelineConfig :=
  match document? format text with
  | none => .error (.parse path s!"the text is no {format.name} document")
  | some d => (ofDocument d).mapError (.parse path)

/-- Reads the configuration in a file whose contents, or the reason why there are none,
are given. -/
def load (path : String) (contents : Except String ByteArray) :
    Except ConfigError PipelineConfig :=
  match contents with
  | .error reason => .error (.unreadable path reason)
  | .ok bytes =>
    match String.fromUTF8? bytes with
    | none => .error (.unreadable path "stream did not contain valid UTF-8")
    | some text => parse text (.ofPath path) path

end PipelineConfig
end EventPipeline
