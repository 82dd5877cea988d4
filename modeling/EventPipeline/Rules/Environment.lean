import EventPipeline.Rules.Value

/-!
# `EventPipeline.Rules.Environment`: variable scopes

An environment is a stack of scopes over a global scope. Lookup goes from the
innermost scope outwards; a dotted name looks up its first segment and then goes
into maps.
-/

set_option autoImplicit false

namespace EventPipeline.Rules

/-- The bindings of one scope. -/
abbrev Scope := Fields Value

/-- A global scope and the scopes opened above it, innermost first. -/
structure Environment where
  globals : Scope := []
  scopes : List Scope := []

namespace Environment

/-- The number of scopes, the global one included. -/
def depth (env : Environment) : Nat :=
  env.scopes.length + 1

/-- Opens an empty scope. -/
def push (env : Environment) : Environment :=
  { env with scopes := [] :: env.scopes }

/-- Closes the innermost scope and gives it back; the global scope stays. -/
def pop (env : Environment) : Option Scope × Environment :=
  match env.scopes with
  | [] => (none, env)
  | inner :: outer => (some inner, { env with scopes := outer })

/-- Binds a name in the global scope. -/
def setGlobal (env : Environment) (name : String) (value : Value) : Environment :=
  { env with globals := env.globals.put name value }

/-- Binds a name in the innermost scope. `null` is not stored and unbinds nothing. -/
def set (env : Environment) (name : String) (value : Value) : Environment :=
  if value.isNull then env
  else
    match env.scopes with
    | [] => env.setGlobal name value
    | inner :: outer => { env with scopes := inner.put name value :: outer }

/-- Binds several names in order. -/
def setAll (env : Environment) (bindings : List (String × Value)) : Environment :=
  bindings.foldl (fun env binding => env.set binding.1 binding.2) env

/-- The global binding of a name. -/
def getGlobal? (env : Environment) (name : String) : Option Value :=
  env.globals.get? name

/-- Removes a global binding. -/
def clearGlobal (env : Environment) (name : String) : Environment :=
  { env with globals := env.globals.erase name }

/-- The innermost binding of a plain name. -/
def lookup? (env : Environment) (name : String) : Option Value :=
  (env.scopes.findSome? fun scope => scope.get? name).or (env.globals.get? name)

/-- Goes into nested maps along a list of keys. -/
def descend? (value : Value) : List String → Option Value
  | [] => some value
  | key :: keys =>
    match value with
    | .map entries => (Fields.get? entries key).bind fun inner => descend? inner keys
    | _ => none

/-- The segments of a dotted name. -/
def segments (path : String) : List String :=
  (path.toList.splitOn '.').map String.ofList

/-- The value of a name, which may be dotted. -/
def get? (env : Environment) (path : String) : Option Value :=
  match segments path with
  | [] => none
  | head :: keys => (env.lookup? head).bind fun value => descend? value keys

end Environment
end EventPipeline.Rules
