import EventPipeline.Plugin.Basic

/-!
# `EventPipeline.Plugin.Choice`: one plugin or another

Two kinds of plugins that share the same state make one kind: an instance of the one or
of the other, with the hooks of its own.
-/

set_option autoImplicit false

namespace EventPipeline

variable {ι κ σ ε α : Type}

/-- A call on an instance as a call on what the instance is part of. -/
def Call.embed (f : ι → κ) (call : Call ι σ ε α) : Call κ σ ε α :=
  { reply := call.reply, plugin := f call.plugin, shared := call.shared, log := call.log }

/-- The hooks of one processor or another. -/
def ProcessorHooks.orElse (a : ProcessorHooks ι σ) (b : ProcessorHooks κ σ) :
    ProcessorHooks (ι ⊕ κ) σ where
  prepare again plugin shared :=
    match plugin with
    | .inl plugin => (a.prepare again plugin shared).embed .inl
    | .inr plugin => (b.prepare again plugin shared).embed .inr
  process again payload plugin shared :=
    match plugin with
    | .inl plugin => (a.process again payload plugin shared).embed .inl
    | .inr plugin => (b.process again payload plugin shared).embed .inr
  finish again plugin shared :=
    match plugin with
    | .inl plugin => (a.finish again plugin shared).embed .inl
    | .inr plugin => (b.finish again plugin shared).embed .inr

/-- The hooks of one source or another. -/
def SourceHooks.orElse (a : SourceHooks ι σ) (b : SourceHooks κ σ) :
    SourceHooks (ι ⊕ κ) σ where
  prepare again plugin shared :=
    match plugin with
    | .inl plugin => (a.prepare again plugin shared).embed .inl
    | .inr plugin => (b.prepare again plugin shared).embed .inr
  advance turn plugin shared :=
    match plugin with
    | .inl plugin => (a.advance turn plugin shared).embed .inl
    | .inr plugin => (b.advance turn plugin shared).embed .inr
  halt again plugin shared :=
    match plugin with
    | .inl plugin => (a.halt again plugin shared).embed .inl
    | .inr plugin => (b.halt again plugin shared).embed .inr
  finish again plugin shared :=
    match plugin with
    | .inl plugin => (a.finish again plugin shared).embed .inl
    | .inr plugin => (b.finish again plugin shared).embed .inr

/-- The hooks of one heartbeat or another. -/
def HeartbeatHooks.orElse (a : HeartbeatHooks ι σ) (b : HeartbeatHooks κ σ) :
    HeartbeatHooks (ι ⊕ κ) σ where
  prepare again name plugin shared :=
    match plugin with
    | .inl plugin => (a.prepare again name plugin shared).embed .inl
    | .inr plugin => (b.prepare again name plugin shared).embed .inr
  beat again context plugin shared :=
    match plugin with
    | .inl plugin => (a.beat again context plugin shared).embed .inl
    | .inr plugin => (b.beat again context plugin shared).embed .inr
  finish again plugin shared :=
    match plugin with
    | .inl plugin => (a.finish again plugin shared).embed .inl
    | .inr plugin => (b.finish again plugin shared).embed .inr

end EventPipeline
