/-
# `Plugins.Registry` — registering, unregistering and calling plugins

`plugins/registry.rs`, with the capability check of `plugins/sandbox.rs`.  A plugin is moved
into `register`, so each call brings an instance of its own; it is numbered when its first hook,
`on_load`, is called.  A handle is that number.

One operation is one access to a map, or one hook.  A registered plugin is called by whoever
holds its mutex: taking the mutex, calling the hook and letting go is one operation, and the
order of the operations on an instance is the order in which its mutex is given.  Between two
operations any other call may run.

An event is passed on and never read.
-/
import ClawDB.Lib.Prog
import ClawDB.Types
import Mathlib.Data.List.AList

namespace ClawDB.Plugins

open Effect

/-! ## The sandbox -/

/-- The capabilities the sandbox names; `other` stands for the rest, with its `Debug` text. -/
inductive PluginCapability where
  | readMemory
  | writeMemory
  | modifySearchResults
  | hookTransactions
  | emitEvents
  | accessGuard
  | accessSync
  | other (text : String)
deriving DecidableEq

/-- The derived `Debug` text. -/
def PluginCapability.debug : PluginCapability → String
  | .readMemory => "ReadMemory"
  | .writeMemory => "WriteMemory"
  | .modifySearchResults => "ModifySearchResults"
  | .hookTransactions => "HookTransactions"
  | .emitEvents => "EmitEvents"
  | .accessGuard => "AccessGuard"
  | .accessSync => "AccessSync"
  | .other text => text

structure PluginManifest where
  name : String
  capabilities : List PluginCapability

inductive PluginError where
  | pluginLoad (name reason : String)
  | pluginExecution (name hook reason : String)
  | pluginCapabilityDenied (plugin capability : String)
deriving DecidableEq

structure PluginSandbox where
  enabled : Bool
  allowlist : List PluginCapability

/-- The default allowlist. -/
def PluginSandbox.new (enabled : Bool) : PluginSandbox where
  enabled := enabled
  allowlist := [.readMemory, .modifySearchResults, .hookTransactions, .emitEvents]

def rejectDangerousCombinations (pluginName : String) (capabilities : List PluginCapability) :
    Except PluginError Unit :=
  let hasWrite := capabilities.contains .writeMemory
  let hasGuard := capabilities.contains .accessGuard
  let hasSync := capabilities.contains .accessSync
  if hasWrite && hasGuard then
    .error (.pluginCapabilityDenied pluginName
      "WriteMemory+AccessGuard (dangerous combination)")
  else if hasWrite && hasSync then
    .error (.pluginCapabilityDenied pluginName
      "WriteMemory+AccessSync (dangerous combination)")
  else .ok ()

def PluginSandbox.validateCapabilities (sandbox : PluginSandbox) (manifest : PluginManifest) :
    Except PluginError Unit :=
  if !sandbox.enabled then .ok ()
  else
    match manifest.capabilities.find? fun cap => !sandbox.allowlist.contains cap with
    | some cap => .error (.pluginCapabilityDenied manifest.name cap.debug)
    | none => rejectDangerousCombinations manifest.name manifest.capabilities

/-! ## What the registry calls -/

/-- A plugin instance, and every handle to it. -/
abbrev Instance := Nat

inductive Op (E : Type) where
  | containsKey (name : String)
  | remove (name : String)
  | removeManifest (name : String)
  /-- `handle.lock()` and `on_unload` -/
  | onUnload (plugin : Instance)
  /-- `on_load` of the plugin the call owns -/
  | onLoad
  | insert (name : String) (plugin : Instance)
  | insertManifest (manifest : PluginManifest)
  /-- the handles, collected in one of the map's orders -/
  | handles
  /-- `handle.lock()` and `on_event` -/
  | onEvent (plugin : Instance) (event : E)

@[reducible] def Op.Ret {E : Type} : Op E → Type
  | .containsKey _ => Bool
  | .remove _ => Option Instance
  | .removeManifest _ => Unit
  | .onUnload _ => Except String Unit
  | .onLoad => Instance × Except String Unit
  | .insert .. => Unit
  | .insertManifest _ => Unit
  | .handles => List (String × Instance)
  | .onEvent .. => Except String Unit

abbrev Shared (E : Type) : Effect.Sig := ⟨Op E, Op.Ret⟩

abbrev Call (E : Type) := Try (Shared E) PluginError

variable {E : Type}

def ask (o : Op E) : Prog (Shared E) o.Ret := Prog.perform (F := Shared E) o

/-! ## The calls -/

/-- Unregisters a plugin by name, calling `on_unload`. -/
def unregister (name : String) : Call E Unit := do
  match ← Try.lift (ask (.remove name)) with
  | none => throw (.pluginLoad name "plugin not found")
  | some handle => do
      Try.lift (ask (.removeManifest name))
      Try.of (ask (.onUnload handle)) fun reason => .pluginExecution name "on_unload" reason

/-- Registers a plugin, calling `on_load`. -/
def register (sandbox : PluginSandbox) (manifest : PluginManifest) : Call E Unit := do
  match sandbox.validateCapabilities manifest with
  | .error e => throw e
  | .ok _ => do
      let present : Bool ← Try.lift (ask (.containsKey manifest.name))
      if present then unregister manifest.name
      let (plugin, loaded) ← Try.lift (ask .onLoad)
      match loaded with
      | .error reason => throw (.pluginLoad manifest.name reason)
      | .ok _ => do
          Try.lift (ask (.insert manifest.name plugin))
          Try.lift (ask (.insertManifest manifest))

/-- Errors of one plugin do not keep the event from the others. -/
def deliver (event : E) : List (String × Instance) → Prog (Shared E) Unit
  | [] => pure ()
  | (_, handle) :: handles => do
      let _ ← ask (.onEvent handle event)
      deliver event handles

/-- Calls `on_event` on every registered plugin for `event`. -/
def dispatchEvent (event : E) : Prog (Shared E) Unit := do
  let handles ← ask .handles
  deliver event handles

/-! ## Requests -/

inductive Request (E : Type) where
  | register (manifest : PluginManifest)
  | unregister (name : String)
  | dispatchEvent (event : E)

/-- `dispatch_event` returns nothing. -/
abbrev Reply := Except PluginError Unit

def handler (sandbox : PluginSandbox) : Request E → Prog (Shared E) Reply
  | .register manifest => (register sandbox manifest).run
  | .unregister name => (unregister name).run
  | .dispatchEvent event => Except.ok <$> dispatchEvent event

end ClawDB.Plugins
