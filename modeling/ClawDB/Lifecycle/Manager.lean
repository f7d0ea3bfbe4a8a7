/-
# `Lifecycle.Manager` — starting, stopping and reporting on the subsystems

`lifecycle/manager.rs` and `lifecycle/health.rs`.  The calls that start a subsystem borrow the
manager mutably: they are programs that are given a manager and hand one back, also with an
error.  The engines are other crates'; opening one replies with a handle or a message, and
whatever else is asked of an engine may fail as well.

The six `Option` fields are one function of the component.  The conversions of the configuration
that the engines are opened with have no reply and are not operations.

Over the calls stands a log, `Attempts`: which component was tried, and what came of it.  It is
read off the events of a run, and `Follows` says that the manager is what its log makes it.
-/
import ClawDB.Lib.Trace
import ClawDB.Query.Executor

namespace ClawDB.Lifecycle

open Effect Prog
open Planning (Component BusEvent)
open Json (Value)

/-- An engine, or the client of the reflect service, behind its `Arc`. -/
abbrev Handle := Nat

/-- `engine` is the variant that an engine's own error is converted to. -/
inductive ClawDBError where
  | engine (c : Component) (message : String)
  | componentNotReady (message : String)
deriving DecidableEq

/-! ## `lifecycle/health.rs` -/

structure ComponentHealth where
  name : String
  healthy : Bool
  lastCheck : Nat
  error : Option String
  latencyMs : Option Nat
  metadata : Value

namespace ComponentHealth

def up (name : String) (latencyMs now : Nat) : ComponentHealth :=
  ⟨name, true, now, none, some latencyMs, .null⟩

def down (name error : String) (now : Nat) : ComponentHealth :=
  ⟨name, false, now, some error, none, .null⟩

end ComponentHealth

inductive HealthStatus where
  | healthy
  | degraded (reason : String)
  | unhealthy (reason : String)
  | unknown
deriving DecidableEq

abbrev HealthMap := AList fun _ : String => ComponentHealth

structure HealthReport where
  overall : HealthStatus
  components : HealthMap
  checkedAt : Nat
  uptimeSecs : Nat
  version : String

/-- `components.get(name).map(|h| h.healthy).unwrap_or(false)` -/
def HealthMap.isUp (components : HealthMap) (name : String) : Bool :=
  ((components.lookup name).map ComponentHealth.healthy).getD false

namespace HealthReport

def requiredComponents : List String := ["core", "vector", "guard", "branch"]

def isReady (report : HealthReport) : Bool := requiredComponents.all report.components.isUp

end HealthReport

/-! ## The engines -/

inductive Op where
  | openEngine (c : Component)
  | newReflectClient
  | close (c : Component) (h : Handle)
  | flushAuditLog (h : Handle)
  | publish (event : BusEvent)
  | now
  | uptimeSecs

@[reducible] def Op.Ret : Op → Type
  | .openEngine _ => Except String Handle
  | .newReflectClient => Handle
  | .close .. | .flushAuditLog _ => Except String Unit
  | .publish _ => Unit
  | .now | .uptimeSecs => Nat

abbrev Engines : Effect.Sig := ⟨Op, Op.Ret⟩

abbrev call (o : Op) : Prog Engines o.Ret := perform (F := Engines) o

/-! ## `ComponentLifecycleManager` -/

structure ComponentLifecycleManager where
  engines : Component → Option Handle
  health : HealthMap

namespace ComponentLifecycleManager

/-- No subsystem is started. -/
def new : ComponentLifecycleManager := ⟨fun _ => none, ∅⟩

def setEngine (m : ComponentLifecycleManager) (c : Component) (h : Handle) :
    ComponentLifecycleManager :=
  { m with engines := Function.update m.engines c (some h) }

def setHealth (m : ComponentLifecycleManager) (name : String) (health : ComponentHealth) :
    ComponentLifecycleManager :=
  { m with health := m.health.insert name health }

@[simp] theorem setEngine_health (m : ComponentLifecycleManager) (c : Component) (h : Handle) :
    (m.setEngine c h).health = m.health := rfl

@[simp] theorem setHealth_engines (m : ComponentLifecycleManager) (name : String)
    (health : ComponentHealth) : (m.setHealth name health).engines = m.engines := rfl

@[simp] theorem setEngine_engines (m : ComponentLifecycleManager) (c : Component) (h : Handle) :
    (m.setEngine c h).engines = Function.update m.engines c (some h) := rfl

@[simp] theorem setHealth_health (m : ComponentLifecycleManager) (name : String)
    (health : ComponentHealth) : (m.setHealth name health).health = m.health.insert name health :=
  rfl

/-- `core()`, `vector()` and the other four. -/
def get (m : ComponentLifecycleManager) (c : Component) : Except ClawDBError Handle :=
  match m.engines c with
  | some h => .ok h
  | none => .error (.componentNotReady c.name)

/-- Alias for `reflect()`. -/
def reflectClient (m : ComponentLifecycleManager) : Except ClawDBError Handle := m.get .reflect

end ComponentLifecycleManager

/-- How a call with `&mut self` ends. -/
abbrev Ended := Except ClawDBError Unit × ComponentLifecycleManager

/-- `first.await?;`, and then the rest. -/
def andThen (first : Prog Engines Ended) (rest : ComponentLifecycleManager → Prog Engines Ended) :
    Prog Engines Ended :=
  first >>= fun
    | (.ok (), m) => rest m
    | (.error e, m) => .pure (.error e, m)

/-- Opens the engine of `c`; `failed` is what the call makes of the engine's error. -/
def startEngine (c : Component) (failed : String → Except ClawDBError Unit)
    (m : ComponentLifecycleManager) : Prog Engines Ended :=
  call (.openEngine c) >>= fun
    | .ok h => do
        let now ← call .now
        call (.publish (.componentHealthChanged c.name true))
        return (.ok (), (m.setEngine c h).setHealth c.name (.up c.name 0 now))
    | .error e => do
        let now ← call .now
        return (failed e, m.setHealth c.name (.down c.name e now))

def startGuard : ComponentLifecycleManager → Prog Engines Ended :=
  startEngine .guard fun e => .error (.engine .guard e)

def startCore : ComponentLifecycleManager → Prog Engines Ended :=
  startEngine .core fun e => .error (.engine .core e)

def startVector : ComponentLifecycleManager → Prog Engines Ended :=
  startEngine .vector fun e => .error (.engine .vector e)

def startBranch : ComponentLifecycleManager → Prog Engines Ended :=
  startEngine .branch fun e => .error (.engine .branch e)

/-- A sync engine that does not open is not an error. -/
def startSync : ComponentLifecycleManager → Prog Engines Ended :=
  startEngine .sync fun _ => .ok ()

/-- Making the client cannot fail, and is not announced on the bus. -/
def startReflect (m : ComponentLifecycleManager) : Prog Engines ComponentLifecycleManager := do
  let client ← call .newReflectClient
  let now ← call .now
  return (m.setEngine .reflect client).setHealth "reflect" (.up "reflect" 0 now)

/-- Starts all subsystems in dependency order. -/
def startAll (m : ComponentLifecycleManager) : Prog Engines Ended :=
  andThen (startGuard m) fun m =>
  andThen (startCore m) fun m =>
  andThen (startVector m) fun m =>
  andThen (startBranch m) fun m =>
  andThen (startSync m) fun m => do
    let m ← startReflect m
    return (.ok (), m)

/-- `if let Some(engine) = &self.c { engine.close().await }`, the error going to the log. -/
def closeEngine (c : Component) (m : ComponentLifecycleManager) : Prog Engines Unit :=
  match m.engines c with
  | some h => do
      let _ ← call (.close c h)
      return ()
  | none => return ()

/-- The guard writes its audit log first. -/
def closeGuard (m : ComponentLifecycleManager) : Prog Engines Unit :=
  match m.engines .guard with
  | some h => do
      let _ ← call (.flushAuditLog h)
      let _ ← call (.close .guard h)
      return ()
  | none => return ()

/-- Stops all subsystems in reverse dependency order. -/
def stopAll (m : ComponentLifecycleManager) : Prog Engines (Except ClawDBError Unit) := do
  closeEngine .sync m
  closeEngine .branch m
  closeEngine .vector m
  closeEngine .core m
  closeGuard m
  return .ok ()

def restartComponent (name : String) (m : ComponentLifecycleManager) : Prog Engines Ended :=
  if name = "guard" then startGuard m
  else if name = "core" then startCore m
  else if name = "vector" then startVector m
  else if name = "branch" then startBranch m
  else if name = "sync" then startSync m
  else if name = "reflect" then do
    let m ← startReflect m
    return (.ok (), m)
  else
    return (.error (.componentNotReady ("unknown component: " ++ name)), m)

/-- The aggregate report; `version` is the crate's. -/
def healthReport (version : String) (m : ComponentLifecycleManager) : Prog Engines HealthReport :=
  let overall : HealthStatus :=
    if HealthReport.requiredComponents.all m.health.isUp then .healthy
    else
      let failing := HealthReport.requiredComponents.filter fun name => !m.health.isUp name
      .unhealthy ("components down: " ++ ", ".intercalate failing)
  do
    let checkedAt ← call .now
    let uptimeSecs ← call .uptimeSecs
    return ⟨overall, m.health, checkedAt, uptimeSecs, version⟩

/-- The calls that a run of the manager is made of. -/
inductive Call where
  | startAll
  | restartComponent (name : String)
  | stopAll

def Call.run (m : ComponentLifecycleManager) : Call → Prog Engines Ended
  | .startAll => Lifecycle.startAll m
  | .restartComponent name => Lifecycle.restartComponent name m
  | .stopAll => do
      let r ← Lifecycle.stopAll m
      return (r, m)

/-- Calls one after the other: what each returned, and the manager after the last one. -/
def runCalls : List Call → ComponentLifecycleManager →
    Prog Engines (List (Except ClawDBError Unit) × ComponentLifecycleManager)
  | [], m => .pure ([], m)
  | c :: cs, m => do
      let (r, m) ← c.run m
      let (rs, m) ← runCalls cs m
      return (r :: rs, m)

/-! ## The log of attempts -/

/-- What came of trying to start a component. -/
abbrev Attempt := Component × Except String Handle

def attemptOf : (o : Op) → o.Ret → Option Attempt
  | .openEngine c, r => some (c, r)
  | .newReflectClient, h => some (.reflect, .ok h)
  | _, _ => none

/-- The components that were tried, in order. -/
def attempts (evs : List (Exchange Engines)) : List Attempt :=
  evs.filterMap fun ev => attemptOf ev.1 ev.2

/-- The engines that were told to close, in order. -/
def closed (evs : List (Exchange Engines)) : List (Component × Handle) :=
  evs.filterMap fun
    | ⟨.close c h, _⟩ => some (c, h)
    | _ => none

/-- What was announced on the bus, in order. -/
def published (evs : List (Exchange Engines)) : List BusEvent :=
  evs.filterMap fun
    | ⟨.publish event, _⟩ => some event
    | _ => none

/-- The engine of `c` that was opened last. -/
def opened (c : Component) : List Attempt → Option Handle
  | [] => none
  | (c', r) :: log => (opened c log).or (if c' = c then r.toOption else none)

/-- What came of the last attempt at `c`. -/
def lastTry (c : Component) : List Attempt → Option (Except String Handle)
  | [] => none
  | (c', r) :: log => (lastTry c log).or (if c' = c then some r else none)

/-- The last attempt at `c` succeeded. -/
def running (c : Component) (log : List Attempt) : Bool :=
  (lastTry c log).any Except.toBool

/-- The announcements that attempts come with: of each success, but for the client. -/
def announced (log : List Attempt) : List BusEvent :=
  log.filterMap fun
    | (c, .ok _) => if c = .reflect then none else some (.componentHealthChanged c.name true)
    | (_, .error _) => none

end ClawDB.Lifecycle
