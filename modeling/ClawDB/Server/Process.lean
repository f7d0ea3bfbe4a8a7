/-
# `Server.Process` — `clawdb-server` from its arguments to its exit status

`main` loads a configuration, opens the components one after the other, binds three ports, and
spawns a task for each.  From then on the tasks run beside it.  It waits for a signal or for a
task to end, whichever is first, and on a signal it stops the tasks, gives them thirty seconds,
and closes the engine.

A task serves until it ends.  When and how is up to `axum` and `tonic`, so it is a parameter;
what they promise of a graceful shutdown is `Servers.Graceful`, for those results that need it.
-/
import ClawDB.Config
import ClawDB.Engine
import ClawDB.Lib.Rely

namespace ClawDB.Process

open Effect
open Unix

/-! ## What the process asks for -/

/-- The three servers of the process. -/
inductive Task where
  | grpc
  | http
  | metrics
deriving DecidableEq

def Task.name : Task → String
  | grpc => "gRPC"
  | http => "HTTP"
  | metrics => "metrics"

/-- In the order they are bound, spawned and joined. -/
def tasks : List Task := [.grpc, .http, .metrics]

/-- An `anyhow::Error`. -/
inductive Failure where
  | db (e : ClawDBError)
  | os (message : String)
  | context (text : String) (cause : Failure)

/-- What the handle of a task gives. -/
inductive Exit where
  | returned (r : Except Failure Unit)
  | panicked (message : String)

/-- `claw_sync::SyncConfig`. -/
structure SyncEngineConfig where
  workspaceId : Uuid
  deviceId : Uuid
  hubEndpoint : String
  dataDir : PathBuf
  dbPath : PathBuf
  tlsEnabled : Bool
  connectTimeoutSecs : Nat
  requestTimeoutSecs : Nat
  syncIntervalSecs : Nat
  heartbeatIntervalSecs : Nat
  maxRetries : Nat := 5
  retryBaseMs : Nat := 500
  maxDeltaRows : Nat
  maxChunkBytes : Nat
  maxPullChunks : Nat
  maxPushInflight : Nat

/-- What `ClawDB::new` has to bring up, with what it hands over. -/
inductive Part where
  | coreConfig (config : CoreConfig)
  | coreEngine
  | migration
  | table (name : String)
  | vectorConfig (config : VectorConfig) (workspaceId : Uuid)
  | vectorEngine
  | memoriesCollection (workspaceId : Uuid) (dimensions : Nat)
  | branchConfig (config : BranchConfig) (workspaceId : Uuid)
  | branchEngine (dbPath : PathBuf)
  | gcScheduler
  | syncEngine (config : SyncEngineConfig)
  | guard (config : GuardConfig)
  | reflectClient (baseUrl apiKey : String)

/-- What an error of the component becomes; a context hides the text below it. -/
def Part.error : Part → String → ClawDBError
  | coreConfig _ | coreEngine | migration => .core
  | table _ => .componentInit "core"
  | vectorConfig .. => .vector
  | vectorEngine => .componentInit "vector"
  | memoriesCollection .. => fun _ =>
      .componentInit "vector" "failed to create default memories collection"
  | branchConfig .. | gcScheduler => .branch
  | branchEngine _ => .componentInit "branch"
  | syncEngine _ => .componentInit "sync"
  | guard _ => .componentInit "guard"
  | reflectClient .. => .componentInit "reflect"

/-- What `rcgen` generates. -/
structure Certificate where
  pem : Except String String
  privateKeyPem : String

/-- What `main` waits for: the outcome of `wait_for_signal`, or the end of a task. -/
inductive Wake where
  | signal (r : Except Failure Unit)
  | exited (t : Task) (exit : Exit)

inductive Op where
  | bring (part : Part)
  | listCollections (workspaceId : Uuid)
  | loadPlugins (dir : PathBuf)
  | createDirAll (dir : PathBuf)
  | generateSimpleSelfSigned (names : List String)
  | write (file : PathBuf) (contents : String)
  | bind (t : Task) (port : Nat)
  | localAddr (t : Task)
  | spawn (t : Task)
  | select
  | cancel
  /-- `await` of a task's handle, inside a `timeout` of so many seconds -/
  | join (t : Task) (grace : Nat)
  | shutdownBranch
  | closeSync

@[reducible] def Op.Ret : Op → Type
  | .bring _ => Except String Unit
  | .listCollections _ => Except String (List String)
  | .loadPlugins _ => Unit
  | .createDirAll _ => Except String Unit
  | .generateSimpleSelfSigned _ => Except String Certificate
  | .write .. => Except String Unit
  | .bind .. => Except String Unit
  | .localAddr _ => Except String Unit
  | .spawn _ => Unit
  | .select => Wake
  | .cancel => Unit
  | .join .. => Option Exit
  | .shutdownBranch => Except String Unit
  | .closeSync => Except String Unit

@[reducible] def Sig : Effect.Sig := ⟨Op, Op.Ret⟩

abbrev Boot := Try Sig Failure

def ask (o : Op) : Prog Sig o.Ret := Prog.perform (F := Sig) o

/-! ## The engine -/

def coreParts (config : ClawDBConfig) : List Part :=
  [.coreConfig config.core, .coreEngine, .migration, .table "memory_records",
    .table "tool_outputs"]

def vectorParts (config : ClawDBConfig) : List Part :=
  [.vectorConfig config.vector config.workspaceId, .vectorEngine]

def syncEngineConfig (config : ClawDBConfig) : SyncEngineConfig where
  workspaceId := config.workspaceId
  deviceId := config.agentId
  hubEndpoint := config.sync.hubUrl.getD "http://127.0.0.1:50051"
  dataDir := config.sync.dataDir
  dbPath := config.sync.dbPath
  tlsEnabled := config.sync.tlsEnabled
  connectTimeoutSecs := config.sync.connectTimeoutSecs
  requestTimeoutSecs := config.sync.requestTimeoutSecs
  syncIntervalSecs := config.sync.syncIntervalSecs
  heartbeatIntervalSecs := max config.sync.syncIntervalSecs 1
  maxDeltaRows := config.sync.maxDeltaRows
  maxChunkBytes := config.sync.maxChunkBytes
  maxPullChunks := config.sync.maxPullChunks
  maxPushInflight := config.sync.maxPushInflight

/-- The client is there if both of its settings are. -/
def reflectParts (config : ClawDBConfig) : List Part :=
  match config.reflect.baseUrl, config.reflect.apiKey with
  | some baseUrl, some apiKey => [.reflectClient baseUrl apiKey]
  | _, _ => []

def otherParts (config : ClawDBConfig) : List Part :=
  [.branchConfig config.branch config.workspaceId, .branchEngine config.core.dbPath,
    .gcScheduler, .syncEngine (syncEngineConfig config), .guard config.guard] ++
  reflectParts config

def bring (part : Part) : Try Sig ClawDBError Unit := Try.of (ask (.bring part)) part.error

def ensureVectorCollection (config : ClawDBConfig) : Try Sig ClawDBError Unit := do
  let existing ← Try.of (ask (.listCollections config.workspaceId)) .vector
  if existing.contains "memories" then pure ()
  else bring (.memoriesCollection config.workspaceId config.vector.defaultDimensions)

def newVector (config : ClawDBConfig) : Try Sig ClawDBError Unit :=
  if config.vector.enabled then do
    Try.each bring (vectorParts config)
    ensureVectorCollection config
  else pure ()

/-- `ClawDB::new`; what `load_from_dir` returns is thrown away. -/
def new (config : ClawDBConfig) : Try Sig ClawDBError ClawDBEngine := do
  Try.each bring (coreParts config)
  newVector config
  Try.each bring (otherParts config)
  Try.lift (ask (.loadPlugins config.plugins.pluginsDir))
  pure ⟨config.workspaceId, config.vector.enabled, !(reflectParts config).isEmpty,
    config.sync.hubUrl.isNone⟩

/-- `ClawDB::close`; an error of the branch engine leaves the sync engine open. -/
def close : Try Sig ClawDBError Unit := do
  Try.of (ask .shutdownBranch) .branch
  Try.of (ask .closeSync) .sync

/-! ## The servers -/

def buildState (config : ClawDBConfig) : Boot ClawDBEngine :=
  Try.of (new config).run fun e => .context "failed to initialize ClawDB" (.db e)

def bindPort (at_ : Task × Nat) : Boot Unit :=
  Try.of (ask (.bind at_.1 at_.2)) fun e =>
    .context ("failed to bind " ++ at_.1.name ++ " listener") (.os e)

def address (t : Task) : Boot Unit :=
  Try.of (ask (.localAddr t)) fun e =>
    .context ("missing " ++ t.name ++ " local address") (.os e)

/-- The listeners are bound, then their addresses are read, then the tasks are spawned. -/
def spawnServers (ports : List (Task × Nat)) : Boot Unit := do
  Try.each bindPort ports
  Try.each address tasks
  Try.each (fun t => Try.lift (ask (.spawn t))) tasks

/-- Why the joining of the tasks was given up: their time was over, or a task had panicked. -/
abbrev Cut := Option Failure

def joinResult (t : Task) : Option Exit → Except Cut (Except Failure Unit)
  | none => .error none
  | some (.panicked message) =>
      .error (some (.context (t.name ++ " task join failed") (.os message)))
  | some (.returned r) => .ok r

def joinTask (grace : Nat) (t : Task) : Try Sig Cut (Except Failure Unit) :=
  ExceptT.mk (joinResult t <$> ask (.join t grace))

/-- The errors that the tasks returned are looked at when all three are joined. -/
def joinAll (grace : Nat) : Try Sig Cut Unit := do
  let grpc ← joinTask grace .grpc
  let http ← joinTask grace .http
  let metrics ← joinTask grace .metrics
  Try.of (.pure (do grpc; http; metrics)) some

/-- The engine is closed however the joining went. -/
def shutdown (grace : Nat) : Boot Unit := do
  Try.lift (ask .cancel)
  let joined ← Try.lift (joinAll grace).run
  Try.of close.run fun e => .context "failed to close clawdb" (.db e)
  match joined with
  | .error none =>
      throw (.context "timed out waiting for server tasks" (.os "deadline has elapsed"))
  | .error (some e) => throw e
  | .ok () => pure ()

def taskExit (t : Task) : Exit → Except Failure Unit
  | .returned (.ok ()) => .ok ()
  | .returned (.error e) => .error (.context (t.name ++ " server task failed") e)
  | .panicked message => .error (.context (t.name ++ " server task panicked") (.os message))

/-! ## The process -/

/-- The flags of `clawdb-server`, as `clap` reads them. -/
structure ServerArgs extends Args where
  grpcPort : Option Nat
  httpPort : Option Nat
  metricsPort : Option Nat
  generateSelfSignedCert : Bool

def ports (args : ServerArgs) (config : ClawDBConfig) : List (Task × Nat) :=
  [(.grpc, args.grpcPort.getD config.server.grpcPort),
    (.http, args.httpPort.getD config.server.httpPort),
    (.metrics, args.metricsPort.getD config.telemetry.metricsPort)]

/-- The files of the certificate and of its key. -/
def certFiles (config : ClawDBConfig) : List PathBuf :=
  let tlsDir := join config.dataDir (path "tls")
  [join tlsDir (path "server.crt"), join tlsDir (path "server.key")]

def generateSelfSignedCert (config : ClawDBConfig) : Boot Unit := do
  let tlsDir := join config.dataDir (path "tls")
  Try.of (ask (.createDirAll tlsDir)) fun e => .context "failed to create tls directory" (.os e)
  let cert ← Try.of (ask (.generateSimpleSelfSigned ["localhost"])) fun e =>
    .context "failed to generate self-signed certificate" (.os e)
  let pem ← Try.of (.pure cert.pem) fun e => .context "failed to serialize certificate" (.os e)
  Try.of (ask (.write (join tlsDir (path "server.crt")) pem)) fun e =>
    .context "failed to write self-signed certificate" (.os e)
  Try.of (ask (.write (join tlsDir (path "server.key")) cert.privateKeyPem)) fun e =>
    .context "failed to write self-signed key" (.os e)

/-- What follows `spawn_servers`: a signal that cannot be waited for is as good as one. -/
def serve : Boot Unit := do
  match ← Try.lift (ask .select) with
  | .signal _ => shutdown 30
  | .exited t exit => Try.of (.pure (taskExit t exit)) id

variable [ConfigCrates]

/-- `load_config`, with the context `main` reads in its errors. -/
def loaded (env : Env) (args : ServerArgs) : Except Failure ClawDBConfig :=
  (loadConfig env args.toArgs).mapError fun e =>
    .context (if args.config.isSome then "failed to load config file"
      else "failed to load environment configuration") (.db e)

/-- The certificate is for the directory that was configured; the ports are of no interest. -/
def main (env : Env) (args : ServerArgs) : Boot Unit := do
  let config ← Try.of (.pure (loaded env args)) id
  if args.generateSelfSignedCert then
    generateSelfSignedCert config
  else
    let _ ← buildState config
    spawnServers (ports args config)
    serve

/-! ## The host -/

/-- A task: it is not there yet, it serves, or it has ended. -/
inductive Phase where
  | idle
  | serving
  | ended (exit : Exit)

structure Host where
  /-- the parts that came up, in order -/
  opened : List Part := []
  /-- the files that were written -/
  written : List PathBuf := []
  bound : List (Task × Nat) := []
  phase : Task → Phase := fun _ => .idle
  /-- the tasks were told to stop -/
  cancelled : Bool := false
  /-- the time they were given is over -/
  elapsed : Bool := false
  /-- the engine is being closed -/
  closing : Bool := false
  branchDown : Bool := false
  syncDown : Bool := false

/-- What an operation that may fail does to the host. -/
def onOk {ε α : Type} (s s₁ : Host) : Except ε α → Host → Prop
  | .ok _, s' => s' = s₁
  | .error _, s' => s' = s

def Op.sem (s : Host) : (o : Op) → o.Ret → Host → Prop
  | .bring part => onOk s { s with opened := s.opened ++ [part] }
  | .write file _ => onOk s { s with written := s.written ++ [file] }
  | .bind t port => onOk s { s with bound := s.bound ++ [(t, port)] }
  | .spawn t => fun _ s' => s' = { s with phase := Function.update s.phase t .serving }
  | .select => fun wake s' => s' = s ∧
      ∀ t exit, wake = .exited t exit → s.phase t = .ended exit
  | .cancel => fun _ s' => s' = { s with cancelled := true }
  | .join t _ => fun r s' =>
      match r with
      | none => s' = { s with elapsed := true }
      | some exit => s' = s ∧ s.phase t = .ended exit
  | .shutdownBranch => fun r s' => s' = { s with closing := true, branchDown := r.isOk }
  | .closeSync => fun r s' => s' = { s with syncDown := r.isOk }
  | _ => fun _ s' => s' = s

def sem : Prog.Rel Sig Host := fun o s r s' => o.sem s r s'

/-- How the server of a task may end, when it was told to stop and when it was not. -/
abbrev Servers := Task → Bool → Exit → Prop

/-- A graceful shutdown: a server does not return without an error before it is told to stop. -/
def Servers.Graceful (servers : Servers) : Prop := ∀ t, ¬servers t false (.returned (.ok ()))

variable (servers : Servers)

/-- What happens beside `main`: one of the tasks ends. -/
def Meanwhile (s s' : Host) : Prop :=
  ∃ t exit, s.phase t = .serving ∧ servers t s.cancelled exit ∧
    s' = { s with phase := Function.update s.phase t (.ended exit) }

/-- A moment of the process. -/
abbrev Running (env : Env) (args : ServerArgs) : Prog Sig (Except Failure Unit) → Host → Prop :=
  Prog.Amidst sem (Meanwhile servers) (· = {}) (main env args).run

end ClawDB.Process
