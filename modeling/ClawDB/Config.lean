/-
# `ClawDB.Config` — where a configuration comes from

`clawdb/src/config.rs` with the entry points that build a configuration for `ClawDB::new`:
`open_default`, `open` and `clawdb-server`'s `load_config`.

A process sees its environment variables, its home directory and its files.  What a TOML text
sets is told by the `toml` crate; that a key it does not set takes its value from the
container's `Default` is `#[serde(default)]`, and written out here.
-/
import ClawDB.Types
import ClawDB.Lib.Path

namespace ClawDB

open Unix

/-! ## Configurations -/

structure CoreConfig where
  dbPath : PathBuf
  maxConnections : Nat
  walEnabled : Bool
  cacheSizeMb : Nat

structure VectorConfig where
  enabled : Bool
  dbPath : PathBuf
  indexDir : PathBuf
  embeddingServiceUrl : String
  defaultDimensions : Nat

structure BranchConfig where
  branchesDir : PathBuf
  registryDbPath : PathBuf
  maxBranchesPerWorkspace : Nat
  gcIntervalSecs : Nat
  trunkBranchName : String

structure SyncConfig where
  hubUrl : Option String
  dataDir : PathBuf
  dbPath : PathBuf
  syncIntervalSecs : Nat
  tlsEnabled : Bool
  connectTimeoutSecs : Nat
  requestTimeoutSecs : Nat
  maxDeltaRows : Nat
  maxChunkBytes : Nat
  maxPullChunks : Nat
  maxPushInflight : Nat

structure GuardConfig where
  dbPath : String
  jwtSecret : String
  policyDir : PathBuf
  sensitiveResources : List String
  auditFlushIntervalMs : Nat
  auditBatchSize : Nat
  tlsCertPath : PathBuf
  tlsKeyPath : PathBuf

structure ReflectConfig where
  baseUrl : Option String
  apiKey : Option String

structure ServerConfig where
  grpcPort : Nat
  httpPort : Nat

structure PluginsConfig where
  pluginsDir : PathBuf
  enabled : List String
  sandboxEnabled : Bool

structure TelemetryConfig where
  metricsPort : Nat
  otelEndpoint : Option String
  serviceName : String

structure ClawDBConfig where
  dataDir : PathBuf
  workspaceId : Uuid
  agentId : Uuid
  logLevel : String
  logFormat : String
  core : CoreConfig
  vector : VectorConfig
  branch : BranchConfig
  sync : SyncConfig
  guard : GuardConfig
  reflect : ReflectConfig
  server : ServerConfig
  plugins : PluginsConfig
  telemetry : TelemetryConfig

/-! ## What a file sets -/

structure CoreToml where
  dbPath : Option PathBuf := none
  maxConnections : Option Nat := none
  walEnabled : Option Bool := none
  cacheSizeMb : Option Nat := none

structure VectorToml where
  enabled : Option Bool := none
  dbPath : Option PathBuf := none
  indexDir : Option PathBuf := none
  embeddingServiceUrl : Option String := none
  defaultDimensions : Option Nat := none

structure BranchToml where
  branchesDir : Option PathBuf := none
  registryDbPath : Option PathBuf := none
  maxBranchesPerWorkspace : Option Nat := none
  gcIntervalSecs : Option Nat := none
  trunkBranchName : Option String := none

structure SyncToml where
  hubUrl : Option String := none
  dataDir : Option PathBuf := none
  dbPath : Option PathBuf := none
  syncIntervalSecs : Option Nat := none
  tlsEnabled : Option Bool := none
  connectTimeoutSecs : Option Nat := none
  requestTimeoutSecs : Option Nat := none
  maxDeltaRows : Option Nat := none
  maxChunkBytes : Option Nat := none
  maxPullChunks : Option Nat := none
  maxPushInflight : Option Nat := none

structure GuardToml where
  dbPath : Option String := none
  jwtSecret : Option String := none
  policyDir : Option PathBuf := none
  sensitiveResources : Option (List String) := none
  auditFlushIntervalMs : Option Nat := none
  auditBatchSize : Option Nat := none
  tlsCertPath : Option PathBuf := none
  tlsKeyPath : Option PathBuf := none

/-- `base_url`, also read from `service_url`. -/
structure ReflectToml where
  baseUrl : Option String := none
  apiKey : Option String := none

structure ServerToml where
  grpcPort : Option Nat := none
  httpPort : Option Nat := none

structure PluginsToml where
  pluginsDir : Option PathBuf := none
  enabled : Option (List String) := none
  sandboxEnabled : Option Bool := none

structure TelemetryToml where
  metricsPort : Option Nat := none
  otelEndpoint : Option String := none
  serviceName : Option String := none

structure ClawDBToml where
  dataDir : Option PathBuf := none
  workspaceId : Option Uuid := none
  agentId : Option Uuid := none
  logLevel : Option String := none
  logFormat : Option String := none
  core : Option CoreToml := none
  vector : Option VectorToml := none
  branch : Option BranchToml := none
  sync : Option SyncToml := none
  guard : Option GuardToml := none
  reflect : Option ReflectToml := none
  server : Option ServerToml := none
  plugins : Option PluginsToml := none
  telemetry : Option TelemetryToml := none

/-- The functions of other crates that loading calls. -/
class ConfigCrates where
  /-- `Uuid::parse_str`, or the text of its error -/
  parseStr : String → Except String Uuid
  /-- `Uuid::new_v5(&Uuid::NAMESPACE_DNS, ..)` -/
  newV5 : String → Uuid
  /-- `toml::from_str`: what the text sets, or the text of the error -/
  fromStr : String → Except String ClawDBToml

/-- One set of these functions: of UUIDs it reads none, of TOML texts only the empty one. -/
@[reducible] def ConfigCrates.sample : ConfigCrates where
  parseStr _ := .error "invalid character"
  newV5 _ := (0 : Nat)
  fromStr raw := if raw = "" then .ok {} else .error "unexpected content"

/-- What a process finds around it. -/
structure Env where
  /-- `std::env::var_os` -/
  varOs : String → Option OsString
  /-- `dirs::home_dir` -/
  homeDir : Option PathBuf
  /-- `Path::exists` -/
  pathExists : PathBuf → Bool
  /-- `std::fs::read_to_string`, or the text of its error -/
  readToString : PathBuf → Except String String

/-- `std::env::var`: a variable that is not Unicode is as good as unset. -/
def Env.var (env : Env) (name : String) : Option String := (env.varOs name).bind toStr

/-! ## Defaults -/

section Loading

variable [ConfigCrates]

def hostIdentity (env : Env) : String :=
  ((env.var "HOSTNAME").or ((env.var "HOST").or (env.var "USER"))).getD "clawdb-local"

/-- `ClawDBConfig::default_for_dir` -/
def defaultForDir (env : Env) (dataDir : PathBuf) : ClawDBConfig where
  dataDir := dataDir
  workspaceId := ConfigCrates.newV5 (hostIdentity env)
  agentId := ConfigCrates.newV5 (hostIdentity env ++ ":agent")
  logLevel := "info"
  logFormat := "json"
  core := {
    dbPath := join dataDir (path "claw.db")
    maxConnections := 10
    walEnabled := true
    cacheSizeMb := 64 }
  vector := {
    enabled := true
    dbPath := join dataDir (path "claw_vector.db")
    indexDir := join dataDir (path "claw_vector_indices")
    embeddingServiceUrl := "http://localhost:50051"
    defaultDimensions := 384 }
  branch := {
    branchesDir := join dataDir (path "branches")
    registryDbPath := join (join dataDir (path "branches")) (path "branch_registry.db")
    maxBranchesPerWorkspace := 50
    gcIntervalSecs := 3600
    trunkBranchName := "trunk" }
  sync := {
    hubUrl := none
    dataDir := join dataDir (path "sync")
    dbPath := join dataDir (path "claw.db")
    syncIntervalSecs := 30
    tlsEnabled := false
    connectTimeoutSecs := 10
    requestTimeoutSecs := 30
    maxDeltaRows := 1000
    maxChunkBytes := 64 * 1024
    maxPullChunks := 128
    maxPushInflight := 4 }
  guard := {
    dbPath := display (join dataDir (path "claw_guard.db"))
    jwtSecret := "change-me"
    policyDir := join dataDir (path "policies")
    sensitiveResources := ["memory", "branch"]
    auditFlushIntervalMs := 100
    auditBatchSize := 500
    tlsCertPath := join (join dataDir (path "certs")) (path "server.crt")
    tlsKeyPath := join (join dataDir (path "certs")) (path "server.key") }
  reflect := {
    baseUrl := none
    apiKey := none }
  server := {
    grpcPort := 50050
    httpPort := 8080 }
  plugins := {
    pluginsDir := join dataDir (path "plugins")
    enabled := []
    sandboxEnabled := true }
  telemetry := {
    metricsPort := 9090
    otelEndpoint := none
    serviceName := "clawdb" }

/-- `~/.clawdb` -/
def Env.defaultDir (env : Env) : PathBuf := join (env.homeDir.getD (path ".")) (path ".clawdb")

/-- `Default for ClawDBConfig`; the sections' defaults are its sections. -/
def ClawDBConfig.default (env : Env) : ClawDBConfig := defaultForDir env env.defaultDir

/-! ## Reading a file -/

def CoreToml.orDefault (given : CoreToml) (default : CoreConfig) : CoreConfig where
  dbPath := given.dbPath.getD default.dbPath
  maxConnections := given.maxConnections.getD default.maxConnections
  walEnabled := given.walEnabled.getD default.walEnabled
  cacheSizeMb := given.cacheSizeMb.getD default.cacheSizeMb

def VectorToml.orDefault (given : VectorToml) (default : VectorConfig) : VectorConfig where
  enabled := given.enabled.getD default.enabled
  dbPath := given.dbPath.getD default.dbPath
  indexDir := given.indexDir.getD default.indexDir
  embeddingServiceUrl := given.embeddingServiceUrl.getD default.embeddingServiceUrl
  defaultDimensions := given.defaultDimensions.getD default.defaultDimensions

def BranchToml.orDefault (given : BranchToml) (default : BranchConfig) : BranchConfig where
  branchesDir := given.branchesDir.getD default.branchesDir
  registryDbPath := given.registryDbPath.getD default.registryDbPath
  maxBranchesPerWorkspace :=
    given.maxBranchesPerWorkspace.getD default.maxBranchesPerWorkspace
  gcIntervalSecs := given.gcIntervalSecs.getD default.gcIntervalSecs
  trunkBranchName := given.trunkBranchName.getD default.trunkBranchName

def SyncToml.orDefault (given : SyncToml) (default : SyncConfig) : SyncConfig where
  hubUrl := given.hubUrl.or default.hubUrl
  dataDir := given.dataDir.getD default.dataDir
  dbPath := given.dbPath.getD default.dbPath
  syncIntervalSecs := given.syncIntervalSecs.getD default.syncIntervalSecs
  tlsEnabled := given.tlsEnabled.getD default.tlsEnabled
  connectTimeoutSecs := given.connectTimeoutSecs.getD default.connectTimeoutSecs
  requestTimeoutSecs := given.requestTimeoutSecs.getD default.requestTimeoutSecs
  maxDeltaRows := given.maxDeltaRows.getD default.maxDeltaRows
  maxChunkBytes := given.maxChunkBytes.getD default.maxChunkBytes
  maxPullChunks := given.maxPullChunks.getD default.maxPullChunks
  maxPushInflight := given.maxPushInflight.getD default.maxPushInflight

def GuardToml.orDefault (given : GuardToml) (default : GuardConfig) : GuardConfig where
  dbPath := given.dbPath.getD default.dbPath
  jwtSecret := given.jwtSecret.getD default.jwtSecret
  policyDir := given.policyDir.getD default.policyDir
  sensitiveResources := given.sensitiveResources.getD default.sensitiveResources
  auditFlushIntervalMs := given.auditFlushIntervalMs.getD default.auditFlushIntervalMs
  auditBatchSize := given.auditBatchSize.getD default.auditBatchSize
  tlsCertPath := given.tlsCertPath.getD default.tlsCertPath
  tlsKeyPath := given.tlsKeyPath.getD default.tlsKeyPath

def ReflectToml.orDefault (given : ReflectToml) (default : ReflectConfig) : ReflectConfig where
  baseUrl := given.baseUrl.or default.baseUrl
  apiKey := given.apiKey.or default.apiKey

def ServerToml.orDefault (given : ServerToml) (default : ServerConfig) : ServerConfig where
  grpcPort := given.grpcPort.getD default.grpcPort
  httpPort := given.httpPort.getD default.httpPort

def PluginsToml.orDefault (given : PluginsToml) (default : PluginsConfig) : PluginsConfig where
  pluginsDir := given.pluginsDir.getD default.pluginsDir
  enabled := given.enabled.getD default.enabled
  sandboxEnabled := given.sandboxEnabled.getD default.sandboxEnabled

def TelemetryToml.orDefault (given : TelemetryToml) (default : TelemetryConfig) :
    TelemetryConfig where
  metricsPort := given.metricsPort.getD default.metricsPort
  otelEndpoint := given.otelEndpoint.or default.otelEndpoint
  serviceName := given.serviceName.getD default.serviceName

/-- A section that is left out is the default one; one that is there is filled up from the
default of its own type, which is the same. -/
def ClawDBToml.orDefault (given : ClawDBToml) (default : ClawDBConfig) : ClawDBConfig where
  dataDir := given.dataDir.getD default.dataDir
  workspaceId := given.workspaceId.getD default.workspaceId
  agentId := given.agentId.getD default.agentId
  logLevel := given.logLevel.getD default.logLevel
  logFormat := given.logFormat.getD default.logFormat
  core := given.core.elim default.core (·.orDefault default.core)
  vector := given.vector.elim default.vector (·.orDefault default.vector)
  branch := given.branch.elim default.branch (·.orDefault default.branch)
  sync := given.sync.elim default.sync (·.orDefault default.sync)
  guard := given.guard.elim default.guard (·.orDefault default.guard)
  reflect := given.reflect.elim default.reflect (·.orDefault default.reflect)
  server := given.server.elim default.server (·.orDefault default.server)
  plugins := given.plugins.elim default.plugins (·.orDefault default.plugins)
  telemetry := given.telemetry.elim default.telemetry (·.orDefault default.telemetry)

/-- `read_to_string` and `toml::from_str`. -/
def readFile (env : Env) (path : PathBuf) : Except ClawDBError ClawDBConfig := do
  let raw ← (env.readToString path).mapError .io
  let given ← (ConfigCrates.fromStr raw).mapError .config
  pure (given.orDefault (.default env))

/-! ## Overrides -/

def parseUuid (value name : String) : Except ClawDBError Uuid :=
  (ConfigCrates.parseStr value).mapError fun error =>
    .config ("invalid " ++ name ++ ": " ++ error)

def parseBool (value : String) : Except ClawDBError Bool :=
  match Text.toAsciiLowercase (Text.trim value) with
  | "1" | "true" | "yes" | "on" => .ok true
  | "0" | "false" | "no" | "off" => .ok false
  | _ => .error (.config ("invalid boolean: " ++ value))

/-- `if let Ok(value) = std::env::var(name) { .. }` -/
def Env.override (env : Env) (name : String)
    (set : String → ClawDBConfig → Except ClawDBError ClawDBConfig) (config : ClawDBConfig) :
    Except ClawDBError ClawDBConfig :=
  match env.var name with
  | some value => set value config
  | none => .ok config

def applyEnvOverrides (env : Env) (config : ClawDBConfig) :
    Except ClawDBError ClawDBConfig := do
  let config ← env.override "CLAW_DATA_DIR"
    (fun value config => pure { config with dataDir := path value }) config
  let config ← env.override "CLAW_WORKSPACE_ID" (fun value config => do
    let workspaceId ← parseUuid value "CLAW_WORKSPACE_ID"
    pure { config with workspaceId := workspaceId }) config
  let config ← env.override "CLAW_AGENT_ID" (fun value config => do
    let agentId ← parseUuid value "CLAW_AGENT_ID"
    pure { config with agentId := agentId }) config
  let config ← env.override "CLAW_LOG_LEVEL"
    (fun value config => pure { config with logLevel := value }) config
  let config ← env.override "CLAW_LOG_FORMAT"
    (fun value config => pure { config with logFormat := value }) config
  let config ← env.override "CLAW_VECTOR_BASE_URL" (fun value config =>
    pure { config with vector := { config.vector with embeddingServiceUrl := value } }) config
  let config ← env.override "CLAW_VECTOR_ENABLED" (fun value config => do
    let enabled ← parseBool value
    pure { config with vector := { config.vector with enabled := enabled } }) config
  let config ← env.override "CLAW_SYNC_HUB_URL" (fun value config =>
    pure { config with sync := { config.sync with hubUrl := some value } }) config
  let config ← env.override "CLAW_GUARD_JWT_SECRET" (fun value config =>
    pure { config with guard := { config.guard with jwtSecret := value } }) config
  let config ← env.override "CLAW_GUARD_POLICY_DIR" (fun value config =>
    pure { config with guard := { config.guard with policyDir := path value } }) config
  let config ← env.override "CLAW_REFLECT_BASE_URL" (fun value config =>
    pure { config with reflect := { config.reflect with baseUrl := some value } }) config
  env.override "CLAW_REFLECT_API_KEY" (fun value config =>
    pure { config with reflect := { config.reflect with apiKey := some value } }) config

/-! ## Entry points -/

def secretRequired : ClawDBError := .config "CLAW_GUARD_JWT_SECRET is required"

/-- The directory `from_env` takes the defaults from. -/
def Env.dataDir (env : Env) : PathBuf := ((env.var "CLAW_DATA_DIR").map path).getD env.defaultDir

/-- `ClawDBConfig::from_env` -/
def fromEnv (env : Env) : Except ClawDBError ClawDBConfig := do
  let config ← applyEnvOverrides env (defaultForDir env env.dataDir)
  if env.var "CLAW_GUARD_JWT_SECRET" = none ∧ config.guard.jwtSecret = "change-me" then
    .error secretRequired
  else
    pure config

/-- `path.parent().unwrap_or_else(|| Path::new("."))` -/
def parentDir (file : PathBuf) : PathBuf := (parent file).getD (path ".")

/-- `ClawDBConfig::from_file` -/
def fromFile (env : Env) (file : PathBuf) : Except ClawDBError ClawDBConfig := do
  let config ← readFile env file
  let config := if config.dataDir = [] then { config with dataDir := parentDir file } else config
  let config ← applyEnvOverrides env config
  if Text.trim config.guard.jwtSecret = "" ∨ config.guard.jwtSecret = "change-me" then
    .error secretRequired
  else
    pure config

def configToml (dataDir : PathBuf) : PathBuf := join dataDir (path "config.toml")

/-- `ClawDBConfig::load_or_default` -/
def loadOrDefault (env : Env) (dataDir : PathBuf) : Except ClawDBError ClawDBConfig :=
  if env.pathExists (configToml dataDir) then fromFile env (configToml dataDir)
  else pure (defaultForDir env dataDir)

/-- What `ClawDB::open_default` opens. -/
def openDefault (env : Env) : Except ClawDBError ClawDBConfig := fromEnv env

/-- What `ClawDB::open` opens. -/
def openDir (env : Env) (dataDir : PathBuf) : Except ClawDBError ClawDBConfig := do
  let config ← loadOrDefault env dataDir
  pure { config with dataDir := dataDir }

/-- The arguments of `clawdb-server` that `load_config` reads. -/
structure Args where
  config : Option PathBuf
  dataDir : Option PathBuf

/-- What `clap` makes of the flags: `--data-dir` falls back to `CLAW_DATA_DIR`, and a path is
not empty. -/
def Args.parse (env : Env) (config dataDir : Option PathBuf) : Option Args :=
  let dataDir := dataDir.or (env.varOs "CLAW_DATA_DIR")
  if config = some [] ∨ dataDir = some [] then none else some ⟨config, dataDir⟩

/-- `load_config`; the context that is put around an error is left out. -/
def loadConfig (env : Env) (args : Args) : Except ClawDBError ClawDBConfig := do
  let config ← match args.config with
    | some file => fromFile env file
    | none => fromEnv env
  match args.dataDir with
  | some dataDir => pure { config with dataDir := dataDir }
  | none => pure config

/-- The ways to a configuration; the server's flags are those given on the command line. -/
inductive Loader where
  | fromEnv
  | fromFile (file : PathBuf)
  | loadOrDefault (dataDir : PathBuf)
  | openDefault
  | openDir (dataDir : PathBuf)
  | server (config dataDir : Option PathBuf)

/-- The configuration that is loaded, if one is. -/
def Loader.load (env : Env) : Loader → Option ClawDBConfig
  | .fromEnv => (ClawDB.fromEnv env).toOption
  | .fromFile file => (ClawDB.fromFile env file).toOption
  | .loadOrDefault dataDir => (ClawDB.loadOrDefault env dataDir).toOption
  | .openDefault => (ClawDB.openDefault env).toOption
  | .openDir dataDir => (ClawDB.openDir env dataDir).toOption
  | .server config dataDir =>
      (Args.parse env config dataDir).bind fun args => (loadConfig env args).toOption

end Loading

end ClawDB
