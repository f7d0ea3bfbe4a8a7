/-
# `ClawDB.ConfigFile` — a configuration that is saved, and loaded again

`ClawDBConfig::save` and `load` of `clawdb/src/config.rs`, with what `derive` makes of the
structs: how each field is written and read.  The text of a table is the `toml` crate's.

What is written of a configuration does not depend on where it is read: a field that is `None`
is not written, and the defaults have `None` there too, on any host.  So whatever was saved is
loaded as it was (`saved_config`).  A path that is not UTF-8, and an integer above that of an
`i64`, cannot be saved; nothing is written then.
-/
import ClawDB.Cli.Config
import ClawDB.Loading
import ClawDB.Lib.Trace

namespace ClawDB

open Unix Effect Prog
open Cli (TomlCrate)
open Toml (Codec Field)

/-! ## What `derive` makes of the structs -/

def pathCodec : Codec PathBuf where
  Valid _ := True
  write p := (Cli.pathText p).map .string
  read := Cli.pathValue
  back p v _ h := by
    unfold Cli.pathText at h
    cases hs : toStr p with
    | none => rw [hs] at h; cases h
    | some s =>
        rw [hs] at h
        obtain rfl := Except.ok.inj h
        exact congrArg Except.ok (path_toStr hs)

@[simp] theorem valid_pathCodec (p : PathBuf) : pathCodec.Valid p := trivial

section Derived

variable [Crates] [TomlCrate]

/-- An identifier comes back if it is read as it is written. -/
def uuidCodec : Codec Uuid where
  Valid id := TomlCrate.uuid (.string (Crates.uuidToString id)) = .ok id
  write id := .ok (.string (Crates.uuidToString id))
  read := TomlCrate.uuid
  back id v hvalid h := by
    obtain rfl := Except.ok.inj h
    exact hvalid

def u16Codec : Codec Nat := .unsigned 65536

def u32Codec : Codec Nat := .unsigned 4294967296

/-- `u64`, and `usize` on a 64-bit host. -/
def u64Codec : Codec Nat := .unsigned 18446744073709551616

def coreFields : List (Field CoreConfig CoreToml) :=
  [.plain "db_path" pathCodec (·.dbPath) fun v t => { t with dbPath := some v },
    .plain "max_connections" u32Codec (·.maxConnections)
      fun v t => { t with maxConnections := some v },
    .plain "wal_enabled" .bool (·.walEnabled) fun v t => { t with walEnabled := some v },
    .plain "cache_size_mb" u64Codec (·.cacheSizeMb) fun v t => { t with cacheSizeMb := some v }]

def vectorFields : List (Field VectorConfig VectorToml) :=
  [.plain "enabled" .bool (·.enabled) fun v t => { t with enabled := some v },
    .plain "db_path" pathCodec (·.dbPath) fun v t => { t with dbPath := some v },
    .plain "index_dir" pathCodec (·.indexDir) fun v t => { t with indexDir := some v },
    .plain "embedding_service_url" .text (·.embeddingServiceUrl)
      fun v t => { t with embeddingServiceUrl := some v },
    .plain "default_dimensions" u64Codec (·.defaultDimensions)
      fun v t => { t with defaultDimensions := some v }]

def branchFields : List (Field BranchConfig BranchToml) :=
  [.plain "branches_dir" pathCodec (·.branchesDir) fun v t => { t with branchesDir := some v },
    .plain "registry_db_path" pathCodec (·.registryDbPath)
      fun v t => { t with registryDbPath := some v },
    .plain "max_branches_per_workspace" u64Codec (·.maxBranchesPerWorkspace)
      fun v t => { t with maxBranchesPerWorkspace := some v },
    .plain "gc_interval_secs" u64Codec (·.gcIntervalSecs)
      fun v t => { t with gcIntervalSecs := some v },
    .plain "trunk_branch_name" .text (·.trunkBranchName)
      fun v t => { t with trunkBranchName := some v }]

def syncFields : List (Field SyncConfig SyncToml) :=
  [.optional "hub_url" none .text (·.hubUrl) fun v t => { t with hubUrl := some v },
    .plain "data_dir" pathCodec (·.dataDir) fun v t => { t with dataDir := some v },
    .plain "db_path" pathCodec (·.dbPath) fun v t => { t with dbPath := some v },
    .plain "sync_interval_secs" u64Codec (·.syncIntervalSecs)
      fun v t => { t with syncIntervalSecs := some v },
    .plain "tls_enabled" .bool (·.tlsEnabled) fun v t => { t with tlsEnabled := some v },
    .plain "connect_timeout_secs" u64Codec (·.connectTimeoutSecs)
      fun v t => { t with connectTimeoutSecs := some v },
    .plain "request_timeout_secs" u64Codec (·.requestTimeoutSecs)
      fun v t => { t with requestTimeoutSecs := some v },
    .plain "max_delta_rows" u64Codec (·.maxDeltaRows) fun v t => { t with maxDeltaRows := some v },
    .plain "max_chunk_bytes" u64Codec (·.maxChunkBytes)
      fun v t => { t with maxChunkBytes := some v },
    .plain "max_pull_chunks" u32Codec (·.maxPullChunks)
      fun v t => { t with maxPullChunks := some v },
    .plain "max_push_inflight" u64Codec (·.maxPushInflight)
      fun v t => { t with maxPushInflight := some v }]

def guardFields : List (Field GuardConfig GuardToml) :=
  [.plain "db_path" .text (·.dbPath) fun v t => { t with dbPath := some v },
    .plain "jwt_secret" .text (·.jwtSecret) fun v t => { t with jwtSecret := some v },
    .plain "policy_dir" pathCodec (·.policyDir) fun v t => { t with policyDir := some v },
    .plain "sensitive_resources" .texts (·.sensitiveResources)
      fun v t => { t with sensitiveResources := some v },
    .plain "audit_flush_interval_ms" u64Codec (·.auditFlushIntervalMs)
      fun v t => { t with auditFlushIntervalMs := some v },
    .plain "audit_batch_size" u64Codec (·.auditBatchSize)
      fun v t => { t with auditBatchSize := some v },
    .plain "tls_cert_path" pathCodec (·.tlsCertPath) fun v t => { t with tlsCertPath := some v },
    .plain "tls_key_path" pathCodec (·.tlsKeyPath) fun v t => { t with tlsKeyPath := some v }]

def reflectFields : List (Field ReflectConfig ReflectToml) :=
  [.optional "base_url" (some "service_url") .text (·.baseUrl)
      fun v t => { t with baseUrl := some v },
    .optional "api_key" none .text (·.apiKey) fun v t => { t with apiKey := some v }]

def serverFields : List (Field ServerConfig ServerToml) :=
  [.plain "grpc_port" u16Codec (·.grpcPort) fun v t => { t with grpcPort := some v },
    .plain "http_port" u16Codec (·.httpPort) fun v t => { t with httpPort := some v }]

def pluginsFields : List (Field PluginsConfig PluginsToml) :=
  [.plain "plugins_dir" pathCodec (·.pluginsDir) fun v t => { t with pluginsDir := some v },
    .plain "enabled" .texts (·.enabled) fun v t => { t with enabled := some v },
    .plain "sandbox_enabled" .bool (·.sandboxEnabled)
      fun v t => { t with sandboxEnabled := some v }]

def telemetryFields : List (Field TelemetryConfig TelemetryToml) :=
  [.plain "metrics_port" u16Codec (·.metricsPort) fun v t => { t with metricsPort := some v },
    .optional "otel_endpoint" none .text (·.otelEndpoint)
      fun v t => { t with otelEndpoint := some v },
    .plain "service_name" .text (·.serviceName) fun v t => { t with serviceName := some v }]

open Toml.Struct (nested) in
def configFields : List (Field ClawDBConfig ClawDBToml) :=
  [.plain "data_dir" pathCodec (·.dataDir) fun v t => { t with dataDir := some v },
    .plain "workspace_id" uuidCodec (·.workspaceId) fun v t => { t with workspaceId := some v },
    .plain "agent_id" uuidCodec (·.agentId) fun v t => { t with agentId := some v },
    .plain "log_level" .text (·.logLevel) fun v t => { t with logLevel := some v },
    .plain "log_format" .text (·.logFormat) fun v t => { t with logFormat := some v },
    nested "core" coreFields (by decide) (·.core) {} fun v t => { t with core := some v },
    nested "vector" vectorFields (by decide) (·.vector) {} fun v t => { t with vector := some v },
    nested "branch" branchFields (by decide) (·.branch) {} fun v t => { t with branch := some v },
    nested "sync" syncFields (by decide) (·.sync) {} fun v t => { t with sync := some v },
    nested "guard" guardFields (by decide) (·.guard) {} fun v t => { t with guard := some v },
    nested "reflect" reflectFields (by decide) (·.reflect) {}
      fun v t => { t with reflect := some v },
    nested "server" serverFields (by decide) (·.server) {} fun v t => { t with server := some v },
    nested "plugins" pluginsFields (by decide) (·.plugins) {}
      fun v t => { t with plugins := some v },
    nested "telemetry" telemetryFields (by decide) (·.telemetry) {}
      fun v t => { t with telemetry := some v }]

theorem configFields_distinct : Toml.Struct.Distinct configFields := by
  show ["data_dir", "workspace_id", "agent_id", "log_level", "log_format", "core", "vector",
    "branch", "sync", "guard", "reflect", "server", "plugins", "telemetry"].Nodup
  decide

/-- `Deserialize for ClawDBConfig`, as far as what is given. -/
def ClawDBToml.decode (t : Toml.Table) : Except String ClawDBToml :=
  Toml.Struct.read configFields t {}

/-- `Serialize for ClawDBConfig` -/
def ClawDBConfig.encode (c : ClawDBConfig) : Except String Toml.Table :=
  Toml.Struct.write configFields c

/-- The values of its fields are ones of their types, and its identifiers come back. -/
def ClawDBConfig.WellTyped (c : ClawDBConfig) : Prop := Toml.Struct.Valid configFields c

/-- All that is written of a configuration is read again, and nothing is taken from the
defaults, which have no value for what is left out. -/
theorem orDefault_fill (env : Env) [ConfigCrates] (c : ClawDBConfig) :
    (Toml.Struct.fill configFields c {}).orDefault (.default env) = c := by
  obtain ⟨dataDir, workspaceId, agentId, logLevel, logFormat, core, vector, branch,
    ⟨hubUrl, syncDir, syncDb, interval, tls, connect, request, rows, bytes, chunks, inflight⟩,
    guard, ⟨baseUrl, apiKey⟩, server, plugins, ⟨metricsPort, otelEndpoint, serviceName⟩⟩ := c
  cases hubUrl <;> cases baseUrl <;> cases apiKey <;> cases otelEndpoint <;> rfl

end Derived

/-! ## The functions of the crates, for TOML texts -/

/-- What else of the crates loading a configuration takes. -/
class Seeds where
  /-- The text of the error of `Uuid::parse_str` -/
  parseError : String → String
  /-- `Uuid::new_v5(&Uuid::NAMESPACE_DNS, ..)` -/
  newV5 : String → Uuid

/-- `toml::from_str::<ClawDBConfig>` is the table of the text, read by what `derive` made. -/
instance [Crates] [TomlCrate] [Seeds] : ConfigCrates where
  parseStr text := match Crates.parseStr text with
    | some id => .ok id
    | none => .error (Seeds.parseError text)
  newV5 := Seeds.newV5
  fromStr raw := TomlCrate.fromStr raw >>= ClawDBToml.decode

/-! ## `save` and `load` -/

inductive FileOp where
  /-- `std::fs::create_dir_all` -/
  | createDirAll (dir : PathBuf)
  /-- `std::fs::write` -/
  | write (file : PathBuf) (raw : String)

abbrev Files : Effect.Sig := ⟨FileOp, fun _ => Except String Unit⟩

/-- What a process finds, but for the file `file`, and what there is beside files. -/
structure Env.Beside (file : PathBuf) (env env' : Env) : Prop where
  varOs : env'.varOs = env.varOs
  homeDir : env'.homeDir = env.homeDir
  readToString : ∀ p ≠ file, env'.readToString p = env.readToString p

/-- The files a process finds. -/
structure Env.SameFiles (env env' : Env) : Prop where
  varOs : env'.varOs = env.varOs
  homeDir : env'.homeDir = env.homeDir
  readToString : env'.readToString = env.readToString

namespace Env

variable {file : PathBuf} {env env₁ env' : Env} {raw : String}

theorem SameFiles.refl : SameFiles env env := ⟨rfl, rfl, rfl⟩

theorem SameFiles.beside (h : SameFiles env env') : Beside file env env' :=
  ⟨h.varOs, h.homeDir, fun p _ => congrFun h.readToString p⟩

theorem SameFiles.trans_beside (h : SameFiles env env₁) (h' : Beside file env₁ env') :
    Beside file env env' where
  varOs := h'.varOs.trans h.varOs
  homeDir := h'.homeDir.trans h.homeDir
  readToString p hp := (h'.readToString p hp).trans (congrFun h.readToString p)

theorem beside_write : Beside file env (Cli.write env file raw) where
  varOs := rfl
  homeDir := rfl
  readToString _ hp := Function.update_of_ne hp _ _

end Env

/-- Making directories leaves the files; a write that fails may leave any text in its own. -/
def filesystem : Prog.Rel Files Env
  | .createDirAll _, env => fun _ env' => env.SameFiles env'
  | .write file raw, env => fun r env' => match r with
      | .ok () => env' = Cli.write env file raw
      | .error _ => env.Beside file env'

section Saving

variable [Crates] [TomlCrate]

/-- The part of `save` after the directory. -/
def saveText (c : ClawDBConfig) (file : PathBuf) : Try Files ClawDBError Unit :=
  match c.encode >>= TomlCrate.toStringPretty with
  | .error e => throw (.config e)
  | .ok raw => Try.of (Prog.perform (F := Files) (.write file raw)) .io

/-- `ClawDBConfig::save` -/
def save (c : ClawDBConfig) (file : PathBuf) : Try Files ClawDBError Unit :=
  match parent file with
  | some dir => do
      Try.of (Prog.perform (F := Files) (.createDirAll dir)) .io
      saveText c file
  | none => saveText c file

variable {c : ClawDBConfig} {file : PathBuf} {env env₁ env' : Env} {r : Except ClawDBError Unit}

/-- What `save` leaves: the text of the configuration when it returns `Ok`, and all files as
they were when there is no such text. -/
structure SaveEnds (c : ClawDBConfig) (file : PathBuf) (env : Env)
    (r : Except ClawDBError Unit) (env' : Env) : Prop where
  beside : env.Beside file env'
  ok : r = .ok () → ∃ table raw, c.encode = .ok table ∧
    TomlCrate.toStringPretty table = .ok raw ∧ env'.readToString file = .ok raw ∧
    env'.pathExists file = true
  config : ∀ e, r = .error (.config e) → env.SameFiles env' ∧
    (c.encode >>= TomlCrate.toStringPretty) = .error e
  unwritable : ∀ e, (c.encode >>= TomlCrate.toStringPretty) = .error e →
    env.SameFiles env' ∧ r ≠ .ok ()

theorem SaveEnds.after (h : SaveEnds c file env₁ r env') (hdir : env.SameFiles env₁) :
    SaveEnds c file env r env' where
  beside := hdir.trans_beside h.beside
  ok := h.ok
  config e he := by
    obtain ⟨hsame, htext⟩ := h.config e he
    exact ⟨⟨hsame.varOs.trans hdir.varOs, hsame.homeDir.trans hdir.homeDir,
      hsame.readToString.trans hdir.readToString⟩, htext⟩
  unwritable e he := by
    obtain ⟨hsame, hr⟩ := h.unwritable e he
    exact ⟨⟨hsame.varOs.trans hdir.varOs, hsame.homeDir.trans hdir.homeDir,
      hsame.readToString.trans hdir.readToString⟩, hr⟩

theorem exec_saveText (h : Exec filesystem (saveText c file).run env r env') :
    SaveEnds c file env r env' := by
  unfold saveText at h
  cases htext : (c.encode >>= TomlCrate.toStringPretty) with
  | error e =>
      rw [htext] at h
      obtain ⟨rfl, rfl⟩ := exec_pure.mp h
      have hfailed : (Except.error (.config e) : Except ClawDBError Unit) ≠ .ok () := by
        intro hok
        cases hok
      refine ⟨Env.SameFiles.refl.beside, fun hok => absurd hok hfailed, ?_, ?_⟩
      · intro e' he
        obtain rfl := ClawDBError.config.inj (Except.error.inj he)
        exact ⟨.refl, htext⟩
      · intro e' _
        exact ⟨.refl, hfailed⟩
  | ok raw =>
      have hwritable (e) : (c.encode >>= TomlCrate.toStringPretty) ≠ .error e := by
        rw [htext]
        intro he
        cases he
      rw [htext] at h
      obtain ⟨table, htable, hraw⟩ := Json.except_bind_ok.mp htext
      obtain ⟨r', hwrite, rfl⟩ := Try.exec_of.mp h
      have hwrite : filesystem (.write file raw) env r' env' := exec_perform.mp hwrite
      cases r' with
      | ok u =>
          obtain rfl : env' = Cli.write env file raw := hwrite
          refine ⟨Env.beside_write, fun _ => ⟨table, raw, htable, hraw, ?_, ?_⟩, ?_, ?_⟩
          · simp [Cli.write]
          · simp [Cli.write]
          · intro e he
            cases he
          · intro e he
            exact absurd he (hwritable e)
      | error e =>
          refine ⟨hwrite, ?_, ?_, ?_⟩
          · intro hok
            cases hok
          · intro e he
            cases he
          · intro e he
            exact absurd he (hwritable e)

/-- Spec of `save`. -/
theorem exec_save (h : Exec filesystem (save c file).run env r env') :
    SaveEnds c file env r env' := by
  unfold save at h
  cases hparent : parent file with
  | none =>
      rw [hparent] at h
      exact exec_saveText h
  | some dir =>
      rw [hparent] at h
      rcases Try.exec_bind.mp h with ⟨u, env₁, hdir, h⟩ | ⟨e, hdir, rfl⟩
      · obtain ⟨r', hdir, -⟩ := Try.exec_of.mp hdir
        exact (exec_saveText h).after (exec_perform.mp hdir)
      · obtain ⟨r', hdirs, hr⟩ := Try.exec_of.mp hdir
        have hsame : env.SameFiles env' := exec_perform.mp hdirs
        cases r' with
        | ok u => cases hr
        | error e' =>
            obtain rfl := Except.error.inj hr
            refine ⟨hsame.beside, fun hok => (nomatch hok), fun e he => (nomatch he), ?_⟩
            exact fun _ _ => ⟨hsame, fun hok => nomatch hok⟩

theorem decode_encode {table : Toml.Table} (hc : c.WellTyped) (h : c.encode = .ok table) :
    ClawDBToml.decode table = .ok (Toml.Struct.fill configFields c {}) :=
  Toml.Struct.read_write configFields_distinct hc h {}

/-- The text that is written for a configuration is read as the table it was made of. -/
def ReadsBack (c : ClawDBConfig) : Prop :=
  ∀ table raw, c.encode = .ok table → TomlCrate.toStringPretty table = .ok raw →
    TomlCrate.fromStr raw = .ok table

variable [Seeds]

/-- `ClawDBConfig::load` -/
def load (env : Env) (file : PathBuf) : Except ClawDBError ClawDBConfig := readFile env file

/-- A file with the text of a configuration. -/
theorem readFile_encoded {table : Toml.Table} {raw : String} (hc : c.WellTyped)
    (hback : ReadsBack c) (htable : c.encode = .ok table)
    (hraw : TomlCrate.toStringPretty table = .ok raw) (hfile : env.readToString file = .ok raw) :
    readFile env file = .ok c := by
  have hgiven : ConfigCrates.fromStr raw = .ok (Toml.Struct.fill configFields c {}) := by
    show (TomlCrate.fromStr raw >>= ClawDBToml.decode) = _
    rw [hback table raw htable hraw]
    exact decode_encode hc htable
  unfold readFile
  rw [hfile]
  show ((ConfigCrates.fromStr raw).mapError ClawDBError.config >>= _) = _
  rw [hgiven]
  exact congrArg Except.ok (orDefault_fill env c)

/-- The variables that override a configuration. -/
def overrides : List String :=
  ["CLAW_DATA_DIR", "CLAW_WORKSPACE_ID", "CLAW_AGENT_ID", "CLAW_LOG_LEVEL", "CLAW_LOG_FORMAT",
    "CLAW_VECTOR_BASE_URL", "CLAW_VECTOR_ENABLED", "CLAW_SYNC_HUB_URL", "CLAW_GUARD_JWT_SECRET",
    "CLAW_GUARD_POLICY_DIR", "CLAW_REFLECT_BASE_URL", "CLAW_REFLECT_API_KEY"]

/-- A configuration that `from_file` takes as it is. -/
structure ClawDBConfig.Complete (c : ClawDBConfig) : Prop where
  dataDir : c.dataDir ≠ []
  secret : Text.trim c.guard.jwtSecret ≠ "" ∧ c.guard.jwtSecret ≠ "change-me"

omit [Crates] [TomlCrate] [Seeds] in
theorem override_unset (h : ∀ name ∈ overrides, env.var name = none) {name : String}
    (hname : name ∈ overrides) (set : String → ClawDBConfig → Except ClawDBError ClawDBConfig)
    {next : ClawDBConfig → Except ClawDBError ClawDBConfig} (hnext : next c = .ok c) :
    (env.override name set c >>= next) = .ok c := by
  unfold Env.override
  rw [h name hname]
  exact hnext

theorem applyEnvOverrides_unset (h : ∀ name ∈ overrides, env.var name = none) :
    applyEnvOverrides env c = .ok c := by
  iterate 11 refine override_unset h (by simp [overrides]) _ ?_
  have hlast : env.var "CLAW_REFLECT_API_KEY" = none := h _ (by simp [overrides])
  simp [Env.override, hlast]

theorem fromFile_of_readFile (hread : readFile env file = .ok c) (hc : c.Complete)
    (henv : ∀ name ∈ overrides, env.var name = none) : fromFile env file = .ok c := by
  unfold fromFile
  rw [hread]
  show (applyEnvOverrides env (if c.dataDir = [] then _ else c) >>= _) = _
  rw [if_neg hc.dataDir, applyEnvOverrides_unset henv]
  show (if _ then _ else _) = _
  rw [if_neg (not_or.mpr hc.secret)]
  rfl

/-- A configuration that was saved, on whatever host and whatever the directory's making or the
write replied: if `save` returned `Ok`, the file is loaded as exactly that configuration, with
whatever variables and home directory, and `from_file` returns it too where nothing overrides
it; and no other file was touched.  Where there is no text for it, `save` fails and every file
is as it was. -/
theorem saved_config (c : ClawDBConfig) (file : PathBuf) (env env' : Env)
    (r : Except ClawDBError Unit) (hc : c.WellTyped) (hback : ReadsBack c)
    (h : Exec filesystem (save c file).run env r env') :
    env.Beside file env' ∧
      (r = .ok () → ∀ host : Env, host.readToString file = env'.readToString file →
        load host file = .ok c ∧
          (c.Complete → (∀ name ∈ overrides, host.var name = none) →
            fromFile host file = .ok c)) ∧
      ((∀ raw, (c.encode >>= TomlCrate.toStringPretty) ≠ .ok raw) →
        env.SameFiles env' ∧ r ≠ .ok ()) := by
  have hends : SaveEnds c file env r env' := exec_save h
  refine ⟨hends.beside, ?_, ?_⟩
  · intro hok host hhost
    obtain ⟨table, raw, htable, hraw, hfile, -⟩ := hends.ok hok
    have hread : readFile host file = .ok c :=
      readFile_encoded hc hback htable hraw (hhost.trans hfile)
    exact ⟨hread, fun hcomplete henv => fromFile_of_readFile hread hcomplete henv⟩
  · intro hnone
    cases htext : (c.encode >>= TomlCrate.toStringPretty) with
    | ok raw => exact absurd htext (hnone raw)
    | error e => exact hends.unwritable e htext

end Saving

section Witnesses

attribute [local instance] Crates.sample

def savedTable : Toml.Table :=
  [("data_dir", .string "/d"), ("workspace_id", .string "00000000-0000-0000-0000-000000000002"),
    ("agent_id", .string "00000000-0000-0000-0000-000000000003"), ("log_level", .string "info"),
    ("log_format", .string "json"),
    ("core", .table [("db_path", .string "/d/claw.db"), ("max_connections", .integer 10),
      ("wal_enabled", .boolean true), ("cache_size_mb", .integer 64)]),
    ("vector", .table [("enabled", .boolean true), ("db_path", .string "/d/claw_vector.db"),
      ("index_dir", .string "/d/claw_vector_indices"),
      ("embedding_service_url", .string "http://localhost:50051"),
      ("default_dimensions", .integer 384)]),
    ("branch", .table [("branches_dir", .string "/d/branches"),
      ("registry_db_path", .string "/d/branches/branch_registry.db"),
      ("max_branches_per_workspace", .integer 50), ("gc_interval_secs", .integer 3600),
      ("trunk_branch_name", .string "trunk")]),
    ("sync", .table [("data_dir", .string "/d/sync"), ("db_path", .string "/d/claw.db"),
      ("sync_interval_secs", .integer 30), ("tls_enabled", .boolean false),
      ("connect_timeout_secs", .integer 10), ("request_timeout_secs", .integer 30),
      ("max_delta_rows", .integer 1000), ("max_chunk_bytes", .integer 65536),
      ("max_pull_chunks", .integer 128), ("max_push_inflight", .integer 4)]),
    ("guard", .table [("db_path", .string "/d/claw_guard.db"), ("jwt_secret", .string "s3cret"),
      ("policy_dir", .string "/d/policies"),
      ("sensitive_resources", .array [.string "memory", .string "branch"]),
      ("audit_flush_interval_ms", .integer 100), ("audit_batch_size", .integer 500),
      ("tls_cert_path", .string "/d/certs/server.crt"),
      ("tls_key_path", .string "/d/certs/server.key")]),
    ("reflect", .table []),
    ("server", .table [("grpc_port", .integer 50050), ("http_port", .integer 8080)]),
    ("plugins", .table [("plugins_dir", .string "/d/plugins"), ("enabled", .array []),
      ("sandbox_enabled", .boolean true)]),
    ("telemetry", .table [("metrics_port", .integer 9090), ("service_name", .string "clawdb")])]

/-- What the crate writes of it. -/
def savedRaw : String :=
  "data_dir = \"/d\"\nworkspace_id = \"00000000-0000-0000-0000-000000000002\"\n" ++
    "agent_id = \"00000000-0000-0000-0000-000000000003\"\nlog_level = \"info\"\n" ++
    "log_format = \"json\"\n\n[core]\ndb_path = \"/d/claw.db\"\nmax_connections = 10\n" ++
    "wal_enabled = true\ncache_size_mb = 64\n\n[vector]\nenabled = true\n" ++
    "db_path = \"/d/claw_vector.db\"\nindex_dir = \"/d/claw_vector_indices\"\n" ++
    "embedding_service_url = \"http://localhost:50051\"\ndefault_dimensions = 384\n\n[branch]\n" ++
    "branches_dir = \"/d/branches\"\nregistry_db_path = \"/d/branches/branch_registry.db\"\n" ++
    "max_branches_per_workspace = 50\ngc_interval_secs = 3600\ntrunk_branch_name = \"trunk\"\n\n" ++
    "[sync]\ndata_dir = \"/d/sync\"\ndb_path = \"/d/claw.db\"\nsync_interval_secs = 30\n" ++
    "tls_enabled = false\nconnect_timeout_secs = 10\nrequest_timeout_secs = 30\n" ++
    "max_delta_rows = 1000\nmax_chunk_bytes = 65536\nmax_pull_chunks = 128\n" ++
    "max_push_inflight = 4\n\n[guard]\ndb_path = \"/d/claw_guard.db\"\njwt_secret = \"s3cret\"\n" ++
    "policy_dir = \"/d/policies\"\nsensitive_resources = [\n    \"memory\",\n" ++
    "    \"branch\",\n]\naudit_flush_interval_ms = 100\naudit_batch_size = 500\n" ++
    "tls_cert_path = \"/d/certs/server.crt\"\ntls_key_path = \"/d/certs/server.key\"\n\n" ++
    "[reflect]\n\n[server]\ngrpc_port = 50050\nhttp_port = 8080\n\n[plugins]\n" ++
    "plugins_dir = \"/d/plugins\"\nenabled = []\nsandbox_enabled = true\n\n[telemetry]\n" ++
    "metrics_port = 9090\nservice_name = \"clawdb\"\n"

/-- What the `toml` crate makes of this table, and of its text. -/
@[reducible] def savedToml : TomlCrate where
  fromStr raw := if raw = savedRaw then .ok savedTable else .error "unsupported text"
  toStringPretty t :=
    if t.map Prod.fst = savedTable.map Prod.fst then .ok savedRaw else .error "unsupported table"
  uuid
    | .string text =>
        match Crates.parseStr text with
        | some id => .ok id
        | none => .error "invalid UUID"
    | _ => .error "invalid type: expected a string"

@[reducible] def savedSeeds : Seeds where
  parseError _ := "invalid character"
  newV5 _ := (0 : Nat)

attribute [local instance] savedToml savedSeeds

/-- The defaults of a directory, with a secret. -/
def savedDefaults : ClawDBConfig := defaultForDir bareEnv (path "/d")

def savedSettings : ClawDBConfig :=
  { savedDefaults with
    workspaceId := (2 : Nat)
    agentId := (3 : Nat)
    guard := { savedDefaults.guard with jwtSecret := "s3cret" } }

def savedFile : PathBuf := path "/d/config.toml"

theorem encode_savedSettings : savedSettings.encode = .ok savedTable := by rfl

/-- It is loaded from the directory it was saved to. -/
theorem saved_config_settings :
    load (Cli.write bareEnv savedFile savedRaw) savedFile = .ok savedSettings ∧
      fromFile (Cli.write bareEnv savedFile savedRaw) savedFile = .ok savedSettings := by
  have hvalid : savedSettings.WellTyped := by
    simp [ClawDBConfig.WellTyped, Toml.Struct.Valid, configFields, coreFields, vectorFields,
      branchFields, syncFields, guardFields, reflectFields, serverFields, pluginsFields,
      telemetryFields, u16Codec, u32Codec, u64Codec, savedSettings, savedDefaults, defaultForDir]
    exact ⟨by rfl, by rfl⟩
  have hback : ReadsBack savedSettings := by
    intro table raw htable hraw
    rw [encode_savedSettings] at htable
    obtain rfl := Except.ok.inj htable
    obtain rfl := Except.ok.inj hraw
    exact if_pos rfl
  have hrun : Exec filesystem (save savedSettings savedFile).run bareEnv (.ok ())
      (Cli.write bareEnv savedFile savedRaw) := by
    have hparent : parent savedFile = some (path "/d") := by rfl
    unfold save
    rw [hparent]
    refine Try.exec_bind_of (Try.exec_of.mpr ⟨.ok (), exec_perform.mpr .refl, rfl⟩) ?_
    unfold saveText
    rw [encode_savedSettings]
    exact Try.exec_of.mpr ⟨.ok (), exec_perform.mpr rfl, rfl⟩
  obtain ⟨-, hloads, -⟩ := saved_config savedSettings savedFile bareEnv _ _ hvalid hback hrun
  obtain ⟨hload, hfrom⟩ := hloads rfl (Cli.write bareEnv savedFile savedRaw) rfl
  exact ⟨hload, hfrom ⟨by decide, by decide⟩ fun name _ => rfl⟩

end Witnesses

end ClawDB
