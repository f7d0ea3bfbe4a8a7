/-
# `ClawDB.Cli.Config` — the configuration file as the CLI keeps it

`clawdb-cli/src/config.rs` and `commands/config.rs`.  The CLI loads `config.toml` into a struct
of four fields, sets one of them and writes the struct back.  The server reads the same file,
`ClawDBConfig::load_or_default` of the same directory, and has more keys in it.

Reading drops a key the struct has no field for, so writing the struct loses it.  A workspace id
is written as `Uuid::to_string` gives it, however it was written before.
-/
import ClawDB.Config
import ClawDB.Lib.Toml
import ClawDB.Lib.Json

namespace ClawDB.Cli

open Unix
open Json (except_bind_ok mapError_ok)

/-! ## The file and the struct -/

/-- The functions of `toml` and `uuid` that are called. -/
class TomlCrate where
  /-- `toml::from_str`, as far as the table, or the text of the error -/
  fromStr : String → Except String Toml.Table
  /-- `toml::to_string_pretty` of a table -/
  toStringPretty : Toml.Table → Except String String
  /-- `Deserialize for Uuid`, from TOML -/
  uuid : Toml.Value → Except String Uuid

inductive ConfigError where
  | io (message : String)
  | tomlDe (message : String)
  | tomlSer (message : String)
  | config (message : String)
deriving DecidableEq

/-- `std::fs::write` -/
def write (env : Env) (file : PathBuf) (raw : String) : Env :=
  { env with
    pathExists := fun p => decide (p = file) || env.pathExists p
    readToString := Function.update env.readToString file (.ok raw) }

/-- Where the file is: `load_or_default` reads the same one of that directory. -/
def configFile (env : Env) : PathBuf := configToml env.dataDir

structure CliConfig where
  baseUrl : Option String := none
  workspaceId : Option Uuid := none
  dataDir : Option PathBuf := none
  logLevel : Option String := none

/-- `Deserialize for PathBuf` -/
def pathValue (v : Toml.Value) : Except String PathBuf := (Toml.string v).map path

/-- `Serialize for PathBuf` -/
def pathText (p : PathBuf) : Except String String :=
  match toStr p with
  | some s => .ok s
  | none => .error "path contains invalid UTF-8 characters"

section Config

variable [Crates] [TomlCrate]

namespace CliConfig

/-- `Deserialize for CliConfig` -/
def decode (t : Toml.Table) : Except String CliConfig := do
  let baseUrl ← Toml.field "base_url" Toml.string t
  let workspaceId ← Toml.field "workspace_id" TomlCrate.uuid t
  let dataDir ← Toml.field "data_dir" pathValue t
  let logLevel ← Toml.field "log_level" Toml.string t
  pure ⟨baseUrl, workspaceId, dataDir, logLevel⟩

/-- The fields, in the order they are written, where the path has the text `dataDir`. -/
def fields (c : CliConfig) (dataDir : Option String) : List (String × Option Toml.Value) :=
  [("base_url", c.baseUrl.map .string),
    ("workspace_id", c.workspaceId.map fun id => .string (Crates.uuidToString id)),
    ("data_dir", dataDir.map .string),
    ("log_level", c.logLevel.map .string)]

/-- `Serialize for CliConfig` -/
def encode (c : CliConfig) : Except String Toml.Table := do
  let dataDir ← match c.dataDir with
    | none => pure none
    | some p => (pathText p).map some
  pure (Toml.ofFields (c.fields dataDir))

def load (env : Env) : Except ConfigError CliConfig :=
  if env.pathExists (configFile env) then do
    let raw ← (env.readToString (configFile env)).mapError .io
    let table ← (TomlCrate.fromStr raw).mapError .tomlDe
    (decode table).mapError .tomlDe
  else pure {}

def save (c : CliConfig) (env : Env) : Except ConfigError Env := do
  let table ← c.encode.mapError .tomlSer
  let raw ← (TomlCrate.toStringPretty table).mapError .tomlSer
  pure (write env (configFile env) raw)

end CliConfig

/-! ## The command -/

def getKey (cfg : CliConfig) (key : String) : Except ConfigError String :=
  match key with
  | "base_url" => .ok (cfg.baseUrl.getD "")
  | "workspace_id" => .ok ((cfg.workspaceId.map Crates.uuidToString).getD "")
  | "data_dir" => .ok ((cfg.dataDir.map display).getD "")
  | "log_level" => .ok (cfg.logLevel.getD "")
  | k => .error (.config ("unknown config key: " ++ k))

def setKey (cfg : CliConfig) (key value : String) : Except ConfigError CliConfig :=
  match key with
  | "base_url" => .ok { cfg with baseUrl := some value }
  | "log_level" => .ok { cfg with logLevel := some value }
  | "workspace_id" =>
      match Crates.parseStr value with
      | some id => .ok { cfg with workspaceId := some id }
      | none => .error (.config "workspace_id must be a valid UUID")
  | "data_dir" => .ok { cfg with dataDir := some (path value) }
  | k => .error (.config ("unknown config key: " ++ k))

/-- What `config get key` prints. -/
def ConfigCmd.get (env : Env) (key : String) : Except ConfigError String := do
  let cfg ← CliConfig.load env
  getKey cfg key

/-- What `config set key value` leaves. -/
def ConfigCmd.set (env : Env) (key value : String) : Except ConfigError Env := do
  let cfg ← CliConfig.load env
  let cfg ← setKey cfg key value
  cfg.save env

end Config

/-! ## Reading and writing -/

/-- A path is that of a text. -/
theorem field_path {t : Toml.Table} {key : String} {o : Option PathBuf}
    (h : Toml.field key pathValue t = .ok o) :
    ∃ text : Option String, o = text.map path ∧ Toml.get t key = text.map .string := by
  obtain ⟨hnone, rfl⟩ | ⟨v, p, hv, hp, rfl⟩ := Toml.field_ok.mp h
  · exact ⟨none, rfl, hnone⟩
  · cases v with
    | string s =>
        obtain rfl := Except.ok.inj hp
        exact ⟨some s, rfl, hv⟩
    | _ => cases hp

section Reading

variable [TomlCrate] {t : Toml.Table} {c : CliConfig}

theorem CliConfig.decode_ok : CliConfig.decode t = .ok c ↔
    Toml.field "base_url" Toml.string t = .ok c.baseUrl ∧
      Toml.field "workspace_id" TomlCrate.uuid t = .ok c.workspaceId ∧
      Toml.field "data_dir" pathValue t = .ok c.dataDir ∧
      Toml.field "log_level" Toml.string t = .ok c.logLevel := by
  constructor
  · intro h
    obtain ⟨baseUrl, h₁, h⟩ := except_bind_ok.mp h
    obtain ⟨workspaceId, h₂, h⟩ := except_bind_ok.mp h
    obtain ⟨dataDir, h₃, h⟩ := except_bind_ok.mp h
    obtain ⟨logLevel, h₄, h⟩ := except_bind_ok.mp h
    cases h
    exact ⟨h₁, h₂, h₃, h₄⟩
  · rintro ⟨h₁, h₂, h₃, h₄⟩
    exact except_bind_ok.mpr ⟨_, h₁, except_bind_ok.mpr ⟨_, h₂, except_bind_ok.mpr
      ⟨_, h₃, except_bind_ok.mpr ⟨_, h₄, rfl⟩⟩⟩⟩

theorem load_eq {env : Env} {raw : String} (hexists : env.pathExists (configFile env) = true)
    (hraw : env.readToString (configFile env) = .ok raw)
    (htable : TomlCrate.fromStr raw = .ok t) :
    CliConfig.load env = (CliConfig.decode t).mapError .tomlDe := by
  unfold CliConfig.load
  rw [if_pos hexists, hraw]
  show (Except.mapError ConfigError.tomlDe (TomlCrate.fromStr raw) >>= _) = _
  rw [htable]
  rfl

variable [Crates]

/-- The workspace id is written the way `Uuid::to_string` writes it, if there is one. -/
def CanonicalId (t : Toml.Table) : Prop :=
  ∀ v, Toml.get t "workspace_id" = some v →
    ∃ id, TomlCrate.uuid v = .ok id ∧ v = .string (Crates.uuidToString id)

theorem field_uuid {o : Option Uuid}
    (h : Toml.field "workspace_id" TomlCrate.uuid t = .ok o) :
    (o.map fun id => Toml.Value.string (Crates.uuidToString id)) = Toml.get t "workspace_id" ↔
      CanonicalId t := by
  unfold CanonicalId
  obtain ⟨hnone, rfl⟩ | ⟨v, id, hv, hid, rfl⟩ := Toml.field_ok.mp h
  · rw [hnone]
    exact iff_of_true rfl fun v hv => nomatch hv
  · rw [hv]
    constructor
    · intro he v' hv'
      obtain rfl := Option.some.inj hv'
      exact ⟨id, hid, (Option.some.inj he).symm⟩
    · intro hall
      obtain ⟨id', hid', he⟩ := hall v rfl
      rw [hid] at hid'
      obtain rfl := Except.ok.inj hid'
      rw [he]
      rfl

end Reading

section Writing

variable [Crates] {t : Toml.Table} {c : CliConfig} {text : Option String}

def CliConfig.keys : List String := ["base_url", "workspace_id", "data_dir", "log_level"]

theorem CliConfig.map_fields : (c.fields text).map Prod.fst = CliConfig.keys := rfl

theorem CliConfig.fields_nodup : ((c.fields text).map Prod.fst).Nodup := by
  rw [map_fields]
  decide

theorem CliConfig.encode_eq (htext : c.dataDir = text.map path) :
    c.encode = .ok (Toml.ofFields (c.fields text)) := by
  unfold CliConfig.encode
  rw [htext]
  cases text with
  | none => rfl
  | some s =>
      have hpath : pathText (path s) = .ok s := by rw [pathText, toStr_path]
      show (Except.map some (pathText (path s)) >>= _) = _
      rw [hpath]
      rfl

/-- What was written is read as it was. -/
theorem CliConfig.decode_written [TomlCrate] (htext : c.dataDir = text.map path)
    (huuid : ∀ id, c.workspaceId = some id →
      TomlCrate.uuid (.string (Crates.uuidToString id)) = .ok id)
    (ht : ∀ k, Toml.get t k = Toml.get (Toml.ofFields (c.fields text)) k) :
    CliConfig.decode t = .ok c := by
  have hget : ∀ f ∈ c.fields text, Toml.get t f.1 = f.2 := by
    intro f hmem
    rw [ht f.1]
    exact Toml.get_ofFields CliConfig.fields_nodup hmem
  simp only [CliConfig.fields, List.forall_mem_cons] at hget
  obtain ⟨hbase, hworkspace, hdir, hlevel, -⟩ := hget
  refine CliConfig.decode_ok.mpr ⟨Toml.field_of_get hbase fun s _ => rfl,
    Toml.field_of_get hworkspace huuid, ?_, Toml.field_of_get hlevel fun s _ => rfl⟩
  have hread : Toml.field "data_dir" Toml.string t = .ok text :=
    Toml.field_of_get hdir fun s _ => rfl
  rw [htext]
  obtain ⟨hnone, rfl⟩ | ⟨v, s, hv, hs, rfl⟩ := Toml.field_ok.mp hread
  · exact Toml.field_ok.mpr (.inl ⟨hnone, rfl⟩)
  · refine Toml.field_ok.mpr (.inr ⟨v, path s, hv, ?_, rfl⟩)
    rw [pathValue, hs]
    rfl

end Writing

/-! ## One key is set -/

section Set

variable [Crates] {cfg cfg' : CliConfig} {key value : String} {t t' : Toml.Table}
  {text : Option String}

/-- How a value is printed that was set under a key. -/
def shown (key value : String) : String :=
  if key = "workspace_id" then ((Crates.parseStr value).map Crates.uuidToString).getD value
  else value

/-- What `set_key` can do. -/
theorem setKey_cases (h : setKey cfg key value = .ok cfg') :
    (key = "base_url" ∧ cfg' = { cfg with baseUrl := some value }) ∨
    (key = "workspace_id" ∧ ∃ id, Crates.parseStr value = some id ∧
      cfg' = { cfg with workspaceId := some id }) ∨
    (key = "data_dir" ∧ cfg' = { cfg with dataDir := some (path value) }) ∨
    (key = "log_level" ∧ cfg' = { cfg with logLevel := some value }) := by
  unfold setKey at h
  split at h
  · exact .inl ⟨rfl, (Except.ok.inj h).symm⟩
  · exact .inr (.inr (.inr ⟨rfl, (Except.ok.inj h).symm⟩))
  · split at h
    next id hid => exact .inr (.inl ⟨rfl, id, hid, (Except.ok.inj h).symm⟩)
    next => cases h
  · exact .inr (.inr (.inl ⟨rfl, (Except.ok.inj h).symm⟩))
  · cases h

theorem key_mem_keys (h : setKey cfg key value = .ok cfg') : key ∈ CliConfig.keys := by
  obtain ⟨rfl, -⟩ | ⟨rfl, -⟩ | ⟨rfl, -⟩ | ⟨rfl, -⟩ := setKey_cases h <;> decide

/-- What was set is what is got. -/
theorem getKey_setKey (h : setKey cfg key value = .ok cfg') :
    getKey cfg' key = .ok (shown key value) := by
  obtain ⟨rfl, rfl⟩ | ⟨rfl, id, hid, rfl⟩ | ⟨rfl, rfl⟩ | ⟨rfl, rfl⟩ := setKey_cases h
  · rfl
  · simp [getKey, shown, hid]
  · simp [getKey, shown, display_path]
  · rfl

/-- The other fields are written as they would have been. -/
theorem setKey_frame (h : setKey cfg key value = .ok cfg')
    (htext : cfg.dataDir = text.map path) :
    ∃ text', cfg'.dataDir = text'.map path ∧
      ∀ f ∈ cfg'.fields text', f.1 ≠ key → f ∈ cfg.fields text := by
  obtain ⟨rfl, rfl⟩ | ⟨rfl, id, -, rfl⟩ | ⟨rfl, rfl⟩ | ⟨rfl, rfl⟩ := setKey_cases h
  · exact ⟨text, htext, by simp [CliConfig.fields]⟩
  · exact ⟨text, htext, by simp [CliConfig.fields]⟩
  · exact ⟨some value, rfl, by simp [CliConfig.fields]⟩
  · exact ⟨text, htext, by simp [CliConfig.fields]⟩

variable [TomlCrate]

/-- The fields of what was read, beside what they were read from. -/
theorem decode_fields (h : CliConfig.decode t = .ok cfg) :
    ∃ text : Option String, cfg.dataDir = text.map path ∧
      (∀ f ∈ cfg.fields text, f.1 ≠ "workspace_id" → f.2 = Toml.get t f.1) ∧
      ∀ f ∈ cfg.fields text, f.1 = "workspace_id" →
        (f.2 = Toml.get t f.1 ↔ CanonicalId t) := by
  obtain ⟨hbase, hworkspace, hdir, hlevel⟩ := CliConfig.decode_ok.mp h
  obtain ⟨text, htext, hget⟩ := field_path hdir
  refine ⟨text, htext, ?_, ?_⟩
  · simp [CliConfig.fields, Toml.field_string hbase, hget, Toml.field_string hlevel]
  · simp [CliConfig.fields, field_uuid hworkspace]

/-- A file that loses nothing when `key` is set in it: it has only keys the CLI knows, and its
workspace id, if it stays, is in canonical form. -/
def Kept (t : Toml.Table) (key : String) : Prop :=
  (∀ k, (Toml.get t k).isSome = true → k ∈ CliConfig.keys) ∧
    (key ≠ "workspace_id" → CanonicalId t)

/-- What is lost and what is not is decided by the file as it was. -/
theorem kept_iff (hdecode : CliConfig.decode t = .ok cfg)
    (hset : setKey cfg key value = .ok cfg') :
    ∃ text', cfg'.dataDir = text'.map path ∧
      ((∀ k, k ≠ key → Toml.get (Toml.ofFields (cfg'.fields text')) k = Toml.get t k) ↔
        Kept t key) := by
  obtain ⟨text, htext, hother, hworkspace⟩ := decode_fields hdecode
  obtain ⟨text', htext', hframe⟩ := setKey_frame hset htext
  refine ⟨text', htext', ?_⟩
  rw [Toml.rewritten_iff CliConfig.fields_nodup (· ≠ key), CliConfig.map_fields]
  constructor
  · rintro ⟨hfields, hkeys⟩
    constructor
    · intro k hsome
      by_cases hk : k = key
      · rw [hk]
        exact key_mem_keys hset
      · exact hkeys k hk hsome
    · intro hne
      have hmem : ("workspace_id", cfg'.workspaceId.map fun id =>
          Toml.Value.string (Crates.uuidToString id)) ∈ cfg'.fields text' := by
        simp [CliConfig.fields]
      exact (hworkspace _ (hframe _ hmem hne.symm) rfl).mp (hfields _ hmem hne.symm)
  · rintro ⟨hkeys, hcanonical⟩
    constructor
    · intro f hf hne
      have hold := hframe f hf hne
      by_cases hid : f.1 = "workspace_id"
      · rw [hid] at hne
        exact (hworkspace f hold hid).mpr (hcanonical hne.symm)
      · exact hother f hold hid
    · intro k _ hsome
      exact hkeys k hsome

/-- The configuration is read as it was written. -/
structure CliConfig.ReadsBack (c : CliConfig) : Prop where
  text : ∀ table, c.encode = .ok table → ∃ raw table',
    TomlCrate.toStringPretty table = .ok raw ∧ TomlCrate.fromStr raw = .ok table' ∧
      ∀ k, Toml.get table' k = Toml.get table k
  uuid : ∀ id, c.workspaceId = some id →
    TomlCrate.uuid (.string (Crates.uuidToString id)) = .ok id

/-- After `config set key value`, `config get key` prints the value; and the file has under
every other key what it had, exactly if it had nothing to lose. -/
theorem config_set_iff {env : Env} {raw : String}
    (hexists : env.pathExists (configFile env) = true)
    (hraw : env.readToString (configFile env) = .ok raw)
    (htable : TomlCrate.fromStr raw = .ok t) (hload : CliConfig.load env = .ok cfg)
    (hset : setKey cfg key value = .ok cfg') (hback : cfg'.ReadsBack) :
    ∃ env' raw' t', ConfigCmd.set env key value = .ok env' ∧
      env'.readToString (configFile env') = .ok raw' ∧ TomlCrate.fromStr raw' = .ok t' ∧
        ((ConfigCmd.get env' key = .ok (shown key value) ∧
          ∀ k, k ≠ key → Toml.get t' k = Toml.get t k) ↔ Kept t key) := by
  have hdecode : CliConfig.decode t = .ok cfg := by
    rw [load_eq hexists hraw htable] at hload
    exact mapError_ok.mp hload
  obtain ⟨text', htext', hkept⟩ := kept_iff hdecode hset
  have hencode := CliConfig.encode_eq htext'
  obtain ⟨raw', t', hwrite, hread, hsame⟩ := hback.text _ hencode
  have hsave : cfg'.save env = .ok (write env (configFile env) raw') := by
    unfold CliConfig.save
    rw [hencode]
    show (Except.mapError ConfigError.tomlSer (TomlCrate.toStringPretty _) >>= _) = _
    rw [hwrite]
    rfl
  have hfile : (write env (configFile env) raw').readToString (configFile env) = .ok raw' :=
    Function.update_self ..
  refine ⟨write env (configFile env) raw', raw', t', ?_, hfile, hread, ?_⟩
  · exact except_bind_ok.mpr ⟨cfg, hload, except_bind_ok.mpr ⟨cfg', hset, hsave⟩⟩
  · have hthere : (write env (configFile env) raw').pathExists (configFile env) = true := by
      simp [write]
    have hload' : CliConfig.load (write env (configFile env) raw') = .ok cfg' := by
      rw [load_eq hthere hfile hread, CliConfig.decode_written htext' hback.uuid hsame]
      rfl
    have hget : ConfigCmd.get (write env (configFile env) raw') key = .ok (shown key value) :=
      except_bind_ok.mpr ⟨cfg', hload', getKey_setKey hset⟩
    rw [← hkept, and_iff_right hget]
    exact forall₂_congr fun k _ => by rw [hsame k]

end Set

/-! ## Two files

Of TOML the sample reads and writes tables of texts that need no escape. -/

namespace TomlCrate

inductive Line where
  | blank
  | header (name : String)
  | entry (key : String) (v : Toml.Value)

def readLine (line : List Char) : Option Line :=
  match line with
  | [] => some .blank
  | '[' :: name => some (.header (String.ofList name.dropLast))
  | _ =>
      match line.dropWhile (· ≠ ' ') with
      | ' ' :: '=' :: ' ' :: '"' :: text =>
          some (.entry (String.ofList (line.takeWhile (· ≠ ' ')))
            (.string (String.ofList text.dropLast)))
      | _ => none

/-- The entries before the first header, and the tables. -/
def readLines : List Line → Toml.Table × Toml.Table
  | [] => ([], [])
  | .blank :: lines => readLines lines
  | .header name :: lines =>
      ([], (name, .table (readLines lines).1) :: (readLines lines).2)
  | .entry key v :: lines => ((key, v) :: (readLines lines).1, (readLines lines).2)

def writeEntry : String × Toml.Value → Except String String
  | (key, .string text) => .ok (key ++ " = \"" ++ text ++ "\"\n")
  | _ => .error "unsupported value"

@[reducible] def sample [Crates] : TomlCrate where
  fromStr raw :=
    match (raw.toList.splitOn '\n').mapM readLine with
    | some lines => .ok ((readLines lines).1 ++ (readLines lines).2)
    | none => .error "unsupported line"
  toStringPretty t := (t.mapM writeEntry).map String.join
  uuid
    | .string text =>
        match Crates.parseStr text with
        | some id => .ok id
        | none => .error "invalid UUID"
    | _ => .error "invalid type: expected a string"

end TomlCrate

section Witnesses

attribute [local instance] Crates.sample TomlCrate.sample

/-- A home with nothing in it but a `config.toml`. -/
def homeWith (raw : String) : Env where
  varOs _ := none
  homeDir := some (path "/home/u")
  pathExists _ := true
  readToString _ := .ok raw

/-- A file the CLI has written. -/
def cliRaw : String :=
  "workspace_id = \"00000000-0000-0000-0000-000000000002\"\nlog_level = \"info\"\n"

/-- A file of the server. -/
def serverRaw : String := "log_level = \"info\"\n\n[guard]\njwt_secret = \"s\"\n"

def cliTable : Toml.Table :=
  [("workspace_id", .string "00000000-0000-0000-0000-000000000002"), ("log_level", .string "info")]

def cliConfig : CliConfig := { workspaceId := some (2 : Nat), logLevel := some "info" }

theorem kept_cliTable : Kept cliTable "base_url" := by
  constructor
  · intro k hsome
    have hk := Toml.mem_of_get_isSome hsome
    simp only [cliTable, List.map_cons, List.map_nil, List.mem_cons, List.not_mem_nil,
      or_false] at hk
    rcases hk with rfl | rfl <;> decide
  · intro _ v hv
    obtain rfl := Option.some.inj hv
    exact ⟨(2 : Nat), by rfl, by rfl⟩

/-- Setting the base URL in the first file changes nothing else in it. -/
theorem config_set_iff_cli :
    ∃ env' raw' t', ConfigCmd.set (homeWith cliRaw) "base_url" "http://a" = .ok env' ∧
      env'.readToString (configFile env') = .ok raw' ∧ TomlCrate.fromStr raw' = .ok t' ∧
      ConfigCmd.get env' "base_url" = .ok "http://a" ∧
      ∀ k, k ≠ "base_url" → Toml.get t' k = Toml.get cliTable k := by
  have hload : CliConfig.load (homeWith cliRaw) = .ok cliConfig := by rfl
  have hset : setKey cliConfig "base_url" "http://a" =
      .ok { cliConfig with baseUrl := some "http://a" } := rfl
  have hback : CliConfig.ReadsBack { cliConfig with baseUrl := some "http://a" } := by
    constructor
    · intro table htable
      obtain rfl := Except.ok.inj htable
      exact ⟨_, _, rfl, by rfl, fun k => rfl⟩
    · intro id hid
      obtain rfl := Option.some.inj hid
      rfl
  obtain ⟨env', raw', t', hdone, hraw, ht, hiff⟩ :=
    config_set_iff rfl rfl (show TomlCrate.fromStr cliRaw = .ok cliTable by rfl) hload hset hback
  obtain ⟨hget, hframe⟩ := hiff.mpr kept_cliTable
  exact ⟨env', raw', t', hdone, hraw, ht, hget, hframe⟩

/-- Setting the base URL in the second loses the server's secret. -/
theorem secret_lost :
    ¬ ∀ (env : Env) (raw key value : String) (t : Toml.Table) (cfg cfg' : CliConfig),
      env.pathExists (configFile env) = true →
      env.readToString (configFile env) = .ok raw → TomlCrate.fromStr raw = .ok t →
      CliConfig.load env = .ok cfg → setKey cfg key value = .ok cfg' →
      ∀ (env' : Env) (raw' : String) (t' : Toml.Table),
        ConfigCmd.set env key value = .ok env' →
        env'.readToString (configFile env') = .ok raw' → TomlCrate.fromStr raw' = .ok t' →
        ConfigCmd.get env' key = .ok (shown key value) ∧
          ∀ k, k ≠ key → Toml.get t' k = Toml.get t k := by
  intro hclaim
  obtain ⟨-, hframe⟩ := hclaim (homeWith serverRaw) serverRaw "base_url" "http://a" _ _ _ rfl rfl
    (by rfl) (by rfl) (by rfl) _ _ _ (by rfl) (by rfl) (by rfl)
  have hguard := hframe "guard" (by decide)
  cases hguard

end Witnesses

end ClawDB.Cli
