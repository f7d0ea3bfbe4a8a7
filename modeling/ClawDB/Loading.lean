/-
# `ClawDB.Loading` — the secret and the directory of a loaded configuration

Six ways lead to a configuration, and each does its own checks.  `Loader.Checked` says which
of them, in which environment, give no configuration without a signing secret of its own;
`Loader.root` is the directory the default paths of the result are taken from, which is not
always the one that was asked for.
-/
import ClawDB.Config

namespace ClawDB

open Unix
open Json (except_bind_ok mapError_ok)

theorem except_map_ok {ε α β : Type} {x : Except ε α} {f : α → β} {b : β} :
    (do let a ← x; pure (f a)) = .ok b ↔ ∃ a, x = .ok a ∧ f a = b := by
  rw [except_bind_ok]
  exact exists_congr fun a => and_congr_right fun _ => ⟨Except.ok.inj, congrArg _⟩

theorem toOption_eq_some {ε α : Type} {x : Except ε α} {a : α} :
    x.toOption = some a ↔ x = .ok a := by
  cases x with
  | ok b => exact ⟨fun h => congrArg _ (Option.some.inj h), fun h => congrArg _ (Except.ok.inj h)⟩
  | error e => exact ⟨(fun h => nomatch h), fun h => nomatch h⟩

/-! ## Overrides -/

section Overrides

variable {env : Env} {name : String} {config config' : ClawDBConfig}

theorem override_ok {set : String → ClawDBConfig → Except ClawDBError ClawDBConfig} :
    env.override name set config = .ok config' ↔
      (env.var name = none ∧ config' = config) ∨
      ∃ value, env.var name = some value ∧ set value config = .ok config' := by
  unfold Env.override
  cases env.var name with
  | none =>
      constructor
      · exact fun h => .inl ⟨rfl, (Except.ok.inj h).symm⟩
      · rintro (⟨-, rfl⟩ | ⟨_, hv, -⟩)
        · rfl
        · cases hv
  | some value =>
      constructor
      · exact fun h => .inr ⟨value, rfl, h⟩
      · rintro (⟨hv, -⟩ | ⟨_, hv, h⟩)
        · cases hv
        · rw [Option.some.inj hv]
          exact h

/-- An override that cannot fail. -/
theorem override_pure {set : String → ClawDBConfig → ClawDBConfig} :
    env.override name (fun value config => pure (set value config)) config =
      .ok (((env.var name).map fun value => set value config).getD config) := by
  unfold Env.override
  cases env.var name <;> rfl

/-- What an override that cannot fail makes of a value, and which values it keeps. -/
theorem override_value {β : Type} (π : ClawDBConfig → β)
    {set : String → ClawDBConfig → ClawDBConfig}
    (h : env.override name (fun value config => pure (set value config)) config = .ok config') :
    π config' = ((env.var name).map fun value => π (set value config)).getD (π config) := by
  rw [override_pure] at h
  obtain rfl := Except.ok.inj h
  cases env.var name <;> rfl

theorem override_keeps {β : Type} (π : ClawDBConfig → β)
    {set : String → ClawDBConfig → ClawDBConfig}
    (h : env.override name (fun value config => pure (set value config)) config = .ok config')
    (hset : ∀ value, π (set value config) = π config) : π config' = π config := by
  rw [override_value π h]
  cases env.var name with
  | none => rfl
  | some value => exact hset value

theorem exists_override_pure {set : String → ClawDBConfig → ClawDBConfig} :
    ∃ config', env.override name (fun value config => pure (set value config)) config =
      .ok config' :=
  ⟨_, override_pure⟩

theorem exists_bind {ε α β : Type} {x : Except ε α} {f : α → Except ε β}
    (hx : ∃ a, x = .ok a) (hf : ∀ a, ∃ b, f a = .ok b) : ∃ b, x >>= f = .ok b := by
  obtain ⟨a, ha⟩ := hx
  obtain ⟨b, hb⟩ := hf a
  exact ⟨b, except_bind_ok.mpr ⟨a, ha, hb⟩⟩

end Overrides

/-! ## The paths of a configuration -/

/-- The ten paths that are kept apart for each data directory. -/
def ClawDBConfig.paths (config : ClawDBConfig) : List PathBuf :=
  [config.core.dbPath, config.vector.dbPath, config.vector.indexDir, config.branch.branchesDir,
    config.branch.registryDbPath, config.sync.dataDir, config.sync.dbPath,
    osString config.guard.dbPath, config.guard.policyDir, config.plugins.pluginsDir]

/-- A file that sets none of the ten paths. -/
structure ClawDBToml.PathsUnset (given : ClawDBToml) : Prop where
  core : ∀ t ∈ given.core, t.dbPath = none
  vector : ∀ t ∈ given.vector, t.dbPath = none ∧ t.indexDir = none
  branch : ∀ t ∈ given.branch, t.branchesDir = none ∧ t.registryDbPath = none
  sync : ∀ t ∈ given.sync, t.dataDir = none ∧ t.dbPath = none
  guard : ∀ t ∈ given.guard, t.dbPath = none ∧ t.policyDir = none
  plugins : ∀ t ∈ given.plugins, t.pluginsDir = none

/-- A field the file does not set. -/
theorem elim_orDefault {α β γ : Type} {given : Option α} {default : β} {fill : α → β → β}
    (π : β → γ) (h : ∀ t ∈ given, π (fill t default) = π default) :
    π (given.elim default (fill · default)) = π default := by
  cases given with
  | none => rfl
  | some t => exact h t rfl

theorem paths_orDefault {given : ClawDBToml} (h : given.PathsUnset) (default : ClawDBConfig) :
    (given.orDefault default).paths = default.paths := by
  have h₀ : (given.orDefault default).core.dbPath = default.core.dbPath :=
    elim_orDefault CoreConfig.dbPath fun t ht => by simp [CoreToml.orDefault, h.core t ht]
  have h₁ : (given.orDefault default).vector.dbPath = default.vector.dbPath :=
    elim_orDefault VectorConfig.dbPath fun t ht => by simp [VectorToml.orDefault, h.vector t ht]
  have h₂ : (given.orDefault default).vector.indexDir = default.vector.indexDir :=
    elim_orDefault VectorConfig.indexDir fun t ht => by simp [VectorToml.orDefault, h.vector t ht]
  have h₃ : (given.orDefault default).branch.branchesDir = default.branch.branchesDir :=
    elim_orDefault BranchConfig.branchesDir fun t ht => by
      simp [BranchToml.orDefault, h.branch t ht]
  have h₄ : (given.orDefault default).branch.registryDbPath = default.branch.registryDbPath :=
    elim_orDefault BranchConfig.registryDbPath fun t ht => by
      simp [BranchToml.orDefault, h.branch t ht]
  have h₅ : (given.orDefault default).sync.dataDir = default.sync.dataDir :=
    elim_orDefault SyncConfig.dataDir fun t ht => by simp [SyncToml.orDefault, h.sync t ht]
  have h₆ : (given.orDefault default).sync.dbPath = default.sync.dbPath :=
    elim_orDefault SyncConfig.dbPath fun t ht => by simp [SyncToml.orDefault, h.sync t ht]
  have h₇ : (given.orDefault default).guard.dbPath = default.guard.dbPath :=
    elim_orDefault GuardConfig.dbPath fun t ht => by simp [GuardToml.orDefault, h.guard t ht]
  have h₈ : (given.orDefault default).guard.policyDir = default.guard.policyDir :=
    elim_orDefault GuardConfig.policyDir fun t ht => by simp [GuardToml.orDefault, h.guard t ht]
  have h₉ : (given.orDefault default).plugins.pluginsDir = default.plugins.pluginsDir :=
    elim_orDefault PluginsConfig.pluginsDir fun t ht => by
      simp [PluginsToml.orDefault, h.plugins t ht]
  unfold ClawDBConfig.paths
  rw [h₀, h₁, h₂, h₃, h₄, h₅, h₆, h₇, h₈, h₉]

/-- The files that are opened as databases. -/
def ClawDBConfig.databases (config : ClawDBConfig) : List PathBuf :=
  [config.core.dbPath, config.vector.dbPath, config.branch.registryDbPath, config.sync.dbPath,
    osString config.guard.dbPath]

theorem databases_eq {config config' : ClawDBConfig} (h : config.paths = config'.paths) :
    config.databases = config'.databases := by
  simp only [ClawDBConfig.paths, List.cons.injEq] at h
  obtain ⟨hcore, hvector, -, -, hregistry, -, hsync, hguard, -⟩ := h
  unfold ClawDBConfig.databases
  rw [hcore, hvector, hregistry, hsync, hguard]

/-- Two configurations that open one database. -/
def ClawDBConfig.Shares (config config' : ClawDBConfig) : Prop :=
  ∃ p ∈ config.databases, ∃ q ∈ config'.databases, Same p q

theorem components_guard (root : PathBuf) :
    components (osString (display (join root (path "claw_guard.db")))) =
      components (osString (display root)) ++ [.normal (path "claw_guard.db")] := by
  rw [osString_display, osString_display, components_lossy, components_lossy,
    components_join (by decide), List.map_append]
  rfl

theorem defaultDir_ne_nil (env : Env) : env.defaultDir ≠ [] := by
  intro h
  have hcomponents := congrArg components h
  unfold Env.defaultDir at hcomponents
  rw [components_join (by decide)] at hcomponents
  exact List.append_ne_nil_of_right_ne_nil _ (List.cons_ne_nil _ _) hcomponents

/-- What is followed through the overrides; most of them keep it. -/
def ClawDBConfig.followed (config : ClawDBConfig) : PathBuf × String × List PathBuf :=
  (config.dataDir, config.guard.jwtSecret, config.paths)

section Followed

variable {env : Env} {name : String} {config config' : ClawDBConfig}

/-- An override whose value is parsed. -/
theorem override_parsed {α : Type} {parse : String → Except ClawDBError α}
    {set : α → ClawDBConfig → ClawDBConfig}
    (h : env.override name (fun value config => do
      let a ← parse value
      pure (set a config)) config = .ok config')
    (hset : ∀ a config, (set a config).followed = config.followed) :
    config'.followed = config.followed ∧
      ∀ value, env.var name = some value → ∃ a, parse value = .ok a := by
  rcases override_ok.mp h with ⟨hnone, rfl⟩ | ⟨value, hsome, h⟩
  · exact ⟨rfl, fun value hv => nomatch hnone.symm.trans hv⟩
  · obtain ⟨a, ha, h⟩ := except_bind_ok.mp h
    obtain rfl := Except.ok.inj h
    refine ⟨hset a config, fun value' hv => ⟨a, ?_⟩⟩
    rw [Option.some.inj (hv.symm.trans hsome)]
    exact ha

theorem exists_override_parsed {α : Type} {parse : String → Except ClawDBError α}
    {set : α → ClawDBConfig → ClawDBConfig}
    (h : ∀ value, env.var name = some value → ∃ a, parse value = .ok a) :
    ∃ config', env.override name (fun value config => do
      let a ← parse value
      pure (set a config)) config = .ok config' := by
  unfold Env.override
  cases hv : env.var name with
  | none => exact ⟨config, rfl⟩
  | some value => exact exists_bind (h value hv) fun a => ⟨set a config, rfl⟩

end Followed

/-- A secret that is not blank and not the built-in one. -/
def Strong (secret : String) : Prop := Text.trim secret ≠ "" ∧ secret ≠ "change-me"

theorem not_strong_default : ¬Strong "change-me" := fun h => h.2 rfl

section Loading

variable [ConfigCrates] {env : Env} {config config' : ClawDBConfig}

/-- What the variables that are parsed must be for loading to go on. -/
structure Parsable (env : Env) : Prop where
  workspaceId : ∀ value, env.var "CLAW_WORKSPACE_ID" = some value →
    ∃ id, parseUuid value "CLAW_WORKSPACE_ID" = .ok id
  agentId : ∀ value, env.var "CLAW_AGENT_ID" = some value →
    ∃ id, parseUuid value "CLAW_AGENT_ID" = .ok id
  vectorEnabled : ∀ value, env.var "CLAW_VECTOR_ENABLED" = some value →
    ∃ enabled, parseBool value = .ok enabled

/-- What overriding makes of what is followed. -/
structure Overridden (env : Env) (config config' : ClawDBConfig) : Prop where
  dataDir : config'.dataDir = ((env.var "CLAW_DATA_DIR").map path).getD config.dataDir
  jwtSecret : config'.guard.jwtSecret =
    (env.var "CLAW_GUARD_JWT_SECRET").getD config.guard.jwtSecret
  paths : env.var "CLAW_GUARD_POLICY_DIR" = none → config'.paths = config.paths

theorem applyEnvOverrides_ok (h : applyEnvOverrides env config = .ok config') :
    Parsable env ∧ Overridden env config config' := by
  unfold applyEnvOverrides at h
  obtain ⟨c₁, h₁, h⟩ := except_bind_ok.mp h
  obtain ⟨c₂, h₂, h⟩ := except_bind_ok.mp h
  obtain ⟨c₃, h₃, h⟩ := except_bind_ok.mp h
  obtain ⟨c₄, h₄, h⟩ := except_bind_ok.mp h
  obtain ⟨c₅, h₅, h⟩ := except_bind_ok.mp h
  obtain ⟨c₆, h₆, h⟩ := except_bind_ok.mp h
  obtain ⟨c₇, h₇, h⟩ := except_bind_ok.mp h
  obtain ⟨c₈, h₈, h⟩ := except_bind_ok.mp h
  obtain ⟨c₉, h₉, h⟩ := except_bind_ok.mp h
  obtain ⟨c₁₀, h₁₀, h⟩ := except_bind_ok.mp h
  obtain ⟨c₁₁, h₁₁, h₁₂⟩ := except_bind_ok.mp h
  obtain ⟨k₂, hworkspace⟩ := override_parsed h₂ fun _ _ => rfl
  obtain ⟨k₃, hagent⟩ := override_parsed h₃ fun _ _ => rfl
  have k₄ := override_keeps ClawDBConfig.followed h₄ fun _ => rfl
  have k₅ := override_keeps ClawDBConfig.followed h₅ fun _ => rfl
  have k₆ := override_keeps ClawDBConfig.followed h₆ fun _ => rfl
  obtain ⟨k₇, henabled⟩ := override_parsed h₇ fun _ _ => rfl
  have k₈ := override_keeps ClawDBConfig.followed h₈ fun _ => rfl
  have k₁₁ := override_keeps ClawDBConfig.followed h₁₁ fun _ => rfl
  have k₁₂ := override_keeps ClawDBConfig.followed h₁₂ fun _ => rfl
  -- the directory, the secret and the policy directory are the ones that do not keep it
  have hmiddle : c₈.followed = c₁.followed := by rw [k₈, k₇, k₆, k₅, k₄, k₃, k₂]
  have hlast : config'.followed = c₁₀.followed := by rw [k₁₂, k₁₁]
  have hdataDir := override_value ClawDBConfig.dataDir h₁
  have hsecret := override_value (fun c => c.guard.jwtSecret) h₉
  refine ⟨⟨hworkspace, hagent, henabled⟩, ?_, ?_, fun hpolicy => ?_⟩
  · calc config'.dataDir = c₁₀.dataDir := congrArg Prod.fst hlast
      _ = c₉.dataDir := override_keeps ClawDBConfig.dataDir h₁₀ fun _ => rfl
      _ = c₈.dataDir := override_keeps ClawDBConfig.dataDir h₉ fun _ => rfl
      _ = c₁.dataDir := congrArg Prod.fst hmiddle
      _ = _ := hdataDir
  · have hkept : c₈.guard.jwtSecret = config.guard.jwtSecret :=
      (congrArg (·.2.1) hmiddle).trans (override_keeps (fun c => c.guard.jwtSecret) h₁ fun _ => rfl)
    calc config'.guard.jwtSecret = c₁₀.guard.jwtSecret := congrArg (·.2.1) hlast
      _ = c₉.guard.jwtSecret := override_keeps (fun c => c.guard.jwtSecret) h₁₀ fun _ => rfl
      _ = _ := by rw [hsecret, hkept, Option.map_id']
  · have hpaths := override_value ClawDBConfig.paths h₁₀
    rw [hpolicy] at hpaths
    calc config'.paths = c₁₀.paths := congrArg (·.2.2) hlast
      _ = c₉.paths := hpaths
      _ = c₈.paths := override_keeps ClawDBConfig.paths h₉ fun _ => rfl
      _ = c₁.paths := congrArg (·.2.2) hmiddle
      _ = config.paths := override_keeps ClawDBConfig.paths h₁ fun _ => rfl

theorem exists_applyEnvOverrides (h : Parsable env) (config : ClawDBConfig) :
    ∃ config', applyEnvOverrides env config = .ok config' := by
  unfold applyEnvOverrides
  exact exists_bind exists_override_pure fun _ =>
    exists_bind (exists_override_parsed h.workspaceId) fun _ =>
    exists_bind (exists_override_parsed h.agentId) fun _ =>
    exists_bind exists_override_pure fun _ => exists_bind exists_override_pure fun _ =>
    exists_bind exists_override_pure fun _ =>
    exists_bind (exists_override_parsed h.vectorEnabled) fun _ =>
    exists_bind exists_override_pure fun _ => exists_bind exists_override_pure fun _ =>
    exists_bind exists_override_pure fun _ => exists_bind exists_override_pure fun _ =>
    exists_override_pure

/-! ## The signing secret -/

theorem fromFile_ok {file : PathBuf} (h : fromFile env file = .ok config) :
    ∃ read, readFile env file = .ok read ∧ Strong config.guard.jwtSecret ∧
      Overridden env (if read.dataDir = [] then { read with dataDir := parentDir file } else read)
        config := by
  obtain ⟨read, hread, h⟩ := except_bind_ok.mp h
  obtain ⟨c, hc, h⟩ := except_bind_ok.mp h
  split at h
  next => cases h
  next hsecret =>
    obtain rfl := Except.ok.inj h
    exact ⟨read, hread, not_or.mp hsecret, (applyEnvOverrides_ok hc).2⟩

theorem exists_fromFile (hparsable : Parsable env) {file : PathBuf}
    (hread : readFile env file = .ok config) {secret : String}
    (hsecret : env.var "CLAW_GUARD_JWT_SECRET" = some secret) (hstrong : Strong secret) :
    ∃ config', fromFile env file = .ok config' := by
  refine exists_bind ⟨config, hread⟩ fun read => ?_
  obtain ⟨config', hconfig⟩ := exists_applyEnvOverrides hparsable
    (if read.dataDir = [] then { read with dataDir := parentDir file } else read)
  refine ⟨config', except_bind_ok.mpr ⟨config', hconfig, if_neg ?_⟩⟩
  rw [(applyEnvOverrides_ok hconfig).2.jwtSecret, hsecret, Option.getD_some]
  exact not_or.mpr hstrong

theorem fromEnv_ok (h : fromEnv env = .ok config) : Parsable env ∧
    env.var "CLAW_GUARD_JWT_SECRET" = some config.guard.jwtSecret ∧
      Overridden env (defaultForDir env env.dataDir) config := by
  obtain ⟨c, hc, h⟩ := except_bind_ok.mp h
  obtain ⟨hparsable, hoverridden⟩ := applyEnvOverrides_ok hc
  split at h
  next => cases h
  next hsecret =>
    obtain rfl := Except.ok.inj h
    refine ⟨hparsable, ?_, hoverridden⟩
    have hjwt := hoverridden.jwtSecret
    cases hv : env.var "CLAW_GUARD_JWT_SECRET" with
    | none =>
        rw [hv] at hjwt
        exact absurd ⟨hv, hjwt⟩ hsecret
    | some secret =>
        rw [hv] at hjwt
        exact congrArg some hjwt.symm

theorem exists_fromEnv (hparsable : Parsable env) {secret : String}
    (hsecret : env.var "CLAW_GUARD_JWT_SECRET" = some secret) :
    ∃ config, fromEnv env = .ok config ∧ config.guard.jwtSecret = secret := by
  obtain ⟨config, hconfig⟩ :=
    exists_applyEnvOverrides hparsable (defaultForDir env env.dataDir)
  refine ⟨config, except_bind_ok.mpr ⟨config, hconfig, ?_⟩, ?_⟩
  · rw [if_neg]
    · rfl
    · rintro ⟨hnone, -⟩
      rw [hsecret] at hnone
      cases hnone
  · rw [(applyEnvOverrides_ok hconfig).2.jwtSecret, hsecret]
    rfl

/-- Loading from the environment ends with an error, or the variable holds a strong secret. -/
def Env.Checked (env : Env) : Prop :=
  Parsable env → ∀ secret, env.var "CLAW_GUARD_JWT_SECRET" = some secret → Strong secret

theorem fromEnv_strong_iff :
    (∀ config, fromEnv env = .ok config → Strong config.guard.jwtSecret) ↔ env.Checked := by
  constructor
  · intro h hparsable secret hsecret
    obtain ⟨config, hconfig, rfl⟩ := exists_fromEnv hparsable hsecret
    exact h config hconfig
  · intro h config hconfig
    obtain ⟨hparsable, hsecret, -⟩ := fromEnv_ok hconfig
    exact h hparsable _ hsecret

end Loading

/-! ## Where a loader reads from -/

inductive Source where
  | env
  | toml (file : PathBuf)
  | default (dataDir : PathBuf)

/-- The source `load_or_default` takes. -/
def Source.dir (env : Env) (dataDir : PathBuf) : Source :=
  if env.pathExists (configToml dataDir) then .toml (configToml dataDir) else .default dataDir

def Loader.source (env : Env) : Loader → Source
  | .fromEnv | .openDefault => .env
  | .fromFile file => .toml file
  | .loadOrDefault dataDir | .openDir dataDir => .dir env dataDir
  | .server config _ => config.elim .env .toml

/-- The server's flags can be refused. -/
def Loader.Runs (env : Env) : Loader → Prop
  | .server config dataDir => (Args.parse env config dataDir).isSome
  | _ => True

/-- The directory is set after reading by those that are given one. -/
def Loader.finish (env : Env) : Loader → ClawDBConfig → ClawDBConfig
  | .openDir dataDir, config => { config with dataDir := dataDir }
  | .server _ dataDir, config =>
      { config with dataDir := (dataDir.or (env.varOs "CLAW_DATA_DIR")).getD config.dataDir }
  | _, config => config

section Sources

variable {env : Env} {config : ClawDBConfig}

theorem finish_guard (loader : Loader) : (loader.finish env config).guard = config.guard := by
  cases loader <;> rfl

theorem finish_paths (loader : Loader) : (loader.finish env config).paths = config.paths := by
  cases loader <;> rfl

variable [ConfigCrates]

def Source.read (env : Env) : Source → Except ClawDBError ClawDBConfig
  | .env => fromEnv env
  | .toml file => fromFile env file
  | .default dataDir => .ok (defaultForDir env dataDir)

theorem loadOrDefault_eq (env : Env) (dataDir : PathBuf) :
    loadOrDefault env dataDir = (Source.dir env dataDir).read env := by
  unfold loadOrDefault Source.dir
  split <;> rfl

theorem loadConfig_ok {args : Args} : loadConfig env args = .ok config ↔
    ∃ read, (Source.read env (args.config.elim .env .toml)) = .ok read ∧
      { read with dataDir := args.dataDir.getD read.dataDir } = config := by
  obtain ⟨file, dataDir⟩ := args
  cases file <;> cases dataDir <;> exact except_map_ok

theorem openDir_ok {dataDir : PathBuf} : openDir env dataDir = .ok config ↔
    ∃ read, (Source.dir env dataDir).read env = .ok read ∧
      { read with dataDir := dataDir } = config := by
  unfold openDir
  rw [loadOrDefault_eq]
  exact except_map_ok

/-- A loader reads from its source and sets the directory. -/
theorem load_iff {loader : Loader} : loader.load env = some config ↔
    loader.Runs env ∧ ∃ read, (loader.source env).read env = .ok read ∧
      loader.finish env read = config := by
  have hplain : ∀ x : Except ClawDBError ClawDBConfig, x.toOption = some config ↔
      True ∧ ∃ read, x = .ok read ∧ read = config := by
    intro x
    rw [toOption_eq_some, true_and]
    exact ⟨fun h => ⟨config, h, rfl⟩, fun ⟨_, h, hc⟩ => hc ▸ h⟩
  cases loader with
  | fromEnv => exact hplain _
  | openDefault => exact hplain _
  | fromFile file => exact hplain _
  | loadOrDefault dataDir =>
      show (loadOrDefault env dataDir).toOption = some config ↔ _
      rw [loadOrDefault_eq]
      exact hplain _
  | openDir dataDir =>
      show (openDir env dataDir).toOption = some config ↔ True ∧ _
      rw [toOption_eq_some, openDir_ok, true_and]
      exact Iff.rfl
  | server file dataDir =>
      simp only [Loader.load, Loader.Runs, Args.parse]
      split
      · exact iff_of_false (fun h => nomatch h) fun h => nomatch h.1
      · rw [Option.bind_some, toOption_eq_some, loadConfig_ok]
        exact ⟨fun h => ⟨rfl, h⟩, fun h => h.2⟩

/-! ## Who checks the secret -/

/-- The conditions under which a source gives no configuration with a blank or built-in
secret. -/
def Source.Checked (env : Env) : Source → Prop
  | .env => env.Checked
  | .toml _ => True
  | .default _ => False

def Loader.Checked (env : Env) (loader : Loader) : Prop :=
  loader.Runs env → (loader.source env).Checked env

theorem source_strong_iff {source : Source} :
    (∀ config, source.read env = .ok config → Strong config.guard.jwtSecret) ↔
      source.Checked env := by
  cases source with
  | env => exact fromEnv_strong_iff
  | toml file =>
      refine iff_of_true (fun config h => ?_) trivial
      obtain ⟨_, -, hstrong, -⟩ := fromFile_ok h
      exact hstrong
  | default dataDir =>
      refine iff_of_false (fun h => ?_) id
      have hdefault := h (defaultForDir env dataDir) rfl
      exact not_strong_default hdefault

/-- A loader hands out strong secrets only exactly when it is checked. -/
theorem secret_strong_iff (env : Env) (loader : Loader) :
    (∀ config, loader.load env = some config → Strong config.guard.jwtSecret) ↔
      loader.Checked env := by
  unfold Loader.Checked
  rw [← source_strong_iff]
  constructor
  · intro h hruns read hread
    have hstrong := h _ (load_iff.mpr ⟨hruns, read, hread, rfl⟩)
    rwa [finish_guard] at hstrong
  · intro h config hload
    obtain ⟨hruns, read, hread, rfl⟩ := load_iff.mp hload
    rw [finish_guard]
    exact h hruns read hread

/-! ## Which directory the paths are in -/

/-- The directory the default paths of a source are taken from. -/
def Source.root (env : Env) : Source → PathBuf
  | .env => env.dataDir
  | .toml _ => env.defaultDir
  | .default dataDir => dataDir

/-- Nor do the file that is read and the environment. -/
structure Source.PathsUnset (env : Env) (source : Source) : Prop where
  policyDir : env.var "CLAW_GUARD_POLICY_DIR" = none
  file : ∀ file raw given, source = .toml file → env.readToString file = .ok raw →
    ConfigCrates.fromStr raw = .ok given → given.PathsUnset

theorem read_paths {source : Source} (hunset : source.PathsUnset env)
    (h : source.read env = .ok config) :
    config.paths = (defaultForDir env (source.root env)).paths := by
  cases source with
  | env => exact (fromEnv_ok h).2.2.paths hunset.policyDir
  | default dataDir => rw [← Except.ok.inj h]; rfl
  | toml file =>
      obtain ⟨read, hread, -, hoverridden⟩ := fromFile_ok h
      rw [hoverridden.paths hunset.policyDir]
      obtain ⟨raw, hraw, hread⟩ := except_bind_ok.mp hread
      obtain ⟨given, hgiven, hread⟩ := except_bind_ok.mp hread
      obtain rfl := Except.ok.inj hread
      have hpaths := paths_orDefault (hunset.file file raw given rfl (mapError_ok.mp hraw)
        (mapError_ok.mp hgiven)) (.default env)
      split
      next => exact hpaths
      next => exact hpaths

/-- The default paths for `root` lie under `d` when `root` does, and `d` can be written in the
text that is the guard's path. -/
theorem default_under_iff {root d : PathBuf} :
    (∀ p ∈ (defaultForDir env root).paths, Under d p) ↔ Under d root ∧ (toStr d).isSome := by
  have hguard : Under d root → (Under d (osString (display (join root (path "claw_guard.db")))) ↔
      (toStr d).isSome) :=
    fun h => under_display_iff (h.trans (under_join (by decide)))
  constructor
  · intro h
    have hroot : Under d root := under_of_names (q := path "claw.db") (by decide)
      (show IsName (path "claw_vector.db") by decide) (by decide)
      (h _ (.head _)) (h _ (.tail _ (.head _)))
    refine ⟨hroot, (hguard hroot).mp (h _ ?_)⟩
    simp [ClawDBConfig.paths, defaultForDir]
  · rintro ⟨hroot, htext⟩ p hp
    have hunder : ∀ {q : OsString}, IsName q → Under d (join root q) :=
      fun hq => hroot.trans (under_join hq)
    have hmem : p ∈ [join root (path "claw.db"), join root (path "claw_vector.db"),
        join root (path "claw_vector_indices"), join root (path "branches"),
        join (join root (path "branches")) (path "branch_registry.db"), join root (path "sync"),
        join root (path "claw.db"), osString (display (join root (path "claw_guard.db"))),
        join root (path "policies"), join root (path "plugins")] := hp
    simp only [List.mem_cons, List.not_mem_nil, or_false] at hmem
    rcases hmem with rfl | rfl | rfl | rfl | rfl | rfl | rfl | rfl | rfl | rfl
    · exact hunder (by decide)
    · exact hunder (by decide)
    · exact hunder (by decide)
    · exact hunder (by decide)
    · exact (hunder (by decide)).trans (under_join (by decide))
    · exact hunder (by decide)
    · exact hunder (by decide)
    · exact (hguard hroot).mpr htext
    · exact hunder (by decide)
    · exact hunder (by decide)

/-- The name of a default database tells which one it is. -/
theorem default_database {root p : PathBuf} (hp : p ∈ (defaultForDir env root).databases) :
    ∃ (base : List Component) (name : OsString), components p = base ++ [.normal name] ∧
      ((base = components root ∧ (name = path "claw.db" ∨ name = path "claw_vector.db")) ∨
      (base = components root ++ [.normal (path "branches")] ∧
        name = path "branch_registry.db") ∨
      (base = components (osString (display root)) ∧ name = path "claw_guard.db")) := by
  have hmem : p ∈ [join root (path "claw.db"), join root (path "claw_vector.db"),
      join (join root (path "branches")) (path "branch_registry.db"), join root (path "claw.db"),
      osString (display (join root (path "claw_guard.db")))] := hp
  simp only [List.mem_cons, List.not_mem_nil, or_false] at hmem
  rcases hmem with rfl | rfl | rfl | rfl | rfl
  · exact ⟨_, _, components_join (by decide), .inl ⟨rfl, .inl rfl⟩⟩
  · exact ⟨_, _, components_join (by decide), .inl ⟨rfl, .inr rfl⟩⟩
  · exact ⟨_, _, components_join (by decide),
      .inr (.inl ⟨components_join (by decide), rfl⟩)⟩
  · exact ⟨_, _, components_join (by decide), .inl ⟨rfl, .inl rfl⟩⟩
  · exact ⟨_, _, components_guard root, .inr (.inr ⟨rfl, rfl⟩)⟩

theorem default_shares_iff {env' : Env} {root root' : PathBuf} :
    (defaultForDir env root).Shares (defaultForDir env' root') ↔
      Same (osString (display root)) (osString (display root')) := by
  constructor
  · rintro ⟨p, hp, q, hq, hsame⟩
    obtain ⟨base, name, hpath, hbase⟩ := default_database hp
    obtain ⟨base', name', hpath', hbase'⟩ := default_database hq
    unfold Same at hsame ⊢
    rw [hpath, hpath'] at hsame
    obtain ⟨rfl, hname⟩ := List.append_inj' hsame rfl
    obtain rfl := Component.normal.inj (List.cons.inj hname).1
    have hdisplay : components root = components root' →
        components (osString (display root)) = components (osString (display root')) := by
      intro h
      rw [osString_display, osString_display, components_lossy, components_lossy, h]
    rcases hbase with ⟨rfl, h⟩ | ⟨rfl, rfl⟩ | ⟨rfl, rfl⟩
    · rcases hbase' with ⟨hroot, -⟩ | ⟨-, rfl⟩ | ⟨-, rfl⟩
      · exact hdisplay hroot
      · exact absurd h (by decide)
      · exact absurd h (by decide)
    · rcases hbase' with ⟨-, h⟩ | ⟨hroot, -⟩ | ⟨-, h⟩
      · exact absurd h (by decide)
      · exact hdisplay (List.append_cancel_right hroot)
      · exact absurd h (by decide)
    · rcases hbase' with ⟨-, h⟩ | ⟨-, h⟩ | ⟨hroot, -⟩
      · exact absurd h (by decide)
      · exact absurd h (by decide)
      · exact hroot
  · intro h
    refine ⟨osString (display (join root (path "claw_guard.db"))), ?_,
      osString (display (join root' (path "claw_guard.db"))), ?_, ?_⟩
    · simp [ClawDBConfig.databases, defaultForDir]
    · simp [ClawDBConfig.databases, defaultForDir]
    · unfold Same at h ⊢
      rw [components_guard, components_guard, h]

/-! ## The directory that was asked for -/

/-- The file `file` sets no directory. -/
def OmitsDataDir (env : Env) (file : PathBuf) : Prop :=
  ∀ raw given, env.readToString file = .ok raw → ConfigCrates.fromStr raw = .ok given →
    given.dataDir = none

/-- The directory of a file that sets none is the environment's. -/
theorem fromFile_dataDir {file : PathBuf} (homits : OmitsDataDir env file)
    (h : fromFile env file = .ok config) : config.dataDir = env.dataDir := by
  obtain ⟨read, hread, -, hoverridden⟩ := fromFile_ok h
  obtain ⟨raw, hraw, hread⟩ := except_bind_ok.mp hread
  obtain ⟨given, hgiven, hread⟩ := except_bind_ok.mp hread
  obtain rfl := Except.ok.inj hread
  have hdir : (given.orDefault (.default env)).dataDir = env.defaultDir := by
    show given.dataDir.getD env.defaultDir = _
    rw [homits raw given (mapError_ok.mp hraw) (mapError_ok.mp hgiven)]
    rfl
  rw [hoverridden.dataDir, if_neg (by rw [hdir]; exact defaultDir_ne_nil env), hdir]
  rfl

/-- Where a loaded configuration keeps its data: under `D` exactly when the defaults were taken
from a directory under `D`; a file that sets no directory stands for its own only by chance;
and two configurations open one database exactly when they share the defaults' directory. -/
theorem data_dir_kept_iff (env : Env) :
    (∀ loader : Loader, (loader.source env).PathsUnset env → ∀ config,
      loader.load env = some config → ∀ D, (∀ p ∈ config.paths, Under D p) ↔
        Under D ((loader.source env).root env) ∧ (toStr D).isSome) ∧
    (∀ file config, fromFile env file = .ok config → OmitsDataDir env file →
      (Same config.dataDir (parentDir file) ↔ Same env.dataDir (parentDir file))) ∧
    ∀ (env' : Env) (loader loader' : Loader), (loader.source env).PathsUnset env →
      (loader'.source env').PathsUnset env' → ∀ config config',
        loader.load env = some config → loader'.load env' = some config' →
          (config.Shares config' ↔ Same (osString (display ((loader.source env).root env)))
            (osString (display ((loader'.source env').root env')))) := by
  have hpaths : ∀ {env : Env} {loader : Loader} {config : ClawDBConfig},
      (loader.source env).PathsUnset env → loader.load env = some config →
        config.paths = (defaultForDir env ((loader.source env).root env)).paths := by
    intro env loader config hunset hload
    obtain ⟨-, read, hread, rfl⟩ := load_iff.mp hload
    rw [finish_paths]
    exact read_paths hunset hread
  refine ⟨?_, ?_, ?_⟩
  · intro loader hunset config hload D
    rw [hpaths hunset hload]
    exact default_under_iff
  · intro file config hload homits
    rw [fromFile_dataDir homits hload]
  · intro env' loader loader' hunset hunset' config config' hload hload'
    unfold ClawDBConfig.Shares
    rw [databases_eq (hpaths hunset hload), databases_eq (hpaths hunset' hload')]
    exact default_shares_iff

end Sources

/-! ## Two environments -/

/-- The directory a loader is asked for. -/
def Loader.asked (env : Env) : Loader → Option PathBuf
  | .loadOrDefault dataDir | .openDir dataDir => some dataDir
  | .server _ dataDir => dataDir.or (env.varOs "CLAW_DATA_DIR")
  | .fromEnv | .openDefault | .fromFile _ => (env.var "CLAW_DATA_DIR").map path

section Witnesses

attribute [local instance] ConfigCrates.sample

/-- No variable is set, and there is no file. -/
def bareEnv : Env where
  varOs _ := none
  homeDir := some (path "/home/u")
  pathExists _ := false
  readToString _ := .error "No such file or directory"

/-- A directory without a `config.toml` is opened with the built-in secret. -/
theorem open_builtin_secret :
    ¬ ∀ env (loader : Loader) config, loader.load env = some config →
      Strong config.guard.jwtSecret := by
  intro hclaim
  have hload : (Loader.openDir (path "/data")).load bareEnv =
      some ((Loader.openDir (path "/data")).finish bareEnv
        (defaultForDir bareEnv (path "/data"))) :=
    load_iff.mpr ⟨trivial, defaultForDir bareEnv (path "/data"), rfl, rfl⟩
  have hstrong := hclaim _ _ _ hload
  rw [finish_guard] at hstrong
  exact not_strong_default hstrong

/-- The secret is set, and every `config.toml` is empty. -/
def emptyFiles : Env where
  varOs name := if name = "CLAW_GUARD_JWT_SECRET" then some (osString "s3cret") else none
  homeDir := some (path "/home/u")
  pathExists _ := true
  readToString _ := .ok ""

theorem parsable_emptyFiles : Parsable emptyFiles where
  workspaceId _ h := nomatch h
  agentId _ h := nomatch h
  vectorEnabled _ h := nomatch h

theorem fromFile_emptyFiles (file : PathBuf) : ∃ config, fromFile emptyFiles file = .ok config :=
  exists_fromFile parsable_emptyFiles rfl rfl ⟨by decide, by decide⟩

theorem emptyFiles_unset (loader : Loader) : (loader.source emptyFiles).PathsUnset emptyFiles where
  policyDir := rfl
  file _ raw given _ hraw hgiven := by
    obtain rfl := Except.ok.inj hraw
    obtain rfl := Except.ok.inj hgiven
    constructor <;> intro _ h <;> cases h

theorem root_emptyFiles (dataDir : PathBuf) :
    ((Loader.openDir dataDir).source emptyFiles).root emptyFiles = path "/home/u/.clawdb" := rfl

theorem open_emptyFiles (dataDir : PathBuf) :
    ∃ config, (Loader.openDir dataDir).load emptyFiles = some config := by
  obtain ⟨read, hread⟩ := fromFile_emptyFiles (configToml dataDir)
  exact ⟨_, load_iff.mpr ⟨trivial, read, hread, rfl⟩⟩

/-- A directory with a `config.toml` that sets nothing is opened with the databases of the home
directory. -/
theorem open_elsewhere :
    ¬ ∀ env (loader : Loader) config D, (loader.source env).PathsUnset env →
      loader.load env = some config → loader.asked env = some D →
        ∀ p ∈ config.paths, Under D p := by
  intro hclaim
  obtain ⟨config, hload⟩ := open_emptyFiles (path "/data")
  have hall := hclaim _ _ _ (path "/data") (emptyFiles_unset _) hload rfl
  obtain ⟨-, read, hread, rfl⟩ := load_iff.mp hload
  rw [finish_paths, read_paths (emptyFiles_unset _) hread, default_under_iff] at hall
  exact absurd hall.1 (by decide)

theorem data_dir_kept_empty :
    ∃ config config' config'',
      (Loader.openDir (path "/a")).load emptyFiles = some config ∧
      (Loader.openDir (path "/b")).load emptyFiles = some config' ∧
      fromFile emptyFiles (path "/data/config.toml") = .ok config'' ∧
      (∀ p ∈ config.paths, Under (path "/home/u") p) ∧ config.Shares config' ∧
      ¬Same config''.dataDir (parentDir (path "/data/config.toml")) := by
  obtain ⟨hunder, hparent, hshares⟩ := data_dir_kept_iff emptyFiles
  obtain ⟨config, hload⟩ := open_emptyFiles (path "/a")
  obtain ⟨config', hload'⟩ := open_emptyFiles (path "/b")
  obtain ⟨config'', hload''⟩ := fromFile_emptyFiles (path "/data/config.toml")
  have homits : OmitsDataDir emptyFiles (path "/data/config.toml") := by
    intro raw given hraw hgiven
    obtain rfl := Except.ok.inj hraw
    obtain rfl := Except.ok.inj hgiven
    rfl
  refine ⟨config, config', config'', hload, hload', hload'', ?_, ?_, ?_⟩
  · rw [hunder _ (emptyFiles_unset _) config hload, root_emptyFiles]
    exact ⟨by decide, by decide⟩
  · rw [hshares _ _ _ (emptyFiles_unset _) (emptyFiles_unset _) _ _ hload hload',
      root_emptyFiles, root_emptyFiles]
    rfl
  · rw [hparent _ _ hload'' homits]
    decide

end Witnesses

end ClawDB
