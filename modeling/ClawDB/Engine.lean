/-
# `ClawDB.Engine` — the wrapper over the component crates

Every method of `ClawDB` that touches a component, in the order of the source.
A method is a program over the operations of `Effects`; `?` on an awaited call is
`Try.of`, with the conversion `ClawDBError` has for that crate's error.

Objects built by `json!` list their members in key order, as the map behind
`serde_json::Value` does.
-/
import ClawDB.Effects

namespace ClawDB

open Effect
open Json (Value)

/-- The wrapper, as far as its methods read it: which optional components were
initialised, and the workspace. -/
structure ClawDBEngine where
  workspaceId : Uuid
  vector : Bool
  reflectClient : Bool
  syncLocalOnly : Bool

/-- A core transaction, and the vector work staged for its commit. -/
structure ClawTransaction where
  inner : TxHandle
  vector : Bool
  workspaceId : String
  pendingVectorUpserts : List (String × Value)

variable [Crates]

/-- `Serialize for Uuid`. -/
def uuid (id : Uuid) : Value := .string (Crates.uuidToString id)

/-- Ids that print differently. -/
def PrintApart (ids : List Uuid) : Prop :=
  ∀ id ∈ ids, ∀ id' ∈ ids, Crates.uuidToString id = Crates.uuidToString id' → id = id'

/-- `Serialize for Vec<String>`. -/
def strings (ss : List String) : Value := .array (ss.map .string)

/-! ## Free functions -/

def parseMemoryType (value : String) : MemoryType :=
  match Text.toAsciiLowercase (Text.trim value) with
  | "semantic" | "context" | "message" => .semantic
  | "episodic" => .episodic
  | "working" => .working
  | "procedural" => .procedural
  | _ => .semantic

def metadataMatches (metadata filter : Value) : Bool :=
  match filter with
  | .object expected => expected.all fun kv => decide (metadata.get kv.1 = some kv.2)
  | _ => true

/-- The view of a core record that full-text filters are matched against. -/
def memoryRecordView (record : MemoryRecord) : Value :=
  .object [("content", .string record.content),
    ("id", uuid record.id),
    ("memory_type", .string (Crates.asStr record.memoryType)),
    ("tags", strings record.tags)]

def memoryRecordMatches (record : MemoryRecord) (filter : Value) : Bool :=
  metadataMatches (memoryRecordView record) filter

def searchResultToHit (result : SearchResult) : SearchHit where
  id := result.id
  score := result.score
  content := result.text.getD ""
  memoryType := ((result.metadata.get "memory_type").bind Value.asStr).getD "semantic"
  tags := (((result.metadata.get "tags").bind Value.asArray).map
    fun values => values.filterMap Value.asStr).getD []
  metadata := result.metadata

/-- The bits of `1.0_f32`. -/
def scoreOne : F32 := 0x3F800000

/-- How full-text search presents a record. -/
def recordToHit (record : MemoryRecord) : SearchHit where
  id := record.id
  score := scoreOne
  content := record.content
  memoryType := Crates.asStr record.memoryType
  tags := record.tags
  metadata := .null

def scopeMatches (granted required : String) : Bool :=
  granted == "*" || granted == required ||
    (Text.stripSuffix granted ":*").any fun prefix' => Text.startsWith required (prefix' ++ ":")

def mapGuardSessionError : GuardError → ClawDBError
  | .sessionExpired | .sessionRevoked | .invalidToken => .sessionInvalid
  | .other m => .guard (.other m)

/-- The metadata `remember_typed` hands to the vector engine. -/
def vectorMetadata (memoryId : Uuid) (record : MemoryRecord) (metadata : Value) : Value :=
  .object [("memory_id", uuid memoryId),
    ("memory_type", .string (Crates.asStr record.memoryType)),
    ("metadata", metadata),
    ("tags", strings record.tags)]

/-- `claw_core::MemoryRecord::new`, which draws the record's id. -/
def MemoryRecord.new (content : String) (memoryType : MemoryType) (tags : List String) :
    Eng MemoryRecord := do
  let id ← Try.lift (Eng.host .newV4)
  pure ⟨id, content, memoryType, tags⟩

/-! ## Inside the wrapper -/

def GuardSession.toSession (s : GuardSession) : ClawDBSession :=
  ⟨s.id, s.agentId, s.workspaceId, s.role, s.scopes, s.token, s.expiresAt⟩

namespace ClawDBEngine

def emit (event : ClawEvent) : Eng Unit := Try.lift (Eng.host (.emit event))

def count (m : Metric) : Eng Unit := Try.lift (Eng.host (.count m))

def permits (scopes accepted : List String) : Bool :=
  accepted.any fun required => scopes.any fun granted => scopeMatches granted required

def authorize (session : ClawDBSession) (acceptedScopes : List String) : Eng Unit := do
  let _ ← Try.of (Eng.guard (.validateSession session.token)) mapGuardSessionError
  if permits session.scopes acceptedScopes then
    pure ()
  else
    count .sessionDenied
    emit (.policyDenied session.agentId (acceptedScopes.head?.getD "unknown")
      "required scope missing")
    throw (.permissionDenied "required scope missing")

variable (db : ClawDBEngine)

/-! ## Sessions -/

def sessionWithTtl (agentId : Uuid) (role : String) (scopes : List String) (ttlSecs : Int) :
    Eng ClawDBSession := do
  let session ← Try.of (Eng.guard (.createSession agentId db.workspaceId role scopes
    (max ttlSecs 1).toNat)) .guard
  count .sessionCreated
  emit (.sessionCreated session.id agentId)
  -- the caller's own list, not the guard's
  pure { session.toSession with scopes := scopes }

def session (agentId : Uuid) (role : String) (scopes : List String) : Eng ClawDBSession :=
  db.sessionWithTtl agentId role scopes 3600

/-! ## Memories -/

/-- The vector half of `remember_typed`: whether the memory was indexed.  A failing
upsert is logged; the core write stands. -/
def indexed (session : ClawDBSession) (content : String) (memoryId : Uuid)
    (record : MemoryRecord) (metadata : Value) : Eng Bool :=
  if db.vector then do
    let reply ← Try.lift (Eng.vector (.upsertInWorkspace
      (Crates.uuidToString session.workspaceId) "memories" content
      (vectorMetadata memoryId record metadata)))
    pure reply.isOk
  else
    pure false

def rememberTyped (session : ClawDBSession) (content memoryType : String) (tags : List String)
    (metadata : Value) : Eng RememberResult := do
  authorize session ["memory:write", "memory:*", "*"]
  let record ← MemoryRecord.new content (parseMemoryType memoryType) tags
  let memoryId ← Try.of (Eng.core (.insertMemory record)) .core
  let indexed ← db.indexed session content memoryId record metadata
  count (.rememberTotal (Crates.uuidToString session.workspaceId) "ok")
  emit (.memoryWritten (Crates.uuidToString memoryId) session.workspaceId)
  pure ⟨memoryId, indexed⟩

def remember (session : ClawDBSession) (content : String) : Eng RememberResult :=
  db.rememberTyped session content "semantic" [] .null

/-- `top_k.saturating_mul(3).max(top_k)`, in `usize`. -/
def overfetch (topK : Nat) : Nat := max (min (topK * 3) (UInt64.size - 1)) topK

def keeps (matching : Value → Bool) : Option Value → Bool
  | some filter => matching filter
  | none => true

/-- Whether a search goes to the vector engine. -/
def useSemantic (semantic : Bool) : Bool := semantic && db.vector

/-- The two ways `search_with_options` comes by its hits. -/
def hits (session : ClawDBSession) (query : String) (topK : Nat) (semantic : Bool)
    (filter : Option Value) : Eng (List SearchHit) :=
  if db.useSemantic semantic then do
    let results ← Try.of (Eng.vector (.searchTextInWorkspace
      (Crates.uuidToString session.workspaceId) "memories" query (overfetch topK))) .vector
    pure (((results.filter fun r => keeps (metadataMatches r.metadata) filter).take topK).map
      searchResultToHit)
  else do
    let records ← Try.of (Eng.core (.ftsSearch query)) .core
    pure (((records.filter fun r => keeps (memoryRecordMatches r) filter).take topK).map
      recordToHit)

def searchWithOptions (session : ClawDBSession) (query : String) (topK : Nat) (semantic : Bool)
    (filter : Option Value) : Eng (List SearchHit) := do
  authorize session ["memory:read", "memory:search", "memory:*", "*"]
  let hits ← db.hits session query topK semantic filter
  count (.searchTotal (Crates.uuidToString session.workspaceId)
    (if db.useSemantic semantic then "semantic" else "fts"))
  count (.searchHits (Crates.uuidToString session.workspaceId) hits.length)
  emit (.searchExecuted query hits.length)
  pure hits

def search (session : ClawDBSession) (query : String) : Eng (List SearchHit) :=
  db.searchWithOptions session query 10 db.vector none

/-- The `for` loop of `recall`. -/
def getMemories : List Uuid → Eng (List MemoryRecord)
  | [] => pure []
  | id :: ids => do
      let record ← Try.of (Eng.core (.getMemory id)) .core
      let records ← getMemories ids
      pure (record :: records)

def «recall» (session : ClawDBSession) (memoryIds : List Uuid) : Eng (List MemoryRecord) := do
  authorize session ["memory:read", "memory:*", "*"]
  getMemories memoryIds

def recallOne (session : ClawDBSession) (memoryId : Uuid) : Eng MemoryRecord := do
  authorize session ["memory:read", "memory:*", "*"]
  Try.of (Eng.core (.getMemory memoryId)) .core

def listMemories (session : ClawDBSession) (memoryType : Option String) :
    Eng (List MemoryRecord) := do
  authorize session ["memory:read", "memory:*", "*"]
  Try.of (Eng.core (.listMemories (memoryType.map parseMemoryType))) .core

def deleteMemory (session : ClawDBSession) (memoryId : Uuid) : Eng Unit := do
  authorize session ["memory:write", "memory:*", "*"]
  Try.of (Eng.core (.deleteMemory memoryId)) .core

def updateMemory (session : ClawDBSession) (memoryId : Uuid) (content : String) : Eng Unit := do
  authorize session ["memory:write", "memory:*", "*"]
  Try.of (Eng.core (.updateMemory memoryId content)) .core

/-! ## Branches -/

/-- `branch` and `fork_branch` differ in the call that forks. -/
def forked (session : ClawDBSession) (fork : Eng Branch) : Eng Uuid := do
  authorize session ["branch:write", "branch:*", "*"]
  let branch ← fork
  count (.branchOps (Crates.uuidToString session.workspaceId) "fork")
  emit (.branchCreated branch.id branch.name)
  pure branch.id

def branch (session : ClawDBSession) (name : String) : Eng Uuid :=
  forked session (Try.of (Eng.branch (.forkTrunk name)) .branch)

def forkBranch (session : ClawDBSession) (parent : Uuid) (name : String) : Eng Uuid :=
  forked session (Try.of (Eng.branch (.fork parent name)) .branch)

def getBranch (session : ClawDBSession) (branchId : Uuid) : Eng Branch := do
  authorize session ["branch:read", "branch:*", "*"]
  Try.of (Eng.branch (.get branchId)) .branch

def listBranches (session : ClawDBSession) : Eng (List Branch) := do
  authorize session ["branch:read", "branch:*", "*"]
  Try.of (Eng.branch .list) .branch

def getBranchByName (session : ClawDBSession) (name : String) : Eng Branch := do
  authorize session ["branch:read", "branch:*", "*"]
  Try.of (Eng.branch (.getByName name)) .branch

def trunkBranch (session : ClawDBSession) : Eng Branch := do
  authorize session ["branch:read", "branch:*", "*"]
  Try.of (Eng.branch .trunk) .branch

def mergeWithStrategy (session : ClawDBSession) (source target : Uuid)
    (strategy : MergeStrategy) : Eng MergeResult := do
  authorize session ["branch:write", "branch:*", "*"]
  let result ← Try.of (Eng.branch (.merge source target strategy)) .branch
  count (.branchOps (Crates.uuidToString session.workspaceId) "merge")
  emit (.branchMerged source target result.applied)
  pure result

def merge (session : ClawDBSession) (source target : Uuid) : Eng MergeResult :=
  mergeWithStrategy session source target .theirs

def diff (session : ClawDBSession) (source target : Uuid) : Eng DiffResult := do
  authorize session ["branch:read", "branch:*", "*"]
  Try.of (Eng.branch (.diff source target)) .branch

def discardBranch (session : ClawDBSession) (branchId : Uuid) : Eng Unit := do
  authorize session ["branch:write", "branch:*", "*"]
  Try.of (Eng.branch (.discard branchId)) .branch

def archiveBranch (session : ClawDBSession) (branchId : Uuid) : Eng Unit := do
  authorize session ["branch:write", "branch:*", "*"]
  Try.of (Eng.branch (.archive branchId)) .branch

/-! ## Sync -/

def sync (session : ClawDBSession) : Eng SyncSummary := do
  authorize session ["sync:write", "sync:*", "*"]
  if db.syncLocalOnly then
    pure ⟨0, 0, 0, 0⟩
  else
    let round ← Try.of (Eng.sync .syncNow) .sync
    count (.syncPushed (Crates.uuidToString session.workspaceId) round.push.deltasSent)
    count (.syncPulled (Crates.uuidToString session.workspaceId) round.pull.deltasReceived)
    emit (.syncCompleted round.push.deltasSent round.pull.deltasReceived)
    pure ⟨round.push.deltasSent, round.pull.deltasReceived, round.pull.opsSkipped,
      round.durationMs⟩

def pushSync (session : ClawDBSession) : Eng PushStats := do
  authorize session ["sync:write", "sync:*", "*"]
  Try.of (Eng.sync .pushNow) .sync

def pullSync (session : ClawDBSession) : Eng PullStats := do
  authorize session ["sync:write", "sync:*", "*"]
  Try.of (Eng.sync .pullNow) .sync

def reconcileSync (session : ClawDBSession) : Eng Value := do
  authorize session ["sync:write", "sync:*", "*"]
  Try.of (Eng.sync .reconcile) .sync

def syncStatus (session : ClawDBSession) : Eng SyncStatus := do
  authorize session ["sync:read", "sync:*", "*"]
  Try.lift (Eng.sync .status)

/-! ## Reflect -/

def reflect (session : ClawDBSession) : Eng ReflectSummary := do
  authorize session ["reflect:run", "reflect:write", "reflect:*", "*"]
  if db.reflectClient then
    let job ← Try.of (Eng.reflect (.triggerJob "full" (Crates.uuidToString session.workspaceId)
      false)) .reflect
    emit (.reflectCycleRun 0)
    pure ⟨some job.jobId, job.status, job.message, false⟩
  else
    pure .skippedSummary

/-- The `reflect_*` methods: the client is looked up after the authorization. -/
def viaReflect {α : Type} (session : ClawDBSession) (acceptedScopes : List String)
    (call : Eng α) : Eng α := do
  authorize session acceptedScopes
  if db.reflectClient then call else throw (.componentDisabled "reflect")

def reflectGetFacts (session : ClawDBSession) (agentId : String) : Eng (List Value) :=
  db.viaReflect session ["reflect:read", "reflect:*", "*"]
    (Try.of (Eng.reflect (.getFacts agentId)) .reflect)

def reflectListJobs (session : ClawDBSession) (agentId status : Option String)
    (limit offset : Option Nat) : Eng (List Value) :=
  db.viaReflect session ["reflect:read", "reflect:*", "*"]
    (Try.of (Eng.reflect (.listJobs agentId status limit offset)) .reflect)

def reflectGetJob (session : ClawDBSession) (jobId : String) : Eng Value :=
  db.viaReflect session ["reflect:read", "reflect:*", "*"]
    (Try.of (Eng.reflect (.getJob jobId)) .reflect)

def reflectGetPreferences (session : ClawDBSession) (agentId : String) : Eng (List Value) :=
  db.viaReflect session ["reflect:read", "reflect:*", "*"]
    (Try.of (Eng.reflect (.getPreferences agentId)) .reflect)

def reflectGetContradictions (session : ClawDBSession) (agentId : String) : Eng (List Value) :=
  db.viaReflect session ["reflect:read", "reflect:*", "*"]
    (Try.of (Eng.reflect (.getContradictions agentId)) .reflect)

def reflectResolveContradiction (session : ClawDBSession)
    (agentId contradictionId strategy : String) (mergedValue : Option Value) : Eng Value :=
  db.viaReflect session ["reflect:write", "reflect:*", "*"]
    (Try.of (Eng.reflect (.resolveContradiction agentId contradictionId strategy mergedValue))
      .reflect)

/-! ## Transactions and the rest -/

def transaction (session : ClawDBSession) : Eng ClawTransaction := do
  authorize session ["memory:write", "memory:*", "*"]
  let inner ← Try.of (Eng.core .beginTransaction) .core
  pure ⟨inner, db.vector, Crates.uuidToString session.workspaceId, []⟩

def validateSession (token : String) : Eng ClawDBSession := do
  let session ← Try.of (Eng.guard (.validateSession token)) .guard
  pure session.toSession

def revokeSession (sessionId : Uuid) : Eng Unit :=
  Try.of (Eng.guard (.revokeSession sessionId)) .guard

def activeSessionCount : Eng Nat := do
  let count ← Try.of (Eng.guard .countSessions) (.componentInit "guard")
  pure (max count 0).toNat

def probeVector : Eng Unit :=
  if db.vector then do
    let _ ← Try.lift (Eng.vector .stats)
    pure ()
  else
    pure ()

def syncHealthy : Eng Bool :=
  if db.syncLocalOnly then
    pure true
  else do
    let status ← Try.lift (Eng.sync .status)
    pure (status.connected || status.lastError.isNone)

/-- The `reflect` client has no probe: configured or not, it counts as healthy. -/
def health : Eng HealthStatus := do
  let core ← Try.lift (Eng.core .stats)
  db.probeVector
  let syncHealthy ← db.syncHealthy
  let components := [("core", core.isOk), ("vector", true), ("branch", true),
    ("sync", syncHealthy), ("guard", true), ("reflect", true)]
  pure ⟨components.all Prod.snd, components⟩

end ClawDBEngine

namespace ClawTransaction

/-- On an error the caller keeps the transaction it had. -/
def rememberTyped (tx : ClawTransaction) (content memoryType : String) (tags : List String)
    (metadata : Value) : Eng (Uuid × ClawTransaction) := do
  let record ← MemoryRecord.new content (parseMemoryType memoryType) tags
  let id ← Try.of (Eng.core (.txInsertMemory tx.inner record)) .core
  pure (id, { tx with pendingVectorUpserts :=
    tx.pendingVectorUpserts ++ [(content, vectorMetadata id record metadata)] })

def remember (tx : ClawTransaction) (content : String) : Eng (Uuid × ClawTransaction) :=
  tx.rememberTyped content "semantic" [] .null

/-- The loop of `commit` over the staged vector writes; a failing one is logged. -/
def flush (workspaceId : String) : List (String × Value) → Eng Unit
  | [] => pure ()
  | (content, metadata) :: rest => do
      let _ ← Try.lift (Eng.vector (.upsertInWorkspace workspaceId "memories" content metadata))
      flush workspaceId rest

def commit (tx : ClawTransaction) : Eng Unit := do
  Try.of (Eng.core (.txCommit tx.inner)) .core
  if tx.vector then flush tx.workspaceId tx.pendingVectorUpserts else pure ()

def rollback (tx : ClawTransaction) : Eng Unit :=
  Try.of (Eng.core (.txRollback tx.inner)) .core

end ClawTransaction

end ClawDB
