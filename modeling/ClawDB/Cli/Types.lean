/-
# `ClawDB.Cli.Types` — the rest of what the command line reads

The reply types of `types.rs` that `ClawDB.Cli` has no need of, with their derived readers, and
the body of an error.
-/
import ClawDB.Cli

namespace ClawDB.Cli

open Json

/-- `f64`: any JSON number. -/
def f64 : Decoder Number
  | .number n => .ok n
  | _ => .error (.invalidType "f64")

/-- `serde_json::Value`: anything. -/
def anyValue : Decoder Value := .ok

structure ApiErrorBody where
  error : String
  detail : Option String
  message : Option String

structure MemoryRecord where
  id : String
  content : String
  memoryType : String
  tags : List String
  score : Option Number
  createdAt : Option String

structure SearchHit where
  id : String
  content : String
  score : Number
  tags : List String
  memoryType : Option String

structure HealthResponse where
  ok : Bool
  components : List (String × Value)
  uptimeSecs : Option Number

structure PolicyRecord where
  id : String
  name : String
  effect : String
  createdAt : Option String

structure PolicyTestResult where
  allowed : Bool
  reason : Option String

structure ActiveSessionCountResponse where
  count : Nat

structure SyncStatusResponse where
  connected : Bool
  lastSyncAt : Option String
  lastError : Option String
  pendingPush : Nat
  pendingPull : Nat

structure SyncActionResult where
  deltasSent : Nat
  deltasReceived : Nat
  opsApplied : Nat
  opsSkipped : Nat
  durationMs : Nat
  summaryJson : Option String

structure ExtractedFact where
  id : String
  agentId : String
  fact : String
  confidence : Number
  createdAt : Option String

structure ReflectJobDetail where
  jobId : String
  status : String
  memoriesProcessed : Option Nat
  summariesCreated : Option Nat
  startedAt : Option String
  completedAt : Option String

structure Preference where
  id : String
  agentId : String
  key : String
  value : Value
  updatedAt : Option String

structure Contradiction where
  id : String
  agentId : String
  description : String
  status : String
  createdAt : Option String

/-! ## Their derived readers -/

/-- `ApiErrorBody::default()`. -/
def ApiErrorBody.default : ApiErrorBody := ⟨"", none, none⟩

def ApiErrorBody.decode : Decoder ApiErrorBody := fun v => do
  let fields ← members v
  let error ← defaulted "error" [] string "" fields
  let detail ← defaulted "detail" [] (option string) none fields
  let message ← defaulted "message" [] (option string) none fields
  pure ⟨error, detail, message⟩

def MemoryRecord.decode : Decoder MemoryRecord := fun v => do
  let fields ← members v
  let id ← required "id" [] string fields
  let content ← required "content" [] string fields
  let memoryType ← defaulted "memory_type" [] string "" fields
  let tags ← defaulted "tags" [] (vec string) [] fields
  let score ← optional "score" f64 fields
  let createdAt ← optional "created_at" string fields
  pure ⟨id, content, memoryType, tags, score, createdAt⟩

def SearchHit.decode : Decoder SearchHit := fun v => do
  let fields ← members v
  let id ← required "id" [] string fields
  let content ← required "content" [] string fields
  let score ← defaulted "score" [] f64 (.float 0) fields
  let tags ← defaulted "tags" [] (vec string) [] fields
  let memoryType ← optional "memory_type" string fields
  pure ⟨id, content, score, tags, memoryType⟩

def HealthResponse.decode : Decoder HealthResponse := fun v => do
  let fields ← members v
  let ok ← required "ok" [] bool fields
  let components ← defaulted "components" [] members [] fields
  let uptimeSecs ← optional "uptime_secs" f64 fields
  pure ⟨ok, components, uptimeSecs⟩

def PolicyRecord.decode : Decoder PolicyRecord := fun v => do
  let fields ← members v
  let id ← required "id" [] string fields
  let name ← required "name" [] string fields
  let effect ← defaulted "effect" [] string "" fields
  let createdAt ← optional "created_at" string fields
  pure ⟨id, name, effect, createdAt⟩

def PolicyTestResult.decode : Decoder PolicyTestResult := fun v => do
  let fields ← members v
  let allowed ← required "allowed" [] bool fields
  let reason ← optional "reason" string fields
  pure ⟨allowed, reason⟩

def ActiveSessionCountResponse.decode : Decoder ActiveSessionCountResponse := fun v => do
  let fields ← members v
  let count ← required "count" [] u64 fields
  pure ⟨count⟩

def SyncStatusResponse.decode : Decoder SyncStatusResponse := fun v => do
  let fields ← members v
  let connected ← defaulted "connected" [] bool false fields
  let lastSyncAt ← optional "last_sync_at" string fields
  let lastError ← optional "last_error" string fields
  let pendingPush ← defaulted "pending_push" [] u64 0 fields
  let pendingPull ← defaulted "pending_pull" [] u64 0 fields
  pure ⟨connected, lastSyncAt, lastError, pendingPush, pendingPull⟩

def SyncActionResult.decode : Decoder SyncActionResult := fun v => do
  let fields ← members v
  let deltasSent ← defaulted "deltas_sent" [] u64 0 fields
  let deltasReceived ← defaulted "deltas_received" [] u64 0 fields
  let opsApplied ← defaulted "ops_applied" [] u64 0 fields
  let opsSkipped ← defaulted "ops_skipped" [] u64 0 fields
  let durationMs ← defaulted "duration_ms" [] u64 0 fields
  let summaryJson ← optional "summary_json" string fields
  pure ⟨deltasSent, deltasReceived, opsApplied, opsSkipped, durationMs, summaryJson⟩

def ExtractedFact.decode : Decoder ExtractedFact := fun v => do
  let fields ← members v
  let id ← defaulted "id" [] string "" fields
  let agentId ← defaulted "agent_id" [] string "" fields
  let fact ← defaulted "fact" [] string "" fields
  let confidence ← defaulted "confidence" [] f64 (.float 0) fields
  let createdAt ← optional "created_at" string fields
  pure ⟨id, agentId, fact, confidence, createdAt⟩

def ReflectJobDetail.decode : Decoder ReflectJobDetail := fun v => do
  let fields ← members v
  let jobId ← defaulted "job_id" [] string "" fields
  let status ← defaulted "status" [] string "" fields
  let memoriesProcessed ← optional "memories_processed" u64 fields
  let summariesCreated ← optional "summaries_created" u64 fields
  let startedAt ← optional "started_at" string fields
  let completedAt ← optional "completed_at" string fields
  pure ⟨jobId, status, memoriesProcessed, summariesCreated, startedAt, completedAt⟩

def Preference.decode : Decoder Preference := fun v => do
  let fields ← members v
  let id ← defaulted "id" [] string "" fields
  let agentId ← defaulted "agent_id" [] string "" fields
  let key ← defaulted "key" [] string "" fields
  let value ← defaulted "value" [] anyValue .null fields
  let updatedAt ← optional "updated_at" string fields
  pure ⟨id, agentId, key, value, updatedAt⟩

def Contradiction.decode : Decoder Contradiction := fun v => do
  let fields ← members v
  let id ← defaulted "id" [] string "" fields
  let agentId ← defaulted "agent_id" [] string "" fields
  let description ← defaulted "description" [] string "" fields
  let status ← defaulted "status" [] string "" fields
  let createdAt ← optional "created_at" string fields
  pure ⟨id, agentId, description, status, createdAt⟩

end ClawDB.Cli
