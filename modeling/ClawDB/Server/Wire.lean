/-
# `ClawDB.Server.Wire` — what the two front ends reply

The bodies the HTTP handlers serialise, the protobuf messages of the gRPC service,
and the two renderings of an error.  The members of a JSON body stand in the order
of its text: the declaration order of a struct, the key order of a `json!` object.

Records and hits are passed on as they are, so a body keeps them as values of their
own.  A protobuf field that holds a JSON text is kept as the JSON value.
-/
import ClawDB.Engine

namespace ClawDB

open Json (Value)

/-! ## HTTP -/

inductive Body where
  | empty
  | json (v : Value)
  | text (s : String)
  | memory (record : MemoryRecord)
  | memories (records : List MemoryRecord)
  | hits (hits : List SearchHit)
deriving DecidableEq

structure Response where
  status : Nat
  body : Body
deriving DecidableEq

namespace Response

/-- `Json(value).into_response()`. -/
def json (v : Value) : Response := ⟨200, .json v⟩

def noContent : Response := ⟨204, .empty⟩

/-- `error_response`: the members that are `None` are skipped. -/
def error (status : Nat) (error : String) (detail requestId component : Option String) :
    Response :=
  ⟨status, .json (.object ([("error", .string error)] ++
    (detail.map fun s => ("detail", Value.string s)).toList ++
    (requestId.map fun s => ("request_id", Value.string s)).toList ++
    (component.map fun s => ("component", Value.string s)).toList))⟩

def unauthorized : Response := error 401 "unauthorized" none none none

def rateLimited (requestId : String) : Response := error 429 "rate_limited" none requestId none

def transactionNotFound (requestId : String) : Response :=
  error 404 "not_found" "transaction not found" requestId none

/-- `map_error` of the router. -/
def mapError (e : ClawDBError) (requestId : Option String) : Response :=
  match e with
  | .permissionDenied reason => error 403 "permission_denied" reason requestId none
  | .sessionInvalid => error 401 "session_invalid" none requestId none
  | .componentDisabled component => error 503 "component_disabled" none requestId component
  | _ => error 500 "internal" none requestId none

end Response

/-! ### Bodies -/

section Bodies

variable [Crates]

/-- `create_session` and `whoami` write the same object. -/
def sessionBody (s : ClawDBSession) : Value :=
  .object [("agent_id", uuid s.agentId),
    ("expires_at", .string (Crates.toRfc3339 s.expiresAt)),
    ("id", uuid s.id),
    ("role", .string s.role),
    ("scopes", strings s.scopes),
    ("session_id", uuid s.id),
    ("token", .string s.token)]

def rememberedBody (r : RememberResult) : Value :=
  .object [("memory_id", uuid r.memoryId), ("indexed", .bool r.indexed)]

def memoryUpdatedBody (id : Uuid) : Value :=
  .object [("memory_id", uuid id), ("updated", .bool true)]

def branchCreatedBody (id : Uuid) (name : String) : Value :=
  .object [("branch_id", uuid id), ("id", uuid id), ("name", .string name)]

def txBegunBody (txId : Uuid) : Value := .object [("tx_id", uuid txId)]

end Bodies

def mergeBody (r : MergeResult) : Value :=
  .object ([("success", .bool r.success), ("applied", .nat r.applied.toNat),
    ("skipped", .nat r.skipped.toNat), ("conflicts", .array r.conflicts),
    ("duration_ms", .nat r.durationMs.toNat)] ++ r.rest)

def diffStatsBody (s : DiffStats) : Value :=
  .object [("added", .nat s.added.toNat), ("removed", .nat s.removed.toNat),
    ("modified", .nat s.modified.toNat), ("unchanged", .nat s.unchanged.toNat)]

def diffBody (r : DiffResult) : Value :=
  .object ([("stats", diffStatsBody r.stats), ("divergence_score", r.divergenceScore)] ++ r.rest)

def syncBody (s : SyncSummary) : Value :=
  .object [("pushed", .nat s.pushed.toNat), ("pulled", .nat s.pulled.toNat),
    ("conflicts", .nat s.conflicts.toNat), ("duration_ms", .nat s.durationMs.toNat)]

def reflectBody (s : ReflectSummary) : Value :=
  .object [("job_id", s.jobId.elim .null .string), ("status", .string s.status),
    ("message", .string s.message), ("skipped", .bool s.skipped)]

def healthBody (h : HealthStatus) : Value :=
  .object [("ok", .bool h.ok),
    ("components", .object (h.components.map fun kv => (kv.1, .bool kv.2)))]

def activeSessionCountBody (count : Nat) : Value := .object [("count", .nat count)]

def stagedBody : Value := .object [("staged", .bool true)]

def committedBody : Value := .object [("committed", .bool true)]

def rolledBackBody : Value := .object [("rolled_back", .bool true)]

/-! ## gRPC -/

/-- The `tonic` codes the service uses. -/
inductive Code where
  | invalidArgument
  | notFound
  | permissionDenied
  | resourceExhausted
  | failedPrecondition
  | internal
  | unauthenticated
deriving DecidableEq

structure Status where
  code : Code
  message : String
deriving DecidableEq

/-- `map_error` of the service. -/
def Status.mapError (requestId : String) : ClawDBError → Status
  | .permissionDenied reason => ⟨.permissionDenied, reason⟩
  | .sessionInvalid => ⟨.unauthenticated, "session_invalid"⟩
  | .componentDisabled name => ⟨.failedPrecondition, "component_disabled:" ++ name⟩
  | _ => ⟨.internal, "internal error; request_id=" ++ requestId⟩

def Status.transactionNotFound : Status := ⟨.notFound, "transaction not found"⟩

/-- `proto::SearchHit`. -/
structure ProtoHit where
  id : String
  score : F32
  content : String
  memoryType : String
  tags : List String
  metadata : Value
deriving DecidableEq

/-- `proto::MemoryRecord`. -/
structure ProtoMemory where
  id : String
  content : String
  memoryType : String
  tags : List String
deriving DecidableEq

/-- `proto::BranchRecord`. -/
structure ProtoBranch where
  branchId : String
  branch : Value
deriving DecidableEq

/-- The reply messages of the service, without the `request_id` each of them carries. -/
inductive Message where
  | health (ok : Bool) (components : List (String × Bool))
  | createSession (id token expiresAt : String) (scopes : List String)
  | validateSession (sessionId agentId workspaceId role : String) (scopes : List String)
      (expiresAt : String)
  | revokeSession (revoked : Bool)
  | remember (memoryId : String) (indexed : Bool)
  | updateMemory (updated : Bool)
  | search (hits : List ProtoHit)
  | memories (memories : List ProtoMemory)
  | deleteMemory (deleted : Bool)
  | branch (branchId name : String)
  | merge (success : Bool) (applied skipped : UInt32) (conflicts : Nat) (durationMs : UInt64)
  | getBranch (branch : ProtoBranch)
  | listBranches (branches : List ProtoBranch)
  | discardBranch (discarded : Bool)
  | archiveBranch (archived : Bool)
  | diff (added removed modified unchanged : UInt32) (divergenceScore diff : Value)
  | sync (pushed pulled conflicts : UInt32) (durationMs : UInt64)
  | syncAction (summary : Value)
  | syncStatus (status : Value)
  | reflect (jobId status message : String) (skipped : Bool)
  | json (json : Value)
  | activeSessionCount (count : Nat)
  | beginTx (txId : String)
  | txRemember (memoryId : String)
  | commitTx (committed : Bool)
  | rollbackTx (rolledBack : Bool)
deriving DecidableEq

/-- A reply of the service; the rate limiter in front of it gives no request id. -/
structure GrpcResponse where
  requestId : Option String
  result : Except Status Message
deriving DecidableEq

def GrpcResponse.rateLimited : GrpcResponse :=
  ⟨none, .error ⟨.resourceExhausted, "rate limit exceeded"⟩⟩

end ClawDB
