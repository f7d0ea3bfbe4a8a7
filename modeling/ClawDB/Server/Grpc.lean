/-
# `ClawDB.Server.Grpc` — the gRPC front end

A call is a method with its message; identifiers and JSON fields are texts here and
are parsed by the methods.  The rate limiter stands in front of the service.  A
method that wants a session validates the token itself, with `sessionFromRequest`.

The methods stand in the order of the service's source.
-/
import ClawDB.Server.Http

namespace ClawDB

open Effect
open Json (Value)

namespace Grpc

/-! ## Calls -/

inductive Method where
  | health
  | createSession (agentId role : String) (scopes : List String) (ttlSecs : UInt64)
  | validateSession
  | revokeSession (sessionId : String)
  | remember (content : String)
  | rememberTyped (content type : String) (tags : List String) (metadataJson : String)
  | updateMemory (memoryId content : String)
  | search (query : String) (topK : UInt32) (semantic : Bool) (filterJson : String)
  | «recall» (memoryIds : List String)
  | listMemories (type : String) (limit : UInt32)
  | deleteMemory (memoryId : String)
  | branch (name : String) («from» : String)
  | merge (source target strategy : String)
  | getBranch (branchId : String)
  | getBranchByName (name : String)
  | getTrunkBranch
  | listBranches
  | discardBranch (branchId : String)
  | archiveBranch (branchId : String)
  | diff (branchId target : String)
  | sync
  | pushSync
  | pullSync
  | reconcileSync
  | syncStatus
  | reflect
  | reflectGetFacts (agentId : String)
  | reflectListJobs (agentId status : String) (limit offset : UInt32)
  | reflectGetJob (jobId : String)
  | reflectGetPreferences (agentId : String)
  | reflectGetContradictions (agentId : String)
  | reflectResolveContradiction (agentId contradictionId strategy mergedValueJson : String)
  | activeSessionCount
  | beginTx
  | txRemember (txId content : String)
  | txRememberTyped (txId content type : String) (tags : List String) (metadataJson : String)
  | commitTx (txId : String)
  | rollbackTx (txId : String)

structure Request where
  /-- the client's `x-request-id`, or the one the method drew -/
  requestId : String
  /-- the `x-claw-session` header, where it is text -/
  token : Option String
  method : Method

/-- The body of a method: it may stop with a `Status`. -/
abbrev Rpc := Try Sig Status

/-! ## What the methods share -/

def sessionFromRequest (token : Option String) : Rpc (String × ClawDBSession) :=
  match token with
  | none => throw ⟨.unauthenticated, "missing session token"⟩
  | some token => do
      let session ← Try.of (ClawDBEngine.validateSession token).run
        fun _ => ⟨.unauthenticated, "invalid session token"⟩
      pure (token, session)

/-- `match Uuid::parse_str(text) { … Err(_) => Status::invalid_argument(message) }` -/
def parseUuid [Crates] (message text : String) : Rpc Uuid :=
  match Crates.parseStr text with
  | some id => pure id
  | none => throw ⟨.invalidArgument, message⟩

/-- A JSON field: blank is `None`. -/
def parseJson [Crates] (message text : String) : Rpc (Option Value) :=
  if (Text.trim text).isEmpty then
    pure none
  else
    match Crates.fromStr text with
    | some value => pure (some value)
    | none => throw ⟨.invalidArgument, message⟩

/-- A text field: blank is `None`. -/
def nonBlank (text : String) : Option String :=
  if (Text.trim text).isEmpty then none else some text

/-- A counter: zero is `None`. -/
def nonZero (n : UInt32) : Option Nat := if n = 0 then none else some n.toNat

/-- `call.await.map_err(|error| self.map_error(error, request_id))` -/
def call {α : Type} (requestId : String) (c : Eng α) : Rpc α :=
  Try.of c.run (Status.mapError requestId)

def parseMergeStrategy (strategy : String) : MergeStrategy :=
  match Text.toAsciiLowercase strategy with
  | "ours" => .ours
  | "union" => .union
  | "manual" => .manual
  | _ => .theirs

def mapMemoryRecord [Crates] (memory : MemoryRecord) : ProtoMemory :=
  ⟨Crates.uuidToString memory.id, memory.content, Crates.asStr memory.memoryType, memory.tags⟩

def mapBranchRecord (branch : Branch) : ProtoBranch :=
  ⟨(((branch.json.get "id").or (branch.json.get "branch_id")).bind Value.asStr).getD "",
    branch.json⟩

def mapHit [Crates] (hit : SearchHit) : ProtoHit :=
  ⟨Crates.uuidToString hit.id, hit.score, hit.content, hit.memoryType, hit.tags, hit.metadata⟩

/-! ## Methods -/

variable [Crates] (db : ClawDBEngine) (requestId : String) (token : Option String)

def health : Rpc Message := do
  let health ← call requestId db.health
  pure (.health health.ok health.components)

def createSession (agentId role : String) (scopes : List String) (ttlSecs : UInt64) :
    Rpc Message := do
  let _ ← sessionFromRequest token
  let agentId ← parseUuid "invalid agent_id" agentId
  let session ← call requestId (db.sessionWithTtl agentId role scopes
    (if ttlSecs = 0 then 3600 else ttlSecs.toInt64.toInt))
  pure (.createSession (Crates.uuidToString session.id) session.token
    (Crates.toRfc3339 session.expiresAt) session.scopes)

def validateSession : Rpc Message := do
  let (_, session) ← sessionFromRequest token
  pure (.validateSession (Crates.uuidToString session.id) (Crates.uuidToString session.agentId)
    (Crates.uuidToString session.workspaceId) session.role session.scopes
    (Crates.toRfc3339 session.expiresAt))

def revokeSession (sessionId : String) : Rpc Message := do
  let _ ← sessionFromRequest token
  let sessionId ← parseUuid "invalid session_id" sessionId
  call requestId (ClawDBEngine.revokeSession sessionId)
  pure (.revokeSession true)

def remembered (r : RememberResult) : Message :=
  .remember (Crates.uuidToString r.memoryId) r.indexed

def remember (content : String) : Rpc Message := do
  let (_, session) ← sessionFromRequest token
  let r ← call requestId (db.remember session content)
  pure (remembered r)

def rememberTyped (content type : String) (tags : List String) (metadataJson : String) :
    Rpc Message := do
  let (_, session) ← sessionFromRequest token
  let metadata ← parseJson "invalid metadata_json" metadataJson
  let r ← call requestId (db.rememberTyped session content type tags (metadata.getD .null))
  pure (remembered r)

def updateMemory (memoryId content : String) : Rpc Message := do
  let (_, session) ← sessionFromRequest token
  let memoryId ← parseUuid "invalid memory_id" memoryId
  call requestId (ClawDBEngine.updateMemory session memoryId content)
  pure (.updateMemory true)

def search (query : String) (topK : UInt32) (semantic : Bool) (filterJson : String) :
    Rpc Message := do
  let (_, session) ← sessionFromRequest token
  let filter ← parseJson "invalid filter_json" filterJson
  let hits ← call requestId
    (db.searchWithOptions session query (max topK.toNat 1) semantic filter)
  pure (.search (hits.map mapHit))

/-- The loop of `recall` over the requested ids. -/
def parseIds : List String → Rpc (List Uuid)
  | [] => pure []
  | id :: rest => do
      let parsed ← parseUuid "invalid memory_id" id
      let ids ← parseIds rest
      pure (parsed :: ids)

def «recall» (memoryIds : List String) : Rpc Message := do
  let (_, session) ← sessionFromRequest token
  let ids ← parseIds memoryIds
  let memories ← call requestId (ClawDBEngine.recall session ids)
  pure (.memories (memories.map mapMemoryRecord))

def listMemories (type : String) (limit : UInt32) : Rpc Message := do
  let (_, session) ← sessionFromRequest token
  let memories ← call requestId (ClawDBEngine.listMemories session (nonBlank type))
  let memories := if 0 < limit then memories.take limit.toNat else memories
  pure (.memories (memories.map mapMemoryRecord))

def deleteMemory (memoryId : String) : Rpc Message := do
  let (_, session) ← sessionFromRequest token
  let memoryId ← parseUuid "invalid memory_id" memoryId
  call requestId (ClawDBEngine.deleteMemory session memoryId)
  pure (.deleteMemory true)

/-- Whether `from` is empty is asked, not whether it is blank. -/
def forked (session : ClawDBSession) (name «from» : String) : Rpc Uuid :=
  if «from».isEmpty then
    call requestId (ClawDBEngine.branch session name)
  else do
    let parent ← parseUuid "invalid from branch" «from»
    call requestId (ClawDBEngine.forkBranch session parent name)

def branch (name «from» : String) : Rpc Message := do
  let (_, session) ← sessionFromRequest token
  let branchId ← forked requestId session name «from»
  pure (.branch (Crates.uuidToString branchId) name)

def merge (source target strategy : String) : Rpc Message := do
  let (_, session) ← sessionFromRequest token
  let source ← parseUuid "invalid source" source
  let target ← parseUuid "invalid target" target
  let result ← call requestId
    (ClawDBEngine.mergeWithStrategy session source target (parseMergeStrategy strategy))
  pure (.merge result.success result.applied result.skipped result.conflicts.length
    result.durationMs)

def getBranch (branchId : String) : Rpc Message := do
  let (_, session) ← sessionFromRequest token
  let branchId ← parseUuid "invalid branch_id" branchId
  let branch ← call requestId (ClawDBEngine.getBranch session branchId)
  pure (.getBranch (mapBranchRecord branch))

def getBranchByName (name : String) : Rpc Message := do
  let (_, session) ← sessionFromRequest token
  let branch ← call requestId (ClawDBEngine.getBranchByName session name)
  pure (.getBranch (mapBranchRecord branch))

def getTrunkBranch : Rpc Message := do
  let (_, session) ← sessionFromRequest token
  let branch ← call requestId (ClawDBEngine.trunkBranch session)
  pure (.getBranch (mapBranchRecord branch))

def listBranches : Rpc Message := do
  let (_, session) ← sessionFromRequest token
  let branches ← call requestId (ClawDBEngine.listBranches session)
  pure (.listBranches (branches.map mapBranchRecord))

def discardBranch (branchId : String) : Rpc Message := do
  let (_, session) ← sessionFromRequest token
  let branchId ← parseUuid "invalid branch_id" branchId
  call requestId (ClawDBEngine.discardBranch session branchId)
  pure (.discardBranch true)

def archiveBranch (branchId : String) : Rpc Message := do
  let (_, session) ← sessionFromRequest token
  let branchId ← parseUuid "invalid branch_id" branchId
  call requestId (ClawDBEngine.archiveBranch session branchId)
  pure (.archiveBranch true)

def diff (branchId target : String) : Rpc Message := do
  let (_, session) ← sessionFromRequest token
  let branchId ← parseUuid "invalid branch_id" branchId
  let target ← parseUuid "invalid target" target
  let diff ← call requestId (ClawDBEngine.diff session branchId target)
  pure (.diff diff.stats.added diff.stats.removed diff.stats.modified diff.stats.unchanged
    diff.divergenceScore (diffBody diff))

def sync : Rpc Message := do
  let (_, session) ← sessionFromRequest token
  let result ← call requestId (db.sync session)
  pure (.sync result.pushed result.pulled result.conflicts result.durationMs)

def pushSync : Rpc Message := do
  let (_, session) ← sessionFromRequest token
  let stats ← call requestId (ClawDBEngine.pushSync session)
  pure (.syncAction stats.json)

def pullSync : Rpc Message := do
  let (_, session) ← sessionFromRequest token
  let stats ← call requestId (ClawDBEngine.pullSync session)
  pure (.syncAction stats.json)

def reconcileSync : Rpc Message := do
  let (_, session) ← sessionFromRequest token
  let stats ← call requestId (ClawDBEngine.reconcileSync session)
  pure (.syncAction stats)

def syncStatus : Rpc Message := do
  let (_, session) ← sessionFromRequest token
  let status ← call requestId (ClawDBEngine.syncStatus session)
  pure (.syncStatus status.json)

def reflect : Rpc Message := do
  let (_, session) ← sessionFromRequest token
  let result ← call requestId (db.reflect session)
  pure (.reflect (result.jobId.getD "") result.status result.message result.skipped)

def reflectGetFacts (agentId : String) : Rpc Message := do
  let (_, session) ← sessionFromRequest token
  let facts ← call requestId (db.reflectGetFacts session agentId)
  pure (.json (.array facts))

def reflectListJobs (agentId status : String) (limit offset : UInt32) : Rpc Message := do
  let (_, session) ← sessionFromRequest token
  let jobs ← call requestId (db.reflectListJobs session (nonBlank agentId) (nonBlank status)
    (nonZero limit) (nonZero offset))
  pure (.json (.array jobs))

def reflectGetJob (jobId : String) : Rpc Message := do
  let (_, session) ← sessionFromRequest token
  let job ← call requestId (db.reflectGetJob session jobId)
  pure (.json job)

def reflectGetPreferences (agentId : String) : Rpc Message := do
  let (_, session) ← sessionFromRequest token
  let preferences ← call requestId (db.reflectGetPreferences session agentId)
  pure (.json (.array preferences))

def reflectGetContradictions (agentId : String) : Rpc Message := do
  let (_, session) ← sessionFromRequest token
  let contradictions ← call requestId (db.reflectGetContradictions session agentId)
  pure (.json (.array contradictions))

def reflectResolveContradiction (agentId contradictionId strategy mergedValueJson : String) :
    Rpc Message := do
  let (_, session) ← sessionFromRequest token
  let mergedValue ← parseJson "invalid merged_value_json" mergedValueJson
  let contradiction ← call requestId (db.reflectResolveContradiction session agentId
    contradictionId strategy mergedValue)
  pure (.json contradiction)

def activeSessionCount : Rpc Message := do
  let _ ← sessionFromRequest token
  let count ← call requestId ClawDBEngine.activeSessionCount
  pure (.activeSessionCount count)

/-! ### Transactions

`begin_tx` asks for a session; the other four take no token. -/

def beginTx : Rpc Message := do
  let (_, session) ← sessionFromRequest token
  let txId ← Try.lift (Eng.host .newV4)
  Try.lift (Eng.txs (.insert txId ⟨txId, session, []⟩))
  pure (.beginTx (Crates.uuidToString txId))

/-- The critical section of both staging methods.  The id it replies with is one it
drew itself; the memory gets another when the transaction is committed. -/
def stage (txId : Uuid) (staged : StagedMemory) : Rpc Message := do
  let stagedId ← Try.lift (Eng.host .newV4)
  let found ← Try.lift (Eng.txs (.push txId staged))
  if found then
    pure (.txRemember (Crates.uuidToString stagedId))
  else
    throw .transactionNotFound

def txRemember (txId content : String) : Rpc Message := do
  let txId ← parseUuid "invalid tx_id" txId
  stage txId ⟨content, "semantic", [], .null⟩

def txRememberTyped (txId content type : String) (tags : List String) (metadataJson : String) :
    Rpc Message := do
  let txId ← parseUuid "invalid tx_id" txId
  let metadata ← parseJson "invalid metadata_json" metadataJson
  stage txId ⟨content, type, tags, metadata.getD .null⟩

/-- Both terminal methods take the transaction out of the map first. -/
def terminate (txId : String) (finish : PendingTransaction → Eng Unit) (ok : Message) :
    Rpc Message := do
  let txId ← parseUuid "invalid tx_id" txId
  let pending ← Try.lift (Eng.txs (.remove txId))
  match pending with
  | none => throw .transactionNotFound
  | some pending => do
      call requestId (finish pending)
      pure ok

def commitTx (txId : String) : Rpc Message :=
  terminate requestId txId (·.commit db) (.commitTx true)

def rollbackTx (txId : String) : Rpc Message :=
  terminate requestId txId (·.rollback db) (.rollbackTx true)

/-! ## The service -/

def Method.handle : Method → Rpc Message
  | .health => Grpc.health db requestId
  | .createSession agentId role scopes ttlSecs =>
      Grpc.createSession db requestId token agentId role scopes ttlSecs
  | .validateSession => Grpc.validateSession token
  | .revokeSession sessionId => Grpc.revokeSession requestId token sessionId
  | .remember content => Grpc.remember db requestId token content
  | .rememberTyped content type tags metadataJson =>
      Grpc.rememberTyped db requestId token content type tags metadataJson
  | .updateMemory memoryId content => Grpc.updateMemory requestId token memoryId content
  | .search query topK semantic filterJson =>
      Grpc.search db requestId token query topK semantic filterJson
  | .«recall» memoryIds => Grpc.recall requestId token memoryIds
  | .listMemories type limit => Grpc.listMemories requestId token type limit
  | .deleteMemory memoryId => Grpc.deleteMemory requestId token memoryId
  | .branch name «from» => Grpc.branch requestId token name «from»
  | .merge source target strategy => Grpc.merge requestId token source target strategy
  | .getBranch branchId => Grpc.getBranch requestId token branchId
  | .getBranchByName name => Grpc.getBranchByName requestId token name
  | .getTrunkBranch => Grpc.getTrunkBranch requestId token
  | .listBranches => Grpc.listBranches requestId token
  | .discardBranch branchId => Grpc.discardBranch requestId token branchId
  | .archiveBranch branchId => Grpc.archiveBranch requestId token branchId
  | .diff branchId target => Grpc.diff requestId token branchId target
  | .sync => Grpc.sync db requestId token
  | .pushSync => Grpc.pushSync requestId token
  | .pullSync => Grpc.pullSync requestId token
  | .reconcileSync => Grpc.reconcileSync requestId token
  | .syncStatus => Grpc.syncStatus requestId token
  | .reflect => Grpc.reflect db requestId token
  | .reflectGetFacts agentId => Grpc.reflectGetFacts db requestId token agentId
  | .reflectListJobs agentId status limit offset =>
      Grpc.reflectListJobs db requestId token agentId status limit offset
  | .reflectGetJob jobId => Grpc.reflectGetJob db requestId token jobId
  | .reflectGetPreferences agentId => Grpc.reflectGetPreferences db requestId token agentId
  | .reflectGetContradictions agentId =>
      Grpc.reflectGetContradictions db requestId token agentId
  | .reflectResolveContradiction agentId contradictionId strategy mergedValueJson =>
      Grpc.reflectResolveContradiction db requestId token agentId contradictionId strategy
        mergedValueJson
  | .activeSessionCount => Grpc.activeSessionCount requestId token
  | .beginTx => Grpc.beginTx token
  | .txRemember txId content => Grpc.txRemember txId content
  | .txRememberTyped txId content type tags metadataJson =>
      Grpc.txRememberTyped txId content type tags metadataJson
  | .commitTx txId => Grpc.commitTx db requestId txId
  | .rollbackTx txId => Grpc.rollbackTx db requestId txId

/-- `GrpcRateLimitService` in front of the service. -/
def serve (request : Request) : Act GrpcResponse := do
  let within ← Eng.host (.checkKey .grpc (request.token.getD "anonymous"))
  if within then do
    let result ← (request.method.handle db request.requestId request.token).run
    pure ⟨some request.requestId, result⟩
  else
    pure .rateLimited

end Grpc

end ClawDB
