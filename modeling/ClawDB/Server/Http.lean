/-
# `ClawDB.Server.Http` — the HTTP front end

A request names its route and carries what the extractors made of its path, query
and body: a value, or the rejection `axum` answers in the handler's place.  A
protected route is reached through the two middlewares, authentication first and
then the rate limit; four routes are public.

A request is answered when its route is.  The layers around all routes come after
that: they count the request and the sessions, set headers, and pass the reply on.

The handlers stand in the order of the router's source.
-/
import ClawDB.Server.Wire

namespace ClawDB

open Effect
open Json (Value)

/-! ## Pending transactions

What the commit and rollback handlers of both front ends do with the transaction
they took out of the map. -/

namespace PendingTransaction

variable [Crates] (db : ClawDBEngine)

/-- The `for` loop over the staged memories.  An error drops the transaction. -/
def replay (tx : ClawTransaction) : List StagedMemory → Eng ClawTransaction
  | [] => pure tx
  | staged :: rest => do
      let (_, tx) ← tx.rememberTyped staged.content staged.memoryType staged.tags staged.metadata
      replay tx rest

def commit (pending : PendingTransaction) : Eng Unit := do
  let tx ← db.transaction pending.session
  let tx ← replay tx pending.stagedMemories
  tx.commit

def rollback (pending : PendingTransaction) : Eng Unit := do
  let tx ← db.transaction pending.session
  tx.rollback

end PendingTransaction

namespace Http

/-! ## Requests -/

structure CreateSessionBody where
  agentId : Uuid
  role : String
  scopes : List String
  ttlSecs : Option UInt64

structure MemoryBody where
  content : String
  type : Option String
  tags : List String
  metadata : Value

structure UpdateMemoryBody where
  content : String

structure SearchQuery where
  q : String
  topK : Nat := 10
  semantic : Bool := false

structure ListMemoriesQuery where
  type : Option String
  limit : Option Nat

structure BranchBody where
  name : String
  «from» : Option Uuid

structure MergeBody where
  target : Uuid
  strategy : Option String

structure DiffQuery where
  target : Uuid

structure ReflectJobsQuery where
  agentId : Option String
  status : Option String
  limit : Option UInt32
  offset : Option UInt32

structure ResolveContradictionBody where
  strategy : String
  mergedValue : Option Value

/-- How `axum` answers a request an extractor rejects. -/
structure Rejection where
  status : Nat
  text : String
  refuses : 400 ≤ status

def Rejection.response (r : Rejection) : Response := ⟨r.status, .text r.text⟩

abbrev Extracted (α : Type) := Except Rejection α

/-- The protected routes. -/
inductive Protected where
  | whoami
  | revokeSession (id : Extracted Uuid)
  | activeSessionCount
  | remember (body : Extracted MemoryBody)
  | listMemories (query : Extracted ListMemoriesQuery)
  | search (query : Extracted SearchQuery)
  | recallOne (id : Extracted Uuid)
  | updateMemory (id : Extracted Uuid) (body : Extracted UpdateMemoryBody)
  | deleteMemory (id : Extracted Uuid)
  | createBranch (body : Extracted BranchBody)
  | listBranches
  | getTrunkBranch
  | getBranchByName (name : String)
  | mergeBranch (id : Extracted Uuid) (body : Extracted MergeBody)
  | diffBranch (id : Extracted Uuid) (query : Extracted DiffQuery)
  | archiveBranch (id : Extracted Uuid)
  | getBranch (id : Extracted Uuid)
  | discardBranch (id : Extracted Uuid)
  | sync
  | pushSync
  | pullSync
  | reconcileSync
  | syncStatus
  | reflect
  | listReflectJobs (query : Extracted ReflectJobsQuery)
  | getReflectJob (jobId : String)
  | getReflectFacts (agentId : String)
  | getReflectPreferences (agentId : String)
  | getReflectContradictions (agentId : String)
  | resolveReflectContradiction (agentId contradictionId : String)
      (body : Extracted ResolveContradictionBody)
  | beginTransaction
  | txRemember (id : Extracted Uuid) (body : Extracted UpdateMemoryBody)
  | txRememberTyped (id : Extracted Uuid) (body : Extracted MemoryBody)
  | commitTransaction (id : Extracted Uuid)
  | rollbackTransaction (id : Extracted Uuid)

inductive Route where
  | health
  | ready
  | createSession (body : Extracted CreateSessionBody)
  | metrics
  | «protected» (route : Protected)

structure Request where
  /-- the client's `x-request-id`, or the one the server drew -/
  requestId : String
  /-- the `authorization` header, where it is text -/
  authorization : Option String
  route : Route

/-- The method of a protected route is `GET`. -/
def Protected.isGet : Protected → Bool
  | whoami | activeSessionCount | listMemories _ | search _ | recallOne _ | listBranches
  | getTrunkBranch | getBranchByName _ | diffBranch .. | getBranch _ | syncStatus
  | listReflectJobs _ | getReflectJob _ | getReflectFacts _ | getReflectPreferences _
  | getReflectContradictions _ => true
  | _ => false

/-! ## Middlewares -/

structure AuthContext where
  token : String
  session : ClawDBSession

def bearerToken (authorization : Option String) : Option String :=
  authorization.bind (Text.stripPrefix · "Bearer ")

def authMiddleware (authorization : Option String) (next : AuthContext → Act Response) :
    Act Response :=
  match bearerToken authorization with
  | none => pure .unauthorized
  | some token => do
      let reply ← (ClawDBEngine.validateSession token).run
      match reply with
      | .ok session => next ⟨token, session⟩
      | .error _ => pure .unauthorized

def rateLimitMiddleware (requestId : String) (isGet : Bool) (auth : AuthContext)
    (next : Act Response) : Act Response := do
  let within ← Eng.host (.checkKey (if isGet then .httpRead else .httpWrite) auth.token)
  if within then next else pure (.rateLimited requestId)

/-! ## Handlers -/

/-- An extractor argument of a handler. -/
def extract {α : Type} (x : Extracted α) (handler : α → Act Response) : Act Response :=
  match x with
  | .ok a => handler a
  | .error rejection => pure rejection.response

/-- `match call.await { Ok(value) => …, Err(error) => map_error(error, …) }` -/
def answer {α : Type} (requestId : Option String) (call : Eng α) (ok : α → Response) :
    Act Response := do
  let reply ← call.run
  match reply with
  | .ok value => pure (ok value)
  | .error e => pure (.mapError e requestId)

def parseStrategy (value : Option String) : MergeStrategy :=
  match Text.toAsciiLowercase (value.getD "theirs") with
  | "ours" => .ours
  | "union" => .union
  | "manual" => .manual
  | _ => .theirs

variable [Crates] (db : ClawDBEngine) (requestId : String) (session : ClawDBSession)

def health : Act Response := answer none db.health fun report => .json (healthBody report)

def ready : Act Response :=
  answer none db.health fun report => ⟨if report.ok then 200 else 503, .empty⟩

/-- The number of sessions only moves a gauge. -/
def metrics : Act Response := do
  let _ ← ClawDBEngine.activeSessionCount.run
  let rendered ← Eng.host .renderMetrics
  pure ⟨200, .text rendered⟩

def createSession (body : Extracted CreateSessionBody) : Act Response :=
  extract body fun body =>
    -- `ttl_secs.unwrap_or(3600) as i64`
    answer requestId (db.sessionWithTtl body.agentId body.role body.scopes
      (body.ttlSecs.getD 3600).toInt64.toInt) fun session => .json (sessionBody session)

def whoami : Act Response := pure (.json (sessionBody session))

def revokeSession (id : Extracted Uuid) : Act Response :=
  extract id fun id => answer requestId (ClawDBEngine.revokeSession id) fun _ => .noContent

def remember (body : Extracted MemoryBody) : Act Response :=
  extract body fun body =>
    answer requestId
      (match body.type with
        | some memoryType =>
            db.rememberTyped session body.content memoryType body.tags body.metadata
        | none => db.remember session body.content)
      fun remembered => .json (rememberedBody remembered)

def search (query : Extracted SearchQuery) : Act Response :=
  extract query fun query =>
    answer requestId (db.searchWithOptions session query.q query.topK query.semantic none)
      fun hits => ⟨200, .hits hits⟩

/-- `recall` with one id; the list is empty only if the core says so. -/
def recallOne (id : Extracted Uuid) : Act Response :=
  extract id fun id =>
    answer requestId (ClawDBEngine.recall session [id]) fun memories =>
      match memories.getLast? with
      | some memory => ⟨200, .memory memory⟩
      | none => .error 404 "not_found" none requestId none

def listMemories (query : Extracted ListMemoriesQuery) : Act Response :=
  extract query fun query =>
    answer requestId (ClawDBEngine.listMemories session query.type) fun memories =>
      ⟨200, .memories (query.limit.elim memories memories.take)⟩

def deleteMemory (id : Extracted Uuid) : Act Response :=
  extract id fun id =>
    answer requestId (ClawDBEngine.deleteMemory session id) fun _ => .noContent

def updateMemory (id : Extracted Uuid) (body : Extracted UpdateMemoryBody) : Act Response :=
  extract id fun id => extract body fun body =>
    answer requestId (ClawDBEngine.updateMemory session id body.content) fun _ =>
      .json (memoryUpdatedBody id)

def createBranch (body : Extracted BranchBody) : Act Response :=
  extract body fun body =>
    answer requestId
      (match body.«from» with
        | some parent => ClawDBEngine.forkBranch session parent body.name
        | none => ClawDBEngine.branch session body.name)
      fun id => .json (branchCreatedBody id body.name)

def listBranches : Act Response :=
  answer requestId (ClawDBEngine.listBranches session) fun branches =>
    .json (.array (branches.map Branch.json))

def getBranch (id : Extracted Uuid) : Act Response :=
  extract id fun id =>
    answer requestId (ClawDBEngine.getBranch session id) fun branch => .json branch.json

def getBranchByName (name : String) : Act Response :=
  answer requestId (ClawDBEngine.getBranchByName session name) fun branch => .json branch.json

def getTrunkBranch : Act Response :=
  answer requestId (ClawDBEngine.trunkBranch session) fun branch => .json branch.json

def mergeBranch (id : Extracted Uuid) (body : Extracted MergeBody) : Act Response :=
  extract id fun id => extract body fun body =>
    answer requestId
      (ClawDBEngine.mergeWithStrategy session id body.target (parseStrategy body.strategy))
      fun result => .json (mergeBody result)

def diffBranch (id : Extracted Uuid) (query : Extracted DiffQuery) : Act Response :=
  extract id fun id => extract query fun query =>
    answer requestId (ClawDBEngine.diff session id query.target) fun result =>
      .json (diffBody result)

def discardBranch (id : Extracted Uuid) : Act Response :=
  extract id fun id =>
    answer requestId (ClawDBEngine.discardBranch session id) fun _ => .noContent

def archiveBranch (id : Extracted Uuid) : Act Response :=
  extract id fun id =>
    answer requestId (ClawDBEngine.archiveBranch session id) fun _ => .noContent

def sync : Act Response :=
  answer requestId (db.sync session) fun result => .json (syncBody result)

def pushSync : Act Response :=
  answer requestId (ClawDBEngine.pushSync session) fun result => .json result.json

def pullSync : Act Response :=
  answer requestId (ClawDBEngine.pullSync session) fun result => .json result.json

def reconcileSync : Act Response :=
  answer requestId (ClawDBEngine.reconcileSync session) .json

def syncStatus : Act Response :=
  answer requestId (ClawDBEngine.syncStatus session) fun result => .json result.json

def reflect : Act Response :=
  answer requestId (db.reflect session) fun result => .json (reflectBody result)

def getReflectFacts (agentId : String) : Act Response :=
  answer requestId (db.reflectGetFacts session agentId) fun facts => .json (.array facts)

def listReflectJobs (query : Extracted ReflectJobsQuery) : Act Response :=
  extract query fun query =>
    answer requestId
      (db.reflectListJobs session query.agentId query.status (query.limit.map UInt32.toNat)
        (query.offset.map UInt32.toNat))
      fun jobs => .json (.array jobs)

def getReflectJob (jobId : String) : Act Response :=
  answer requestId (db.reflectGetJob session jobId) .json

def getReflectPreferences (agentId : String) : Act Response :=
  answer requestId (db.reflectGetPreferences session agentId) fun preferences =>
    .json (.array preferences)

def getReflectContradictions (agentId : String) : Act Response :=
  answer requestId (db.reflectGetContradictions session agentId) fun contradictions =>
    .json (.array contradictions)

def resolveReflectContradiction (agentId contradictionId : String)
    (body : Extracted ResolveContradictionBody) : Act Response :=
  extract body fun body =>
    answer requestId (db.reflectResolveContradiction session agentId contradictionId body.strategy
      body.mergedValue) .json

def activeSessionCount : Act Response :=
  answer requestId ClawDBEngine.activeSessionCount fun count =>
    .json (activeSessionCountBody count)

/-! ### Transactions -/

def beginTransaction : Act Response := do
  let txId ← Eng.host .newV4
  Eng.txs (.insert txId ⟨txId, session, []⟩)
  pure (.json (txBegunBody txId))

/-- The critical section of both staging handlers, and the reply given inside it. -/
def stage (id : Uuid) (staged : StagedMemory) : Act Response := do
  let found ← Eng.txs (.push id staged)
  pure (if found then .json stagedBody else .transactionNotFound requestId)

def txRemember (id : Extracted Uuid) (body : Extracted UpdateMemoryBody) : Act Response :=
  extract id fun id => extract body fun body =>
    stage requestId id ⟨body.content, "semantic", [], .null⟩

def txRememberTyped (id : Extracted Uuid) (body : Extracted MemoryBody) : Act Response :=
  extract id fun id => extract body fun body =>
    stage requestId id ⟨body.content, body.type.getD "semantic", body.tags, body.metadata⟩

/-- Both terminal handlers take the transaction out of the map first. -/
def terminate (id : Uuid) (finish : PendingTransaction → Eng Unit) (ok : Value) :
    Act Response := do
  let pending ← Eng.txs (.remove id)
  match pending with
  | none => pure (.transactionNotFound requestId)
  | some pending => answer requestId (finish pending) fun _ => .json ok

def commitTransaction (id : Extracted Uuid) : Act Response :=
  extract id fun id => terminate requestId id (·.commit db) committedBody

def rollbackTransaction (id : Extracted Uuid) : Act Response :=
  extract id fun id => terminate requestId id (·.rollback db) rolledBackBody

/-! ## The router -/

def Protected.handle : Protected → Act Response
  | .whoami => Http.whoami session
  | .revokeSession id => Http.revokeSession requestId id
  | .activeSessionCount => Http.activeSessionCount requestId
  | .remember body => Http.remember db requestId session body
  | .listMemories query => Http.listMemories requestId session query
  | .search query => Http.search db requestId session query
  | .recallOne id => Http.recallOne requestId session id
  | .updateMemory id body => Http.updateMemory requestId session id body
  | .deleteMemory id => Http.deleteMemory requestId session id
  | .createBranch body => Http.createBranch requestId session body
  | .listBranches => Http.listBranches requestId session
  | .getTrunkBranch => Http.getTrunkBranch requestId session
  | .getBranchByName name => Http.getBranchByName requestId session name
  | .mergeBranch id body => Http.mergeBranch requestId session id body
  | .diffBranch id query => Http.diffBranch requestId session id query
  | .archiveBranch id => Http.archiveBranch requestId session id
  | .getBranch id => Http.getBranch requestId session id
  | .discardBranch id => Http.discardBranch requestId session id
  | .sync => Http.sync db requestId session
  | .pushSync => Http.pushSync requestId session
  | .pullSync => Http.pullSync requestId session
  | .reconcileSync => Http.reconcileSync requestId session
  | .syncStatus => Http.syncStatus requestId session
  | .reflect => Http.reflect db requestId session
  | .listReflectJobs query => Http.listReflectJobs db requestId session query
  | .getReflectJob jobId => Http.getReflectJob db requestId session jobId
  | .getReflectFacts agentId => Http.getReflectFacts db requestId session agentId
  | .getReflectPreferences agentId => Http.getReflectPreferences db requestId session agentId
  | .getReflectContradictions agentId =>
      Http.getReflectContradictions db requestId session agentId
  | .resolveReflectContradiction agentId contradictionId body =>
      Http.resolveReflectContradiction db requestId session agentId contradictionId body
  | .beginTransaction => Http.beginTransaction session
  | .txRemember id body => Http.txRemember requestId id body
  | .txRememberTyped id body => Http.txRememberTyped requestId id body
  | .commitTransaction id => Http.commitTransaction db requestId id
  | .rollbackTransaction id => Http.rollbackTransaction db requestId id

def serve (request : Request) : Act Response :=
  match request.route with
  | .health => health db
  | .ready => ready db
  | .createSession body => createSession db request.requestId body
  | .metrics => metrics
  | .«protected» route =>
      authMiddleware request.authorization fun auth =>
        rateLimitMiddleware request.requestId route.isGet auth
          (route.handle db request.requestId auth.session)

end Http

end ClawDB
