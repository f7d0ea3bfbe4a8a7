/-
# `ClawDB.Server.Monitor` — the server, and what is remembered of a request

The server takes requests on both front ends.  `Intent` says what a request asks for
as far as pending transactions and sessions are concerned.

`Local` is the memory kept of a request while it runs: what the guard told it, the
ids it drew, and how far it has come with a transaction.  `monitor` says which
operation each memory permits.  It states what the later modules need of a request, not
what the handlers do: that the handlers keep to it is proved in `Server.Conforms`.
-/
import ClawDB.Server.Grpc
import ClawDB.World

namespace ClawDB

open Effect

/-! ## The server -/

inductive Request where
  | http (r : Http.Request)
  | grpc (r : Grpc.Request)

inductive Reply where
  | http (r : Response)
  | grpc (r : GrpcResponse)
deriving DecidableEq

section Server

variable [Crates] (db : ClawDBEngine)

def handle : Request → Act Reply
  | .http r => do
      let reply ← Http.serve db r
      pure (.http reply)
  | .grpc r => do
      let reply ← Grpc.serve db r
      pure (.grpc reply)

/-- The server, open to the requests in `accepts`. -/
def server (accepts : Request → Prop) : Server Sig World Request Reply :=
  ⟨handle db, Op.sem, accepts⟩

end Server

/-! ## What a request asks for -/

inductive Intent where
  | begin
  | stage (id : Uuid) (staged : StagedMemory)
  | commit (id : Uuid)
  | rollback (id : Uuid)
  | createSession (agentId : Uuid) (role : String) (scopes : List String)
  | revokeSession (id : Uuid)
  /-- one of the above, with an argument that does not parse -/
  | malformed
  | other
deriving DecidableEq

namespace Intent

/-- The requests about pending transactions. -/
def transactional : Intent → Bool
  | begin | stage .. | commit _ | rollback _ | malformed => true
  | createSession .. | revokeSession _ | other => false

/-- The transaction a terminal request names. -/
def ends : Intent → Option Uuid
  | commit id | rollback id => some id
  | _ => none

theorem ends_cases {intent : Intent} {id : Uuid} (h : intent.ends = some id) :
    intent = .commit id ∨ intent = .rollback id := by
  cases intent with
  | commit id' => exact .inl (congrArg _ (Option.some.inj h))
  | rollback id' => exact .inr (congrArg _ (Option.some.inj h))
  | _ => cases h

end Intent

/-- What an extractor gave, if it gave anything. -/
def Http.ifOk {α : Type} (x : Http.Extracted α) (f : α → Intent) : Intent :=
  match x with
  | .ok a => f a
  | .error _ => .malformed

def Http.Protected.intent : Http.Protected → Intent
  | .revokeSession id => Http.ifOk id .revokeSession
  | .beginTransaction => .begin
  | .txRemember id body => Http.ifOk id fun id => Http.ifOk body fun body =>
      .stage id ⟨body.content, "semantic", [], .null⟩
  | .txRememberTyped id body => Http.ifOk id fun id => Http.ifOk body fun body =>
      .stage id ⟨body.content, body.type.getD "semantic", body.tags, body.metadata⟩
  | .commitTransaction id => Http.ifOk id .commit
  | .rollbackTransaction id => Http.ifOk id .rollback
  | _ => .other

def Http.Route.intent : Http.Route → Intent
  | .createSession body => Http.ifOk body fun body =>
      .createSession body.agentId body.role body.scopes
  | .«protected» route => route.intent
  | .health | .ready | .metrics => .other

section Intents

variable [Crates]

def Grpc.ifUuid (text : String) (f : Uuid → Intent) : Intent :=
  match Crates.parseStr text with
  | some id => f id
  | none => .malformed

def Grpc.Method.intent : Grpc.Method → Intent
  | .createSession agentId role scopes _ =>
      Grpc.ifUuid agentId fun agentId => .createSession agentId role scopes
  | .revokeSession sessionId => Grpc.ifUuid sessionId .revokeSession
  | .beginTx => .begin
  | .txRemember txId content =>
      Grpc.ifUuid txId fun id => .stage id ⟨content, "semantic", [], .null⟩
  | .txRememberTyped txId content type tags metadataJson =>
      Grpc.ifUuid txId fun id =>
        if (Text.trim metadataJson).isEmpty then
          .stage id ⟨content, type, tags, .null⟩
        else
          match Crates.fromStr metadataJson with
          | some metadata => .stage id ⟨content, type, tags, metadata⟩
          | none => .malformed
  | .commitTx txId => Grpc.ifUuid txId .commit
  | .rollbackTx txId => Grpc.ifUuid txId .rollback
  | _ => .other

def Request.intent : Request → Intent
  | .http r => r.route.intent
  | .grpc r => r.method.intent

end Intents

/-- The token a request carries. -/
def Request.token : Request → Option String
  | .http r => Http.bearerToken r.authorization
  | .grpc r => r.token

def Request.isHttp : Request → Bool
  | .http _ => true
  | .grpc _ => false

/-! ## What a reply says -/

namespace Reply

def isSuccess : Reply → Bool
  | http r => r.status < 300
  | grpc r => r.result.isOk

/-- The handler found no such transaction. -/
def NotFound : Reply → Prop
  | http r => ∃ requestId, r = .transactionNotFound requestId
  | grpc r => r.result = .error .transactionNotFound

/-- The request was turned away in front of its handler. -/
def TurnedAway : Reply → Prop
  | http r => r = .unauthorized ∨ ∃ requestId, r = .rateLimited requestId
  | grpc r => r = .rateLimited

/-- The reply hands out the session. -/
def Grants [Crates] (session : ClawDBSession) : Reply → Prop
  | http r => r = .json (sessionBody session)
  | grpc r => r.result = .ok (.createSession (Crates.uuidToString session.id) session.token
      (Crates.toRfc3339 session.expiresAt) session.scopes)

end Reply

/-! ## The memory of a request -/

structure Local where
  /-- the tokens the guard accepted, each with its session -/
  validated : List (String × GuardSession)
  issued : List GuardSession
  revoked : List Uuid
  /-- the ids drawn -/
  minted : List Uuid
  /-- the transaction put into the map -/
  begun : Option PendingTransaction
  /-- a memory was staged -/
  staged : Bool
  /-- there was no such transaction -/
  missed : Bool
  /-- the transaction taken out of the map -/
  taken : Option PendingTransaction
  /-- the core transaction opened for it -/
  handle : Option TxHandle
  /-- the rows inserted there -/
  inserted : List MemoryRecord
  /-- it was committed or rolled back -/
  ended : Bool
  committed : Bool

namespace Local

def init : Local := ⟨[], [], [], [], none, false, false, none, none, [], false, false⟩

/-- The critical section of a begin or stage request lies behind it, or a terminal
one found nothing: nothing is left to do but reply. -/
def finished (m : Local) : Bool := m.begun.isSome || m.staged || m.missed

def guarded (m : Local) : (o : GuardOp) → o.Ret → Local
  | .validateSession token, .ok g => { m with validated := (token, g) :: m.validated }
  | .createSession .., .ok g => { m with issued := g :: m.issued }
  | .revokeSession id, .ok _ => { m with revoked := id :: m.revoked }
  | _, _ => m

def stored (m : Local) : (o : CoreOp) → o.Ret → Local
  | .beginTransaction, .ok tx => { m with handle := some tx }
  | .txInsertMemory _ record, .ok _ => { m with inserted := m.inserted ++ [record] }
  | .txCommit _, .ok _ => { m with ended := true, committed := true }
  | .txCommit _, .error _ => { m with ended := true }
  | .txRollback _, _ => { m with ended := true }
  | _, _ => m

def hosted (m : Local) : (o : HostOp) → o.Ret → Local
  | .newV4, id => { m with minted := id :: m.minted }
  | _, _ => m

def transacted (m : Local) : (o : TxsOp) → o.Ret → Local
  | .insert _ pending, _ => { m with begun := some pending }
  | .push .., found => if found then { m with staged := true } else { m with missed := true }
  | .remove _, some pending => { m with taken := some pending }
  | .remove _, none => { m with missed := true }

def next (m : Local) : (o : Op) → o.Ret → Local
  | .guard o, r => m.guarded o r
  | .core o, r => m.stored o r
  | .host o, r => m.hosted o r
  | .txs o, r => m.transacted o r
  | .vector _, _ | .branch _, _ | .sync _, _ | .reflect _, _ => m

end Local

/-- The part of a stored memory the client chose. -/
structure Shape where
  content : String
  memoryType : MemoryType
  tags : List String
deriving DecidableEq

def StagedMemory.shape (s : StagedMemory) : Shape :=
  ⟨s.content, parseMemoryType s.memoryType, s.tags⟩

def MemoryRecord.shape (r : MemoryRecord) : Shape := ⟨r.content, r.memoryType, r.tags⟩

/-! ## The monitor -/

/-- The guard has accepted the token the request carries. -/
def Request.Authenticated (req : Request) (m : Local) : Prop :=
  ∃ token g, req.token = some token ∧ (token, g) ∈ m.validated

section Monitor

variable [Crates] (req : Request) (m : Local)

def guardAllowed : GuardOp → Prop
  | .createSession agentId _ role scopes _ =>
      req.intent = .createSession agentId role scopes ∧ m.issued = [] ∧
        (req.isHttp = false → req.Authenticated m)
  | .revokeSession id => req.intent = .revokeSession id ∧ req.Authenticated m
  | .validateSession _ | .countSessions => True

/-- The core transaction of a request that ends a pending one is opened under the
owner's session, filled with what was staged, in order, and committed when all of it
is there. -/
def coreAllowed : CoreOp → Prop
  | .insertMemory _ | .updateMemory .. | .deleteMemory _ => req.intent.transactional = false
  | .beginTransaction => req.intent.transactional = true → m.handle = none ∧
      ∃ pending, m.taken = some pending ∧ (∃ g, (pending.session.token, g) ∈ m.validated) ∧
        ClawDBEngine.permits pending.session.scopes ["memory:write", "memory:*", "*"] = true
  | .txInsertMemory tx record => ∃ id pending staged, req.intent = .commit id ∧
      m.taken = some pending ∧ m.handle = some tx ∧ m.ended = false ∧ record.id ∈ m.minted ∧
      pending.stagedMemories[m.inserted.length]? = some staged ∧ record.shape = staged.shape
  | .txCommit tx => ∃ id pending, req.intent = .commit id ∧ m.taken = some pending ∧
      m.handle = some tx ∧ m.ended = false ∧
      m.inserted.map MemoryRecord.shape = pending.stagedMemories.map StagedMemory.shape
  | .txRollback tx => ∃ id, req.intent = .rollback id ∧ m.handle = some tx ∧ m.ended = false
  | .getMemory _ | .listMemories _ | .ftsSearch _ | .stats => True

/-- A transaction is begun under the session of the token.  Only a request that names a
transaction touches it, over HTTP only one with an accepted token. -/
def txsAllowed : TxsOp → Prop
  | .insert id pending => req.intent = .begin ∧ id ∈ m.minted ∧
      ∃ token g, req.token = some token ∧ (token, g) ∈ m.validated ∧
        pending = ⟨id, g.toSession, []⟩
  | .push id staged => req.intent = .stage id staged ∧
      (req.isHttp = true → req.Authenticated m)
  | .remove id => req.intent.ends = some id ∧ m.taken = none ∧
      (req.isHttp = true → req.Authenticated m)

def allowed : Op → Prop
  | .guard o => m.finished = false ∧ guardAllowed req m o
  | .core o => m.finished = false ∧ coreAllowed req m o
  | .branch _ | .sync _ => m.finished = false ∧ req.intent.transactional = false
  | .vector _ | .reflect _ | .host _ => m.finished = false
  | .txs o => m.finished = false ∧ txsAllowed req m o

/-- The reply of a terminal request that took nothing: it searched the map in vain, or
was turned away before it came to that. -/
def Local.Refused (rep : Reply) : Prop :=
  (m.missed = true ∧ rep.NotFound) ∨ (m.missed = false ∧ rep.TurnedAway)

/-- What the replies mean. -/
def answered (rep : Reply) : Prop :=
  match req.intent with
  | .stage .. => rep.isSuccess = true ↔ m.staged = true
  | .commit _ => (m.taken = none → m.Refused rep) ∧
      (rep.isSuccess = true ↔ m.committed = true)
  | .rollback _ => m.taken = none → m.Refused rep
  | .createSession _ _ scopes => rep.isSuccess = true →
      ∃ g, m.issued = [g] ∧ rep.Grants { g.toSession with scopes := scopes }
  | _ => True

def monitor : Monitor Sig Request Reply Local where
  init _ := .init
  allowed := allowed
  next := Local.next
  post := answered

end Monitor

end ClawDB
