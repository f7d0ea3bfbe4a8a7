/-
# `ClawDB.Effects` — what the wrapper and the server ask of their components

The operations, grouped by component, and the type each one replies with.  An
operation stands for one awaited call, or for one critical section under the
mutex of `AppState.transactions`; everything between two operations is the
repository's own code.

A core transaction is named by a handle, which stands for the
`claw_core::ClawTransaction` value the wrapper holds.
-/
import ClawDB.Lib.Pool
import ClawDB.Types

namespace ClawDB

open Effect
open Json (Value)

/-- Names a `claw_core` transaction. -/
abbrev TxHandle := Nat

/-- `claw_guard`: `guard.sessions()`, and the session count read from its pool. -/
inductive GuardOp where
  | validateSession (token : String)
  | createSession (agentId workspaceId : Uuid) (role : String) (scopes : List String)
      (ttlSecs : Nat)
  | revokeSession (sessionId : Uuid)
  | countSessions

@[reducible] def GuardOp.Ret : GuardOp → Type
  | .validateSession _ => Except GuardError GuardSession
  | .createSession .. => Except GuardError GuardSession
  | .revokeSession _ => Except GuardError Unit
  | .countSessions => Except String Int

/-- `claw_core`: the engine and its transactions. -/
inductive CoreOp where
  | insertMemory (record : MemoryRecord)
  | getMemory (id : Uuid)
  | listMemories (memoryType : Option MemoryType)
  | updateMemory (id : Uuid) (content : String)
  | deleteMemory (id : Uuid)
  | ftsSearch (query : String)
  | stats
  | beginTransaction
  | txInsertMemory (tx : TxHandle) (record : MemoryRecord)
  | txCommit (tx : TxHandle)
  | txRollback (tx : TxHandle)

@[reducible] def CoreOp.Ret : CoreOp → Type
  | .insertMemory _ => Except String Uuid
  | .getMemory _ => Except String MemoryRecord
  | .listMemories _ => Except String (List MemoryRecord)
  | .updateMemory .. => Except String Unit
  | .deleteMemory _ => Except String Unit
  | .ftsSearch _ => Except String (List MemoryRecord)
  | .stats => Except String Unit
  | .beginTransaction => Except String TxHandle
  | .txInsertMemory .. => Except String Uuid
  | .txCommit _ => Except String Unit
  | .txRollback _ => Except String Unit

/-- `claw_vector`, whose documents carry ids of its own. -/
inductive VectorOp where
  | upsertInWorkspace (workspaceId collection text : String) (metadata : Value)
  | searchTextInWorkspace (workspaceId collection query : String) (limit : Nat)
  | stats

@[reducible] def VectorOp.Ret : VectorOp → Type
  | .upsertInWorkspace .. => Except String Uuid
  | .searchTextInWorkspace .. => Except String (List SearchResult)
  | .stats => Except String Unit

/-- `claw_branch`. -/
inductive BranchOp where
  | forkTrunk (name : String)
  | fork (parent : Uuid) (name : String)
  | get (id : Uuid)
  | list
  | getByName (name : String)
  | trunk
  | merge (source target : Uuid) (strategy : MergeStrategy)
  | diff (source target : Uuid)
  | discard (id : Uuid)
  | archive (id : Uuid)

@[reducible] def BranchOp.Ret : BranchOp → Type
  | .forkTrunk _ => Except String Branch
  | .fork .. => Except String Branch
  | .get _ => Except String Branch
  | .list => Except String (List Branch)
  | .getByName _ => Except String Branch
  | .trunk => Except String Branch
  | .merge .. => Except String MergeResult
  | .diff .. => Except String DiffResult
  | .discard _ => Except String Unit
  | .archive _ => Except String Unit

/-- `claw_sync`. -/
inductive SyncOp where
  | syncNow
  | pushNow
  | pullNow
  | reconcile
  | status

@[reducible] def SyncOp.Ret : SyncOp → Type
  | .syncNow => Except String SyncRound
  | .pushNow => Except String PushStats
  | .pullNow => Except String PullStats
  | .reconcile => Except String Value
  | .status => SyncStatus

/-- `claw_reflect_client`. -/
inductive ReflectOp where
  | triggerJob (kind workspaceId : String) (dryRun : Bool)
  | getFacts (agentId : String)
  | listJobs (agentId status : Option String) (limit offset : Option Nat)
  | getJob (jobId : String)
  | getPreferences (agentId : String)
  | getContradictions (agentId : String)
  | resolveContradiction (agentId contradictionId strategy : String) (mergedValue : Option Value)

@[reducible] def ReflectOp.Ret : ReflectOp → Type
  | .triggerJob .. => Except String TriggeredJob
  | .getFacts _ => Except String (List Value)
  | .listJobs .. => Except String (List Value)
  | .getJob _ => Except String Value
  | .getPreferences _ => Except String (List Value)
  | .getContradictions _ => Except String (List Value)
  | .resolveContradiction .. => Except String Value

/-- The counters of `telemetry::Metrics` the engine moves. -/
inductive Metric where
  | sessionCreated
  | sessionDenied
  | rememberTotal (workspaceId status : String)
  | searchTotal (workspaceId mode : String)
  | searchHits (workspaceId : String) (hits : Nat)
  | branchOps (workspaceId operation : String)
  | syncPushed (workspaceId : String) (n : UInt32)
  | syncPulled (workspaceId : String) (n : UInt32)
deriving DecidableEq

/-- The three keyed rate limiters of `AppState`. -/
inductive Limiter where
  | grpc
  | httpRead
  | httpWrite
deriving DecidableEq

/-- The process around the handlers: random ids, counters, the plugin channel,
the rate limiters and the rendered metrics page. -/
inductive HostOp where
  | newV4
  | count (m : Metric)
  | emit (event : ClawEvent)
  | checkKey (limiter : Limiter) (key : String)
  | renderMetrics

@[reducible] def HostOp.Ret : HostOp → Type
  | .newV4 => Uuid
  | .count _ => Unit
  | .emit _ => Unit
  | .checkKey .. => Bool
  | .renderMetrics => String

/-- The critical sections under the mutex of `AppState.transactions`: `insert`,
`get_mut` with the push that follows it, and `remove`. -/
inductive TxsOp where
  | insert (id : Uuid) (pending : PendingTransaction)
  | push (id : Uuid) (staged : StagedMemory)
  | remove (id : Uuid)

@[reducible] def TxsOp.Ret : TxsOp → Type
  | .insert .. => Unit
  | .push .. => Bool
  | .remove _ => Option PendingTransaction

inductive Op where
  | guard (o : GuardOp)
  | core (o : CoreOp)
  | vector (o : VectorOp)
  | branch (o : BranchOp)
  | sync (o : SyncOp)
  | reflect (o : ReflectOp)
  | host (o : HostOp)
  | txs (o : TxsOp)

@[reducible] def Op.Ret : Op → Type
  | .guard o => o.Ret
  | .core o => o.Ret
  | .vector o => o.Ret
  | .branch o => o.Ret
  | .sync o => o.Ret
  | .reflect o => o.Ret
  | .host o => o.Ret
  | .txs o => o.Ret

/-- The signature of the server. -/
@[reducible] def Sig : Effect.Sig := ⟨Op, Op.Ret⟩

/-- A handler, or any code that cannot fail. -/
abbrev Act := Prog Sig

/-- Engine code: it may stop with a `ClawDBError`. -/
abbrev Eng := Try Sig ClawDBError

/-- A call on the core, vector, branch, sync or reflect component. -/
def Op.isComponent : Op → Bool
  | .core _ | .vector _ | .branch _ | .sync _ | .reflect _ => true
  | .guard _ | .host _ | .txs _ => false

/-- What a method of the engine may do: everything but issue or revoke a session, write
into a core transaction or end it, and enter the critical sections of the server. -/
def Op.routine : Op → Bool
  | .guard (.createSession ..) | .guard (.revokeSession _) => false
  | .core (.txInsertMemory ..) | .core (.txCommit _) | .core (.txRollback _) => false
  | .txs _ => false
  | _ => true

namespace Eng

/-! ## Awaiting a component -/

def guard (o : GuardOp) : Act o.Ret := Prog.perform (F := Sig) (.guard o)
def core (o : CoreOp) : Act o.Ret := Prog.perform (F := Sig) (.core o)
def vector (o : VectorOp) : Act o.Ret := Prog.perform (F := Sig) (.vector o)
def branch (o : BranchOp) : Act o.Ret := Prog.perform (F := Sig) (.branch o)
def sync (o : SyncOp) : Act o.Ret := Prog.perform (F := Sig) (.sync o)
def reflect (o : ReflectOp) : Act o.Ret := Prog.perform (F := Sig) (.reflect o)
def host (o : HostOp) : Act o.Ret := Prog.perform (F := Sig) (.host o)
def txs (o : TxsOp) : Act o.Ret := Prog.perform (F := Sig) (.txs o)

/-! An awaited call is one node of the program.  The reply type is left out of the
index, where it would be a different term for every operation. -/

variable {β : Type}

@[simp] theorem guard_bind (o : GuardOp) (f : o.Ret → Act β) :
    Bind.bind (α := no_index o.Ret) (guard o) f = Prog.op (F := Sig) (.guard o) f := rfl

@[simp] theorem host_bind (o : HostOp) (f : o.Ret → Act β) :
    Bind.bind (α := no_index o.Ret) (host o) f = Prog.op (F := Sig) (.host o) f := rfl

end Eng

end ClawDB
