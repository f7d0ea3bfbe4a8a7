/-
# `Transaction.Manager` — two-phase commit over the engines

The programs of `transaction/manager.rs`, with the coordinator and the legacy context API they
rest on.  One operation is one access to something that calls share: the `active` map, the
coordinator under its lock, a transaction's state behind its mutex, an engine.  Between two
operations any other call may run.

`&mut state` is the state behind the mutex, read with `load` and written with `store` while
the guard is held.  A call that is cancelled stops at one of its awaits and drops its guard:
the reply `none` of an engine call, or `false` of `lock`, is the cancellation, and it may come
before or after the engine did what it was asked.  The exclusive borrow of a
`TransactionContext` is taken and given back like a guard.

Every operation names the transaction it is performed for.  A guard is dropped as the call
returns; `unlock` says with which answer, if the result is `Ok`.
-/
import ClawDB.Lib.Prog
import ClawDB.Types
import Mathlib.Data.List.AList

namespace ClawDB.Transaction

open Effect

/-! ## Data -/

/-- The two errors of the manager. -/
inductive TxError where
  | transactionFailed (txId : Uuid) (reason : String)
  | transactionConflict (txId conflictingTx : Uuid)
deriving DecidableEq

/-- The `Display` text of an error; the type that has it is not part of the crate any more. -/
class Texts where
  display : TxError → String

/-- One way to write the texts. -/
@[reducible] def Texts.sample : Texts where
  display
    | .transactionFailed _ reason => "transaction failed: " ++ reason
    | .transactionConflict _ _ => "transaction conflict"

structure VectorUpsertOp where
  collection : String
  id : String
  text : String
  metadata : Json.Value
  dimensions : Option Nat

inductive TxStatus where
  | active
  | committing
  | rollingBack
  | committed
  | rolledBack
deriving DecidableEq

/-- The derived `Debug` text. -/
def TxStatus.debug : TxStatus → String
  | .active => "Active"
  | .committing => "Committing"
  | .rollingBack => "RollingBack"
  | .committed => "Committed"
  | .rolledBack => "RolledBack"

structure TxState where
  id : Uuid
  sessionId : Uuid
  agentId : Uuid
  startedAt : DateTime
  status : TxStatus
  coreTxBegun : Bool
  vectorBuffer : List VectorUpsertOp
  branchSnapshotId : Option Uuid

def TxState.new (id sessionId agentId : Uuid) (startedAt : DateTime) : TxState where
  id := id
  sessionId := sessionId
  agentId := agentId
  startedAt := startedAt
  status := .active
  coreTxBegun := false
  vectorBuffer := []
  branchSnapshotId := none

/-- The coordinator's record of a transaction; `startedAt` is a reading of the clock. -/
structure TxRecord where
  sessionId : Uuid
  writeSet : List String
  startedAt : Nat

inductive IsolationLevel where
  | readCommitted
  | snapshot
  | serializable

inductive TransactionStatus where
  | active
  | committed
  | rolledBack
  | conflicted
deriving DecidableEq

structure TransactionContext where
  txId : Uuid
  sessionId : Uuid
  isolation : IsolationLevel
  status : TransactionStatus
  writeSet : List String
  readSet : List String

namespace TransactionContext

def new (txId sessionId : Uuid) (isolation : IsolationLevel) : TransactionContext where
  txId := txId
  sessionId := sessionId
  isolation := isolation
  status := .active
  writeSet := []
  readSet := []

def isActive (ctx : TransactionContext) : Bool := ctx.status = .active

def recordWrite (ctx : TransactionContext) (key : String) : TransactionContext :=
  { ctx with writeSet := ctx.writeSet ++ [key] }

end TransactionContext

structure TransactionLogEntry where
  txId : Uuid
  sessionId : Uuid
  committedAt : Int
  writeSet : List String

/-- `TransactionLog::append`, a rolling window of the last `max` entries. -/
def appendLog (max : Nat) (entries : List TransactionLogEntry) (entry : TransactionLogEntry) :
    List TransactionLogEntry :=
  (if max ≤ entries.length then entries.drop 1 else entries) ++ [entry]

/-! ## Operations -/

/-- The components a transaction takes part in. -/
inductive Component where
  | core
  | vector
  | branch
deriving DecidableEq

inductive EngineCall where
  | executeRawWrite (sql : String)
  | upsert (op : VectorUpsertOp)
  | createSnapshot (name : String)
  | deleteSnapshot (snapId : Uuid)
  | restoreSnapshot (snapId : Uuid)

def EngineCall.Ret : EngineCall → Type
  | .createSnapshot _ => Uuid
  | _ => Unit

/-- The calls a client makes on a transaction. -/
inductive Answer where
  | commit
  | rollback
  | buffer
deriving DecidableEq

inductive Op where
  | get (txId : Uuid)
  | insert (txId : Uuid) (state : TxState)
  | remove (txId : Uuid)
  | lock (txId : Uuid)
  | unlock (txId : Uuid) (answer : Option Answer)
  | load (txId : Uuid)
  | store (txId : Uuid) (state : TxState)
  | register (txId sessionId : Uuid)
  | extendWriteSet (txId : Uuid) (keys : List String)
  | prepare (txId : Uuid) (additionalWrites : List String)
  | deregister (txId : Uuid)
  | staleTransactions (threshold : Nat)
  | component (c : Component)
  | engine (txId : Uuid) (call : EngineCall)
  | newV4
  | now
  | append (txId : Uuid) (entry : TransactionLogEntry)
  | emit (txId : Uuid) (reason : String)
  | hand (txId : Uuid) (ctx : TransactionContext)
  | loadCtx (txId : Uuid)
  | storeCtx (txId : Uuid) (ctx : TransactionContext)

def Op.Ret : Op → Type
  | .get _ | .lock _ | .component _ => Bool
  | .load _ => TxState
  | .loadCtx _ => TransactionContext
  | .prepare _ _ => Except TxError Unit
  | .staleTransactions _ => List (Uuid × Uuid)
  | .engine _ call => Option (Except String call.Ret)
  | .newV4 => Uuid
  | .now => DateTime
  | _ => Unit

abbrev Shared : Effect.Sig := ⟨Op, Op.Ret⟩

/-- Why a call stops early: an error it returns, or its cancellation. -/
inductive Stop where
  | failed (e : TxError)
  | dropped

abbrev Call := Try Shared Stop

def perform (o : Op) : Call o.Ret := Try.lift (Prog.perform (F := Shared) o)

/-- `lifecycle.core()`, `lifecycle.vector()` and `lifecycle.branch()`: is it `Ok`? -/
abbrev lifecycle (c : Component) : Call Bool := perform (.component c)

abbrev newV4 : Call Uuid := perform .newV4

abbrev now : Call DateTime := perform .now

abbrev get (txId : Uuid) : Call Bool := perform (.get txId)

abbrev insert (txId : Uuid) (state : TxState) : Call Unit := perform (.insert txId state)

abbrev remove (txId : Uuid) : Call Unit := perform (.remove txId)

abbrev load (txId : Uuid) : Call TxState := perform (.load txId)

abbrev store (txId : Uuid) (state : TxState) : Call Unit := perform (.store txId state)

abbrev loadCtx (txId : Uuid) : Call TransactionContext := perform (.loadCtx txId)

abbrev storeCtx (txId : Uuid) (ctx : TransactionContext) : Call Unit :=
  perform (.storeCtx txId ctx)

abbrev hand (txId : Uuid) (ctx : TransactionContext) : Call Unit := perform (.hand txId ctx)

abbrev register (txId sessionId : Uuid) : Call Unit := perform (.register txId sessionId)

abbrev extendWriteSet (txId : Uuid) (keys : List String) : Call Unit :=
  perform (.extendWriteSet txId keys)

abbrev prepare (txId : Uuid) (additionalWrites : List String) : Call (Except TxError Unit) :=
  perform (.prepare txId additionalWrites)

abbrev deregister (txId : Uuid) : Call Unit := perform (.deregister txId)

abbrev staleTransactions (threshold : Nat) : Call (List (Uuid × Uuid)) :=
  perform (.staleTransactions threshold)

abbrev append (txId : Uuid) (entry : TransactionLogEntry) : Call Unit :=
  perform (.append txId entry)

abbrev emit (txId : Uuid) (reason : String) : Call Unit := perform (.emit txId reason)

def fail {α : Type} (txId : Uuid) (reason : String) : Call α :=
  throw (.failed (.transactionFailed txId reason))

/-- `engine.call(..).await` -/
def await (txId : Uuid) (call : EngineCall) : Call (Except String call.Ret) := do
  match ← perform (.engine txId call) with
  | none => throw .dropped
  | some r => pure r

/-- A result that is inspected, not passed on with `?`. -/
def attempt {α : Type} (x : Call α) : Call (Except TxError α) :=
  ExceptT.mk (x.run >>= fun
    | .ok a => .pure (.ok (.ok a))
    | .error (.failed e) => .pure (.ok (.error e))
    | .error .dropped => .pure (.error .dropped))

/-- The answer a result stands for. -/
def Answer.given {α : Type} (answer : Option Answer) : Except Stop α → Option Answer
  | .ok _ => answer
  | .error _ => none

/-- `let mut state = handle.lock().await; ..`: the guard is dropped however `x` ends. -/
def withGuard {α : Type} (txId : Uuid) (answer : Option Answer) (x : Call α) : Call α :=
  ExceptT.mk (Prog.perform (F := Shared) (.lock txId) >>= fun
    | true => x.run >>= fun r =>
        Prog.perform (F := Shared) (.unlock txId (Answer.given answer r)) >>= fun _ => .pure r
    | false => .pure (.error .dropped))

def setStatus (txId : Uuid) (status : TxStatus) : Call Unit := do
  let state ← load txId
  store txId { state with status := status }

variable [Crates] [Texts]

/-! ## `begin` -/

structure SessionContext where
  sessionId : Uuid
  agentId : Uuid

def beginCore (txId : Uuid) (state : TxState) : Call TxState := do
  if ← lifecycle .core then
    match ← await txId (.executeRawWrite "BEGIN IMMEDIATE") with
    | .error e => fail txId ("core BEGIN failed: " ++ e)
    | .ok _ => pure { state with coreTxBegun := true }
  else
    pure state

def takeSnapshot (txId : Uuid) (state : TxState) : Call TxState := do
  if ← lifecycle .branch then
    match ← await txId (.createSnapshot ("tx-" ++ Crates.uuidToString txId)) with
    | .error _ => pure state
    | .ok snapId => pure { state with branchSnapshotId := some snapId }
  else
    pure state

/-- `TransactionManager::begin` -/
def begin (session : SessionContext) : Call Uuid := do
  let txId ← newV4
  let startedAt ← now
  let state ← beginCore txId (.new txId session.sessionId session.agentId startedAt)
  let state ← takeSnapshot txId state
  register txId session.sessionId
  insert txId state
  pure txId

/-! ## `commit` -/

def getHandle (txId : Uuid) : Call Unit := do
  if ← get txId then pure () else fail txId "transaction not found"

/-- The loop over the buffer in phase 1. -/
def checkDimensions (txId : Uuid) (expected : Nat) : List VectorUpsertOp → Call Unit
  | [] => pure ()
  | op :: ops =>
      match op.dimensions with
      | none => checkDimensions txId expected ops
      | some dims =>
          if 0 < expected ∧ dims ≠ expected then
            fail txId ("vector op '" ++ op.id ++ "' has " ++ Nat.repr dims ++ " dims; expected " ++
              Nat.repr expected)
          else
            checkDimensions txId expected ops

/-- The loop over the buffer in phase 2. -/
def upsertEach (txId : Uuid) : List VectorUpsertOp → Call Unit
  | [] => pure ()
  | op :: ops => do
      match ← await txId (.upsert op) with
      | .error e => fail txId ("vector upsert '" ++ op.id ++ "' failed: " ++ e)
      | .ok _ => upsertEach txId ops

def applyUpserts (txId : Uuid) : Call Unit := do
  let state ← load txId
  if state.vectorBuffer.isEmpty then
    pure ()
  else if ← lifecycle .vector then
    store txId { state with vectorBuffer := [] }
    upsertEach txId state.vectorBuffer
  else
    pure ()

def commitCore (txId : Uuid) : Call Unit := do
  let state ← load txId
  if state.coreTxBegun then
    if ← lifecycle .core then
      match ← await txId (.executeRawWrite "COMMIT") with
      | .error e => fail txId ("core COMMIT failed: " ++ e)
      | .ok _ => store txId { state with coreTxBegun := false }
    else
      pure ()
  else
    pure ()

def deleteSnapshot (txId : Uuid) : Call Unit := do
  let state ← load txId
  match state.branchSnapshotId with
  | none => pure ()
  | some snapId =>
      store txId { state with branchSnapshotId := none }
      if ← lifecycle .branch then
        -- a failure is only logged
        let _ ← await txId (.deleteSnapshot snapId)
      else
        pure ()

def applyPhase2 (txId : Uuid) : Call Unit := do
  applyUpserts txId
  commitCore txId
  deleteSnapshot txId

def rollbackRaw (txId : Uuid) : Call Unit := do
  if ← lifecycle .core then
    -- a failure is only logged
    let _ ← await txId (.executeRawWrite "ROLLBACK")
  else
    pure ()

def rollbackCore (txId : Uuid) : Call Unit := do
  let state ← load txId
  if state.coreTxBegun then
    rollbackRaw txId
    store txId { state with coreTxBegun := false }
  else
    pure ()

def discardBuffer (txId : Uuid) : Call Unit := do
  let state ← load txId
  store txId { state with vectorBuffer := [] }

def restoreSnapshot (txId : Uuid) : Call Unit := do
  let state ← load txId
  match state.branchSnapshotId with
  | none => pure ()
  | some snapId =>
      store txId { state with branchSnapshotId := none }
      if ← lifecycle .branch then
        match ← await txId (.restoreSnapshot snapId) with
        | .error e => fail txId ("branch snapshot restore failed: " ++ e)
        | .ok _ => pure ()
      else
        pure ()

def doRollback (txId : Uuid) : Call Unit := do
  rollbackCore txId
  discardBuffer txId
  restoreSnapshot txId

/-- The end of a commit whose phase 2 failed. -/
def abandon (txId : Uuid) (e : TxError) : Call Unit := do
  setStatus txId .rollingBack
  -- an error of the rollback is only logged
  let _ ← attempt (doRollback txId)
  setStatus txId .rolledBack
  deregister txId
  remove txId
  emit txId ("transaction " ++ Crates.uuidToString txId ++
    " failed during phase-2 commit: " ++ Texts.display e)
  fail txId (Texts.display e)

/-- The end of a commit whose phase 2 succeeded. -/
def conclude (txId : Uuid) : Call Unit := do
  setStatus txId .committed
  deregister txId
  remove txId
  let now ← now
  let state ← load txId
  append txId
    ⟨txId, state.sessionId, now / 1000, state.vectorBuffer.map VectorUpsertOp.id⟩

def commitLocked (txId : Uuid) : Call Unit := do
  let state ← load txId
  if state.status ≠ .active then
    fail txId ("cannot commit; status is " ++ state.status.debug)
  else
    match ← prepare txId [] with
    | .error e => throw (.failed e)
    | .ok _ =>
        -- `lifecycle.core().map(|_| 0usize).unwrap_or(0)`
        let core ← lifecycle .core
        checkDimensions txId (if core then 0 else 0) state.vectorBuffer
        setStatus txId .committing
        match ← attempt (applyPhase2 txId) with
        | .error e => abandon txId e
        | .ok _ => conclude txId

/-- `TransactionManager::commit` -/
def commit (txId : Uuid) : Call Unit := do
  getHandle txId
  withGuard txId (some .commit) (commitLocked txId)

/-! ## `rollback` and `timeout_stale` -/

def rollbackLocked (txId : Uuid) : Call Unit := do
  let state ← load txId
  if state.status = .committed ∨ state.status = .rolledBack then
    fail txId ("cannot rollback; status is " ++ state.status.debug)
  else
    setStatus txId .rollingBack
    doRollback txId
    setStatus txId .rolledBack
    deregister txId
    remove txId

/-- `TransactionManager::rollback` -/
def rollback (txId : Uuid) : Call Unit := do
  getHandle txId
  withGuard txId (some .rollback) (rollbackLocked txId)

/-- The loop of `timeout_stale`; `count` is a `u32`, and wraps. -/
def timeoutEach : List (Uuid × Uuid) → UInt32 → Call UInt32
  | [], count => pure count
  | (txId, _) :: stale, count => do
      match ← attempt (rollback txId) with
      | .error _ => timeoutEach stale count
      | .ok _ => timeoutEach stale (count + 1)

/-- `TransactionManager::timeout_stale`; the clock of the coordinator counts nanoseconds. -/
def timeoutStale (olderThanSecs : Nat) : Call UInt32 := do
  let stale ← staleTransactions (olderThanSecs * 1000000000)
  timeoutEach stale 0

/-! ## `buffer_vector_upsert` -/

def bufferLocked (txId : Uuid) (op : VectorUpsertOp) : Call Unit := do
  let state ← load txId
  if state.status ≠ .active then
    fail txId "transaction is not active"
  else
    store txId { state with vectorBuffer := state.vectorBuffer ++ [op] }
    extendWriteSet txId [op.id]

/-- `TransactionManager::buffer_vector_upsert` -/
def bufferVectorUpsert (txId : Uuid) (op : VectorUpsertOp) : Call Unit := do
  getHandle txId
  withGuard txId (some .buffer) (bufferLocked txId op)

/-! ## The legacy calls -/

/-- `TransactionManager::begin_simple` -/
def beginSimple (sessionId : Uuid) (isolation : IsolationLevel) : Call Uuid := do
  let txId ← newV4
  register txId sessionId
  hand txId (.new txId sessionId isolation)
  pure txId

def recordLocked (txId : Uuid) (key : String) : Call Unit := do
  let ctx ← loadCtx txId
  storeCtx txId (ctx.recordWrite key)

/-- `TransactionContext::record_write`, by the owner of the context -/
def recordWrite (txId : Uuid) (key : String) : Call Unit :=
  withGuard txId none (recordLocked txId key)

def commitSimpleLocked (txId : Uuid) : Call Unit := do
  let ctx ← loadCtx txId
  if !ctx.isActive then
    fail txId "transaction is not active"
  else
    -- `check_conflicts` is `prepare`
    match ← prepare txId ctx.writeSet with
    | .error e => throw (.failed e)
    | .ok _ =>
        storeCtx txId { ctx with status := .committed }
        deregister txId
        let now ← now
        append txId ⟨txId, ctx.sessionId, now / 1000, ctx.writeSet⟩

/-- `TransactionManager::commit_simple` -/
def commitSimple (txId : Uuid) : Call Unit :=
  withGuard txId none (commitSimpleLocked txId)

/-! ## Requests -/

inductive Request where
  | begin (session : SessionContext)
  | commit (txId : Uuid)
  | rollback (txId : Uuid)
  | timeoutStale (olderThanSecs : Nat)
  | bufferVectorUpsert (txId : Uuid) (op : VectorUpsertOp)
  | beginSimple (sessionId : Uuid) (isolation : IsolationLevel)
  | recordWrite (txId : Uuid) (key : String)
  | commitSimple (txId : Uuid)

inductive Reply where
  | begun (r : Except Stop Uuid)
  | done (r : Except Stop Unit)
  | timedOut (r : Except Stop UInt32)

def handler : Request → Prog Shared Reply
  | .begin session => Reply.begun <$> (Transaction.begin session).run
  | .commit txId => Reply.done <$> (Transaction.commit txId).run
  | .rollback txId => Reply.done <$> (Transaction.rollback txId).run
  | .timeoutStale olderThanSecs => Reply.timedOut <$> (Transaction.timeoutStale olderThanSecs).run
  | .bufferVectorUpsert txId op => Reply.done <$> (Transaction.bufferVectorUpsert txId op).run
  | .beginSimple sessionId isolation =>
      Reply.begun <$> (Transaction.beginSimple sessionId isolation).run
  | .recordWrite txId key => Reply.done <$> (Transaction.recordWrite txId key).run
  | .commitSimple txId => Reply.done <$> (Transaction.commitSimple txId).run

end ClawDB.Transaction
