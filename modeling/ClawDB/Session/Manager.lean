/-
# `Session.Manager` — sessions, and the guard tokens behind them

`session/manager.rs`.  One operation is one access to the store, one call of the guard, or one
reading of the clock; between two of them any other call may run.

A session has two names.  The manager draws one with `Uuid::new_v4` and files the session under
it; the guard issues a token for a principal and a task, and what session the token stands for
is the guard's own affair.  `validate` goes by the guard's name, everything else by the
manager's.

Drawing an id and filing the session under it is one operation: the id is random and nobody
else has seen it, so nothing another call does in between is about that session.
-/
import ClawDB.Lib.Prog
import ClawDB.Session.Store

namespace ClawDB.Session

open Effect

/-- A session as it is returned to callers. -/
structure ClawDBSession where
  id : Uuid
  agentId : Uuid
  workspaceId : Uuid
  role : String
  scopes : List String
  taskType : Option String
  guardToken : String
  createdAt : DateTime
  expiresAt : DateTime
  metadata : Json.Value
deriving DecidableEq

/-- `DateTime::timestamp`: whole seconds. -/
def timestamp (t : DateTime) : Int := t / 1000

def ClawDBSession.asContext (session : ClawDBSession) : SessionContext where
  sessionId := session.id
  agentId := session.agentId
  token := session.guardToken
  role := session.role
  scopes := session.scopes
  taskType := session.taskType.getD ""
  expiresAt := timestamp session.expiresAt

/-- The events the manager emits. -/
inductive SessionEvent where
  | sessionCreated (agentId sessionId : Uuid)
  | sessionExpired (agentId sessionId : Uuid)

/-! ## What the manager calls -/

inductive Op where
  /-- `lifecycle.guard()`: was the guard started? -/
  | guard
  | issueSessionToken (principal task : String)
  /-- `validate_token(token)`, and `session_id()` of the claims -/
  | validateToken (token : String)
  | revokeSession (sessionId : Uuid)
  | now
  /-- `Uuid::new_v4`, and `store.insert` of the session with that id -/
  | fileNew (session : Uuid → ClawDBSession)
  | insert (ctx : SessionContext)
  | get (sessionId : Uuid)
  | remove (sessionId : Uuid)
  | idsForAgent (agentId : Uuid)
  | emit (event : SessionEvent)

@[reducible] def Op.Ret : Op → Type
  | .guard => Bool
  | .issueSessionToken .. => Except String String
  | .validateToken _ => Except String Uuid
  | .revokeSession _ => Except String Unit
  | .now => DateTime
  | .fileNew _ => Uuid
  | .insert _ => Unit
  | .get _ => Except SessionError SessionContext
  | .remove _ => Option SessionContext
  | .idsForAgent _ => List Uuid
  | .emit _ => Unit

abbrev Shared : Effect.Sig := ⟨Op, Op.Ret⟩

abbrev Call := Try Shared SessionError

def ask (o : Op) : Prog Shared o.Ret := Prog.perform (F := Shared) o

/-- Session duration granted when no explicit `expires_in` is requested (1 hour). -/
def defaultSessionSecs : Int := 3600

/-! ## The calls -/

def guard : Call Unit := do
  let started : Bool ← Try.lift (ask .guard)
  if started then pure () else throw (.componentNotReady "guard")

def issueSessionToken (principal task : String) : Call String :=
  Try.of (ask (.issueSessionToken principal task)) .guard

def storeGet (sessionId : Uuid) : Call SessionContext := Try.of (ask (.get sessionId)) id

section Calls

variable [Crates] (workspaceId : Uuid)

def principalOf (agentId : Uuid) : String := "agent:" ++ Crates.uuidToString agentId

/-- The session `create` makes of what it was told, under the id it draws. -/
def newSession (agentId : Uuid) (role : String) (scopes : List String) (taskType : Option String)
    (guardToken : String) (now : DateTime) (id : Uuid) : ClawDBSession where
  id := id
  agentId := agentId
  workspaceId := workspaceId
  role := role
  scopes := scopes
  taskType := taskType
  guardToken := guardToken
  createdAt := now
  expiresAt := now + defaultSessionSecs * 1000
  metadata := .null

def create (agentId : Uuid) (role : String) (scopes : List String) (taskType : Option String) :
    Call ClawDBSession := do
  guard
  let guardToken ← issueSessionToken (principalOf agentId) (taskType.getD "default")
  let now ← Try.lift (ask .now)
  let session := newSession workspaceId agentId role scopes taskType guardToken now
  let id ← Try.lift (ask (.fileNew session))
  Try.lift (ask (.emit (.sessionCreated agentId id)))
  pure (session id)

def validate (guardToken : String) : Call SessionContext := do
  guard
  let sessionId ← Try.of (ask (.validateToken guardToken)) .guard
  storeGet sessionId

def refresh (sessionId : Uuid) : Call SessionContext := do
  let existing ← storeGet sessionId
  guard
  let newToken ← issueSessionToken (principalOf existing.agentId) existing.taskType
  let now ← Try.lift (ask .now)
  let refreshed := { existing with
    token := newToken, expiresAt := timestamp now + defaultSessionSecs }
  Try.lift (ask (.insert refreshed))
  pure refreshed

/-- A guard that cannot be reached, or fails, does not make the revocation fail. -/
def revoke (sessionId : Uuid) : Call Unit := do
  match ← Try.lift (ask (.remove sessionId)) with
  | none => throw (.sessionNotFound sessionId)
  | some ctx => do
      let started : Bool ← Try.lift (ask .guard)
      if started then
        let _ ← Try.lift (ask (.revokeSession sessionId))
      Try.lift (ask (.emit (.sessionExpired ctx.agentId sessionId)))

/-- The loop of `revoke_all_for_agent`: how many of the sessions were revoked. -/
def revokeEach : List Uuid → UInt32 → Prog Shared UInt32
  | [], count => pure count
  | sessionId :: ids, count => do
      match ← (revoke sessionId).run with
      | .error _ => revokeEach ids count
      | .ok _ => revokeEach ids (count + 1)

def revokeAllForAgent (agentId : Uuid) : Prog Shared UInt32 := do
  let ids ← ask (.idsForAgent agentId)
  revokeEach ids 0

/-- Legacy: creates a session using the old call signature. -/
def createSession (agentId : Uuid) (role : String) (scopes : List String) (taskType : String) :
    Call SessionContext := do
  let session ← create workspaceId agentId role scopes (some taskType)
  pure session.asContext

/-- Legacy: retrieves a session by ID. -/
def getSession (sessionId : Uuid) : Call SessionContext := storeGet sessionId

/-- Legacy: invalidates a session without guard revocation. -/
def invalidate (sessionId : Uuid) : Prog Shared Unit := do
  let _ ← ask (.remove sessionId)
  pure ()

end Calls

/-! ## Requests -/

inductive Request where
  | create (agentId : Uuid) (role : String) (scopes : List String) (taskType : Option String)
  | createSession (agentId : Uuid) (role : String) (scopes : List String) (taskType : String)
  | validate (guardToken : String)
  | refresh (sessionId : Uuid)
  | revoke (sessionId : Uuid)
  | revokeAllForAgent (agentId : Uuid)
  | getSession (sessionId : Uuid)
  | invalidate (sessionId : Uuid)

inductive Reply where
  | session (r : Except SessionError ClawDBSession)
  | context (r : Except SessionError SessionContext)
  | done (r : Except SessionError Unit)
  | count (n : UInt32)

def handler [Crates] (workspaceId : Uuid) : Request → Prog Shared Reply
  | .create agentId role scopes taskType =>
      .session <$> (create workspaceId agentId role scopes taskType).run
  | .createSession agentId role scopes taskType =>
      .context <$> (createSession workspaceId agentId role scopes taskType).run
  | .validate guardToken => .context <$> (validate guardToken).run
  | .refresh sessionId => .context <$> (refresh sessionId).run
  | .revoke sessionId => .done <$> (revoke sessionId).run
  | .revokeAllForAgent agentId => .count <$> revokeAllForAgent agentId
  | .getSession sessionId => .context <$> (getSession sessionId).run
  | .invalidate sessionId => (fun u => .done (.ok u)) <$> invalidate sessionId

end ClawDB.Session
