/-
# `Session.Store` — the security context, and the map that holds the live ones

`session/context.rs` and `session/store.rs`.  The store is a map from session ids; `insert`
files a context under the id it carries, so that an entry is always found under its own id.
The clock is an argument: a session is valid strictly before the second it expires in.
-/
import ClawDB.Types
import Mathlib.Data.List.AList

namespace ClawDB.Session

/-- Immutable security context attached to every in-flight request. -/
structure SessionContext where
  sessionId : Uuid
  agentId : Uuid
  token : String
  role : String
  scopes : List String
  taskType : String
  expiresAt : Int
deriving DecidableEq

/-- The errors of the session manager. -/
inductive SessionError where
  | sessionNotFound (sessionId : Uuid)
  | sessionExpired (sessionId : Uuid)
  | componentNotReady (component : String)
  | guard (message : String)
deriving DecidableEq

def SessionContext.isValid (ctx : SessionContext) (now : Int) : Bool := now < ctx.expiresAt

abbrev SessionStore := AList fun _ : Uuid => SessionContext

namespace SessionStore

def insert (store : SessionStore) (ctx : SessionContext) : SessionStore :=
  AList.insert ctx.sessionId ctx store

/-- Retrieves a live session by ID. -/
def get (store : SessionStore) (now : Int) (sessionId : Uuid) :
    Except SessionError SessionContext :=
  match store.lookup sessionId with
  | none => .error (.sessionNotFound sessionId)
  | some ctx => if ctx.isValid now then .ok ctx else .error (.sessionExpired sessionId)

/-- What is left once the session for `sessionId` is taken out; `lookup` is what is returned. -/
def remove (store : SessionStore) (sessionId : Uuid) : SessionStore := AList.erase sessionId store

/-- All session IDs that belong to `agentId` (live or expired), in one of the map's orders. -/
def idsForAgent (store : SessionStore) (agentId : Uuid) : List Uuid :=
  (store.entries.filter fun e => e.2.agentId = agentId).map fun e => e.2.sessionId

variable {store : SessionStore} {ctx : SessionContext} {id : Uuid} {now : Int}

theorem lookup_insert_self : (store.insert ctx).lookup ctx.sessionId = some ctx :=
  AList.lookup_insert _

theorem lookup_insert_ne (h : id ≠ ctx.sessionId) :
    (store.insert ctx).lookup id = store.lookup id :=
  AList.lookup_insert_ne h

theorem lookup_insert_cases {ctx' : SessionContext}
    (h : (store.insert ctx).lookup id = some ctx') :
    id = ctx.sessionId ∧ ctx' = ctx ∨ store.lookup id = some ctx' := by
  by_cases hid : id = ctx.sessionId
  · rw [hid, lookup_insert_self] at h
    exact .inl ⟨hid, (Option.some.inj h).symm⟩
  · rw [lookup_insert_ne hid] at h
    exact .inr h

theorem lookup_remove_self : (store.remove id).lookup id = none := AList.lookup_erase _ _

theorem lookup_remove_ne {id' : Uuid} (h : id' ≠ id) :
    (store.remove id).lookup id' = store.lookup id' :=
  AList.lookup_erase_ne h

theorem get_ok : store.get now id = .ok ctx ↔
    store.lookup id = some ctx ∧ ctx.isValid now = true := by
  unfold get
  cases store.lookup id with
  | none => simp
  | some found =>
      show (if found.isValid now = true then _ else _) = _ ↔ _
      by_cases hv : found.isValid now = true
      · rw [if_pos hv]
        constructor
        · intro h
          obtain rfl := Except.ok.inj h
          exact ⟨rfl, hv⟩
        · rintro ⟨h, -⟩
          rw [Option.some.inj h]
      · rw [if_neg hv]
        constructor
        · intro h
          cases h
        · rintro ⟨h, hctx⟩
          rw [Option.some.inj h] at hv
          exact absurd hctx hv

/-- Every entry is filed under the id it carries. -/
def Filed (store : SessionStore) : Prop :=
  ∀ id ctx, store.lookup id = some ctx → ctx.sessionId = id

theorem filed_empty : Filed (∅ : SessionStore) := by
  intro id ctx h
  rw [AList.lookup_empty] at h
  cases h

theorem Filed.insert (h : Filed store) (ctx : SessionContext) : Filed (store.insert ctx) := by
  intro id ctx' hctx
  rcases lookup_insert_cases hctx with ⟨rfl, rfl⟩ | hctx
  · rfl
  · exact h id ctx' hctx

theorem Filed.remove (h : Filed store) (id : Uuid) : Filed (store.remove id) := by
  intro id' ctx hctx
  by_cases hid : id' = id
  · rw [hid, lookup_remove_self] at hctx
    cases hctx
  · rw [lookup_remove_ne hid] at hctx
    exact h id' ctx hctx

end SessionStore

end ClawDB.Session
