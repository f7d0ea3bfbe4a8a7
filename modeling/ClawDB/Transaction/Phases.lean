/-
# `Transaction.Phases` — phase 2 and the rollback, for any logic

Every result about the manager walks through the same programs: they read the state of the
transaction, ask an engine, and write the state back with one field changed.  `Rules` are the
rules a logic of programs needs for such a walk.  `ok` is what it knows of a state that is read
and asks of one that is written, `asks` the engine calls it can follow; the core flag and the
snapshot id of a state are of no concern to any of them.
-/
import ClawDB.Transaction.Manager

namespace ClawDB.Transaction

structure Rules (tx : Uuid) (ok : TxState → Prop) (asks : EngineCall → Prop)
    (K : {α : Type} → Call α → Prop) : Prop where
  pure {α : Type} (a : α) : K (Pure.pure a)
  throw {α : Type} (e : Stop) : K (MonadExcept.throw e : Call α)
  bind {α β : Type} {x : Call α} {f : α → Call β} : K x → (∀ a, K (f a)) → K (x >>= f)
  lifecycle (c : Component) : K (Transaction.lifecycle c)
  engine (call : EngineCall) : asks call → K (perform (.engine tx call))
  load {β : Type} {f : TxState → Call β} : (∀ s, ok s → K (f s)) → K (Transaction.load tx >>= f)
  store (s : TxState) : ok s → K (Transaction.store tx s)
  core (s : TxState) (b : Bool) : ok s → ok { s with coreTxBegun := b }
  snapshot (s : TxState) (snap : Option Uuid) : ok s → ok { s with branchSnapshotId := snap }

namespace Rules

variable {tx : Uuid} {ok : TxState → Prop} {asks : EngineCall → Prop}
  {K : {α : Type} → Call α → Prop}

theorem fail {α : Type} (h : Rules tx ok asks K) (reason : String) :
    K (Transaction.fail tx reason : Call α) :=
  h.throw _

theorem await (h : Rules tx ok asks K) {call : EngineCall} (hcall : asks call) :
    K (Transaction.await tx call) := by
  refine h.bind (h.engine call hcall) fun r => ?_
  cases r with
  | none => exact h.throw _
  | some r => exact h.pure r

theorem setStatus (h : Rules tx ok asks K) {st : TxStatus}
    (hst : ∀ s, ok s → ok { s with status := st }) : K (Transaction.setStatus tx st) :=
  h.load fun s hs => h.store _ (hst s hs)

/-! ### Phase 2 -/

theorem upsertEach (h : Rules tx ok asks K) (hupsert : ∀ op, asks (.upsert op))
    (ops : List VectorUpsertOp) : K (Transaction.upsertEach tx ops) := by
  induction ops with
  | nil => exact h.pure ()
  | cons op ops ih =>
      refine h.bind (h.await (hupsert op)) fun r => ?_
      cases r with
      | error e => exact h.fail _
      | ok u => exact ih

theorem applyUpserts (h : Rules tx ok asks K) (hupsert : ∀ op, asks (.upsert op))
    (hbuffer : ∀ s, ok s → ok { s with vectorBuffer := [] }) :
    K (Transaction.applyUpserts tx) := by
  refine h.load fun s hs => ?_
  split
  · exact h.pure ()
  · refine h.bind (h.lifecycle _) fun up => ?_
    split
    · exact h.bind (h.store _ (hbuffer s hs)) fun _ => h.upsertEach hupsert _
    · exact h.pure ()

theorem commitCore (h : Rules tx ok asks K) (hcommit : asks (.executeRawWrite "COMMIT")) :
    K (Transaction.commitCore tx) := by
  refine h.load fun s hs => ?_
  split
  · refine h.bind (h.lifecycle _) fun up => ?_
    split
    · refine h.bind (h.await hcommit) fun r => ?_
      cases r with
      | error e => exact h.fail _
      | ok u => exact h.store _ (h.core s _ hs)
    · exact h.pure ()
  · exact h.pure ()

theorem deleteSnapshot (h : Rules tx ok asks K) (hdelete : ∀ id, asks (.deleteSnapshot id)) :
    K (Transaction.deleteSnapshot tx) := by
  refine h.load fun s hs => ?_
  cases s.branchSnapshotId with
  | none => exact h.pure ()
  | some snapId =>
      refine h.bind (h.store _ (h.snapshot s _ hs)) fun _ => h.bind (h.lifecycle _) fun up => ?_
      split
      · exact h.bind (h.await (hdelete snapId)) fun _ => h.pure ()
      · exact h.pure ()

/-! ### The rollback -/

theorem rollbackRaw (h : Rules tx ok asks K) (hrollback : asks (.executeRawWrite "ROLLBACK")) :
    K (Transaction.rollbackRaw tx) := by
  refine h.bind (h.lifecycle _) fun up => ?_
  split
  · exact h.bind (h.await hrollback) fun _ => h.pure ()
  · exact h.pure ()

theorem rollbackCore (h : Rules tx ok asks K) (hrollback : asks (.executeRawWrite "ROLLBACK")) :
    K (Transaction.rollbackCore tx) := by
  refine h.load fun s hs => ?_
  split
  · exact h.bind (h.rollbackRaw hrollback) fun _ => h.store _ (h.core s _ hs)
  · exact h.pure ()

theorem discardBuffer (h : Rules tx ok asks K)
    (hbuffer : ∀ s, ok s → ok { s with vectorBuffer := [] }) : K (Transaction.discardBuffer tx) :=
  h.load fun s hs => h.store _ (hbuffer s hs)

theorem restoreSnapshot (h : Rules tx ok asks K) (hrestore : ∀ id, asks (.restoreSnapshot id)) :
    K (Transaction.restoreSnapshot tx) := by
  refine h.load fun s hs => ?_
  cases s.branchSnapshotId with
  | none => exact h.pure ()
  | some snapId =>
      refine h.bind (h.store _ (h.snapshot s _ hs)) fun _ => h.bind (h.lifecycle _) fun up => ?_
      split
      · refine h.bind (h.await (hrestore snapId)) fun r => ?_
        cases r with
        | error e => exact h.fail _
        | ok u => exact h.pure ()
      · exact h.pure ()

theorem doRollback (h : Rules tx ok asks K) (hrollback : asks (.executeRawWrite "ROLLBACK"))
    (hbuffer : ∀ s, ok s → ok { s with vectorBuffer := [] })
    (hrestore : ∀ id, asks (.restoreSnapshot id)) : K (Transaction.doRollback tx) :=
  h.bind (h.rollbackCore hrollback) fun _ => h.bind (h.discardBuffer hbuffer) fun _ =>
    h.restoreSnapshot hrestore

end Rules

end ClawDB.Transaction
