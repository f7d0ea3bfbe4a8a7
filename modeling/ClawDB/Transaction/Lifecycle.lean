/-
# `Transaction.Lifecycle` — what a call may do to a transaction

A transaction is new, then open to writes; it passes the gate of `prepare` at most once, with
everything written to it and against everything the others have on record; and it ends
committed, which it cannot be without having passed, or rolled back.  Once a commit or a
rollback has been answered it does not change any more.

`Move` is a change that respects this, `Rest` what holds of a transaction while no call holds
its mutex.  Every call of the manager keeps to both by itself (`lifecycle_obeyed`), cancelled
at whichever await; what holds of all runs follows with `Lib.Mutex`.
-/
import ClawDB.Transaction.Phases
import ClawDB.Transaction.System

namespace ClawDB.Transaction

open Effect

/-! ## Reading a transaction -/

namespace View

variable (v : View)

def recorded : List String := (v.record.map TxRecord.writeSet).getD []

/-- The ids in the vector buffer, in order. -/
def buffered : List String :=
  (v.cell.state.map fun s => s.vectorBuffer.map VectorUpsertOp.id).getD []

/-- What has been written: buffered upserts, or the keys of a context. -/
def writeSet : List String :=
  v.buffered ++ (v.cell.ctx.map TransactionContext.writeSet).getD []

/-- A commit or a rollback has been answered with `Ok`. -/
def Closed : Prop := Answer.commit ∈ v.cell.answered ∨ Answer.rollback ∈ v.cell.answered

def Active : Prop := ∃ s, v.cell.state = some s ∧ s.status = .active

def Committed : Prop :=
  (∃ s, v.cell.state = some s ∧ s.status = .committed) ∨
    ∃ ctx, v.cell.ctx = some ctx ∧ ctx.status = .committed

/-- On the way back, or rolled back. -/
def Aborting : Prop :=
  ∃ s, v.cell.state = some s ∧ (s.status = .rollingBack ∨ s.status = .rolledBack)

end View

/-! ## Moves -/

/-- A change of an open transaction that leaves the gate alone. -/
structure Keeps (v v' : View) : Prop where
  opened : ¬v.Closed
  gate : v'.cell.gate = v.cell.gate
  answers : v'.cell.answered = v.cell.answered ∨ ∃ a, v'.cell.answered = v.cell.answered ++ [a]
  committed : v'.Committed → v.Committed ∨ v.cell.gate.isSome
  recorded : v.cell.gate = none → (∀ k ∈ v.recorded, k ∈ v'.recorded) ∨ v'.Aborting
  aborting : v.cell.gate = none → v.Aborting → v'.Aborting

inductive Move (tx : Uuid) (w w' : World) : Prop where
  | still : w'.view tx = w.view tx → Move tx w w'
  | keeps : Keeps (w.view tx) (w'.view tx) → Move tx w w'
  | passes : ¬(w.view tx).Closed → (w.view tx).cell.gate = none → ¬(w.view tx).Aborting →
      w'.view tx = { w.view tx with
        cell := { (w.view tx).cell with gate := some (w.view tx).writeSet } } →
      (∀ k ∈ (w.view tx).recorded, k ∈ (w.view tx).writeSet) →
      (∀ tx', tx' ≠ tx → ∀ k ∈ (w.view tx').recorded, k ∉ (w.view tx).writeSet) → Move tx w w'

/-! ## What holds at rest -/

/-- A transaction of the manager whose status is `st`. -/
structure At (st : TxStatus) (v : View) : Prop where
  drawn : v.drawn
  noCtx : v.cell.ctx = none
  opened : ¬v.Closed
  state : ∃ s, v.cell.state = some s ∧ s.status = st
  gate : st = .committing ∨ st = .committed → v.cell.gate.isSome

/-- Open to writes: what it holds is what the coordinator has on record. -/
structure Idle (v : View) : Prop where
  status : At .active v
  listed : v.cell.listed = true
  gate : v.cell.gate = none
  recorded : ∃ r, v.record = some r ∧ r.writeSet = v.buffered

/-- Ending, answered or not. -/
structure Settled (v : View) : Prop where
  drawn : v.drawn
  noCtx : v.cell.ctx = none
  state : ∃ s, v.cell.state = some s ∧
    (s.status = .committed ∧ v.cell.gate.isSome ∨ s.status = .rolledBack)
  listed : v.cell.listed = false
  record : v.record = none

/-- A context of the legacy calls. -/
structure Simple (v : View) : Prop where
  drawn : v.drawn
  noState : v.cell.state = none
  opened : ¬v.Closed
  recorded : v.recorded = []
  ctx : ∃ ctx, v.cell.ctx = some ctx ∧
    (ctx.status = .active ∧ v.cell.gate = none ∨ ctx.status = .committed ∧ v.cell.gate.isSome)

inductive Rest (v : View) : Prop where
  | new : ¬v.drawn → v.cell = {} → v.record = none → Rest v
  | idle : Idle v → Rest v
  | committing : At .committing v → Rest v
  | rollingBack : At .rollingBack v → Rest v
  | settled : Settled v → Rest v
  | simple : Simple v → Rest v

/-- The discipline of the manager. -/
def discipline : Discipline parts where
  inv _ v := Rest v
  move := Move
  still h := .still h

/-! ## Programs that hold the guard -/

variable {α β : Type} {tx : Uuid} {P : View → Prop} {Q : View → Except Stop α → Prop}

/-- A program that holds the guard of `tx`, on a transaction with `P`, changes it by moves
only and leaves it with `Q`. -/
def Spec (tx : Uuid) (x : Call α) (P : View → Prop) (Q : View → Except Stop α → Prop) : Prop :=
  ∀ v, P v → discipline.owns x.run (fun own r => ∃ v', own = some (tx, v') ∧ Q v' r) (some (tx, v))

namespace Spec

theorem pre {x : Call α} {P' : View → Prop} (h : Spec tx x P Q) (hP : ∀ v, P' v → P v) :
    Spec tx x P' Q :=
  fun v hv => h v (hP v hv)

theorem post {x : Call α} {Q' : View → Except Stop α → Prop} (h : Spec tx x P Q)
    (hQ : ∀ v r, Q v r → Q' v r) : Spec tx x P Q' := by
  intro v hv
  refine Discipline.owns_mono (fun own r hr => ?_) (h v hv)
  obtain ⟨v', he, hq⟩ := hr
  exact ⟨v', he, hQ v' r hq⟩

theorem pure (a : α) (h : ∀ v, P v → Q v (.ok a)) : Spec tx (Pure.pure a) P Q :=
  fun v hv => ⟨v, rfl, h v hv⟩

theorem throw (e : Stop) (h : ∀ v, P v → Q v (.error e)) :
    Spec tx (MonadExcept.throw e : Call α) P Q :=
  fun v hv => ⟨v, rfl, h v hv⟩

/-- What a fact about the transaction at hand may assume. -/
theorem of_view {x : Call α} (h : ∀ v, P v → Spec tx x (· = v) Q) : Spec tx x P Q :=
  fun v hv => h v hv v rfl

theorem bind {x : Call α} {f : α → Call β} {Q : View → Except Stop β → Prop}
    {M : View → Except Stop α → Prop} (hx : Spec tx x P M)
    (herr : ∀ v e, M v (.error e) → Q v (.error e))
    (hf : ∀ a, Spec tx (f a) (fun v => M v (.ok a)) Q) : Spec tx (x >>= f) P Q := by
  intro v hv
  refine Discipline.owns_try (Discipline.owns_mono (fun own r hr => ?_) (hx v hv))
  obtain ⟨v', rfl, hm⟩ := hr
  cases r with
  | ok a => exact hf a v' hm
  | error e => exact ⟨v', rfl, herr v' e hm⟩

theorem owns_op {o : Op} {Q : Option (Uuid × View) → Except Stop o.Ret → Prop}
    {own : Option (Uuid × View)} : discipline.owns (perform o).run Q own ↔
      ∀ r, discipline.After own o r fun own' => Q own' (.ok r) := by
  rw [perform, Try.run_lift, Discipline.owns_bind, Discipline.owns_perform]
  rfl

/-- An operation on the transaction. -/
theorem act {o : Op} {Q : View → Except Stop o.Ret → Prop} (hrole : ∀ r, role o r = .act tx)
    (h : ∀ w r w', sem o w r w' → P (w.view tx) → Move tx w w' ∧ Q (w'.view tx) (.ok r)) :
    Spec tx (perform o) P Q := by
  intro v hv
  refine owns_op.mpr fun r => ?_
  unfold Discipline.After
  rw [show parts.role o r = .act tx from hrole r]
  refine ⟨v, rfl, fun w w' hs hw => ?_⟩
  obtain ⟨hm, hq⟩ := h w r w' hs (show P (parts.view w tx) from hw ▸ hv)
  exact ⟨hm, _, rfl, hq⟩

/-- An operation that concerns no transaction. -/
theorem quiet {o : Op} {Q : View → Except Stop o.Ret → Prop} (hrole : ∀ r, role o r = .quiet)
    (h : ∀ v r, P v → Q v (.ok r)) : Spec tx (perform o) P Q := by
  intro v hv
  refine owns_op.mpr fun r => ?_
  unfold Discipline.After
  rw [show parts.role o r = .quiet from hrole r]
  exact ⟨v, rfl, h v r hv⟩

end Spec

/-- Inspecting a result changes nothing. -/
theorem owns_attempt {x : Call α} {own : Option (Uuid × View)}
    {I : Option (Uuid × View) → Prop} (h : discipline.owns x.run (fun own _ => I own) own) :
    discipline.owns (attempt x).run (fun own _ => I own) own := by
  show discipline.owns (x.run >>= _) _ _
  rw [Discipline.owns_bind]
  refine Discipline.owns_mono (fun own' r hr => ?_) h
  cases r with
  | ok a => exact hr
  | error e => cases e <;> exact hr

/-- The same, of a program that cannot fail. -/
def Runs (tx : Uuid) (x : Call α) (P : View → Prop) (M : View → α → Prop) : Prop :=
  Spec tx x P fun v r => ∃ a, r = .ok a ∧ M v a

namespace Runs

theorem seq {x : Call α} {f : α → Call β} {Q : View → Except Stop β → Prop}
    {M : View → α → Prop} (hx : Runs tx x P M) (hf : ∀ a, Spec tx (f a) (fun v => M v a) Q) :
    Spec tx (x >>= f) P Q := by
  refine Spec.bind hx ?_ fun a => (hf a).pre ?_
  · rintro v e ⟨a, he, -⟩; cases he
  · rintro v ⟨a', he, hm⟩
    obtain rfl := Except.ok.inj he
    exact hm

theorem pre {x : Call α} {P' : View → Prop} {M : View → α → Prop} (h : Runs tx x P M)
    (hP : ∀ v, P' v → P v) : Runs tx x P' M :=
  Spec.pre h hP

theorem on {x : Call α} {M : View → α → Prop} (h : Runs tx x P M) {v : View} (hv : P v) :
    Runs tx x (· = v) M :=
  h.pre fun _ he => he ▸ hv

theorem act {o : Op} {M : View → o.Ret → Prop} (hrole : ∀ r, role o r = .act tx)
    (h : ∀ w r w', sem o w r w' → P (w.view tx) → Move tx w w' ∧ M (w'.view tx) r) :
    Runs tx (perform o) P M :=
  Spec.act hrole fun w r w' hs hP => ⟨(h w r w' hs hP).1, r, rfl, (h w r w' hs hP).2⟩

theorem quiet {o : Op} (hrole : ∀ r, role o r = .quiet) : Runs tx (perform o) P fun v _ => P v :=
  Spec.quiet hrole fun _ r hv => ⟨r, rfl, hv⟩

end Runs

/-! ## Operations on the state -/

theorem runs_load : Runs tx (load tx) P fun v s => P v ∧ v.cell.state = some s := by
  refine Runs.act (fun _ => rfl) ?_
  rintro w s w' ⟨hs, rfl⟩ hP
  exact ⟨.still rfl, hP, hs⟩

/-- Alike in everything but the map, and what engines, log and bus were asked. -/
structure Alike (v v' : View) : Prop where
  drawn : v'.drawn = v.drawn
  state : v'.cell.state = v.cell.state
  ctx : v'.cell.ctx = v.cell.ctx
  gate : v'.cell.gate = v.cell.gate
  answered : v'.cell.answered = v.cell.answered
  record : v'.record = v.record

theorem Alike.keeps {v v' : View} (h : Alike v v') (ho : ¬v.Closed) : Keeps v v' where
  opened := ho
  gate := h.gate
  answers := .inl h.answered
  committed hc := .inl (by unfold View.Committed at hc ⊢; rwa [h.state, h.ctx] at hc)
  recorded _ := .inl fun k hk => by unfold View.recorded at hk ⊢; rwa [h.record]
  aborting _ ha := by unfold View.Aborting at ha ⊢; rwa [h.state]

theorem Alike.at {v v' : View} {st : TxStatus} (h : Alike v v') (hv : At st v) : At st v' where
  drawn := h.drawn ▸ hv.drawn
  noCtx := h.ctx ▸ hv.noCtx
  opened := by unfold View.Closed; rw [h.answered]; exact hv.opened
  state := h.state ▸ hv.state
  gate := h.gate ▸ hv.gate

theorem alike_engine {w w' : World} {call : EngineCall} {r : (Op.engine tx call).Ret}
    (h : sem (.engine tx call) w r w') : Alike (w.view tx) (w'.view tx) := by
  obtain ⟨b, -, rfl⟩ := h
  rw [view_setCell]
  exact ⟨rfl, rfl, rfl, rfl, rfl, rfl⟩

theorem alike_remove {w w' : World} {r : (Op.remove tx).Ret} (h : sem (.remove tx) w r w') :
    Alike (w.view tx) (w'.view tx) ∧ (w'.view tx).cell.listed = false := by
  obtain rfl := h
  rw [view_setCell]
  exact ⟨⟨rfl, rfl, rfl, rfl, rfl, rfl⟩, rfl⟩

theorem alike_emit {w w' : World} {reason : String} {r : (Op.emit tx reason).Ret}
    (h : sem (.emit tx reason) w r w') :
    Alike (w.view tx) (w'.view tx) ∧ (w'.view tx).cell.listed = (w.view tx).cell.listed := by
  obtain rfl := h
  rw [view_setCell]
  exact ⟨⟨rfl, rfl, rfl, rfl, rfl, rfl⟩, rfl⟩

theorem alike_append {w w' : World} {entry : TransactionLogEntry}
    {r : (Op.append tx entry).Ret} (h : sem (.append tx entry) w r w') :
    Alike (w.view tx) (w'.view tx) ∧ (w'.view tx).cell.listed = (w.view tx).cell.listed := by
  obtain rfl := h
  show Alike _ ((w.setCell tx _).view tx) ∧ ((w.setCell tx _).view tx).cell.listed = _
  rw [view_setCell]
  exact ⟨⟨rfl, rfl, rfl, rfl, rfl, rfl⟩, rfl⟩

def TxStatus.Aborting (st : TxStatus) : Prop := st = .rollingBack ∨ st = .rolledBack

theorem keeps_store {v : View} {s s' : TxState} (ho : ¬v.Closed) (hs : v.cell.state = some s)
    (hcommitted : s'.status = .committed → s.status = .committed ∨ v.cell.gate.isSome)
    (haborting : s.status.Aborting → s'.status.Aborting) :
    Keeps v { v with cell := { v.cell with state := some s' } } where
  opened := ho
  gate := rfl
  answers := .inl rfl
  committed hc := by
    rcases hc with ⟨s₁, hs₁, hst⟩ | hctx
    · obtain rfl := Option.some.inj hs₁
      exact (hcommitted hst).imp (fun h => .inl ⟨s, hs, h⟩) id
    · exact .inl (.inr hctx)
  recorded _ := .inl fun _ hk => hk
  aborting _ ha := by
    obtain ⟨s₁, hs₁, hst⟩ := ha
    rw [hs] at hs₁
    obtain rfl := Option.some.inj hs₁
    exact ⟨s', rfl, haborting hst⟩

/-! ## Programs that leave the status alone -/

/-- On a transaction whose status is `st` the program leaves it so. -/
def Keeping (tx : Uuid) (st : TxStatus) (x : Call α) : Prop :=
  Spec tx x (At st) fun v _ => At st v

namespace Keeping

variable {st : TxStatus}

theorem pure (a : α) : Keeping tx st (Pure.pure a : Call α) := Spec.pure a fun _ h => h

theorem throw (e : Stop) : Keeping tx st (MonadExcept.throw e : Call α) :=
  Spec.throw e fun _ h => h

theorem bind {x : Call α} {f : α → Call β} (hx : Keeping tx st x)
    (hf : ∀ a, Keeping tx st (f a)) : Keeping tx st (x >>= f) :=
  Spec.bind hx (fun _ _ h => h) hf

theorem quiet {o : Op} (hrole : ∀ r, role o r = .quiet) : Keeping tx st (perform o) :=
  Spec.quiet hrole fun _ _ h => h

theorem lifecycle (c : Component) : Keeping tx st (Transaction.lifecycle c) :=
  quiet fun _ => rfl

theorem engine (call : EngineCall) : Keeping tx st (perform (.engine tx call)) :=
  Spec.act (fun _ => rfl) fun _ _ _ hs hv =>
    ⟨.keeps ((alike_engine hs).keeps hv.opened), (alike_engine hs).at hv⟩

theorem load {f : TxState → Call β} (hf : ∀ s, s.status = st → Keeping tx st (f s)) :
    Keeping tx st (Transaction.load tx >>= f) := by
  refine Runs.seq runs_load fun s => Spec.of_view fun v hv => ?_
  obtain ⟨hat, hs⟩ := hv
  obtain ⟨s₀, hs₀, hst⟩ := hat.state
  rw [hs] at hs₀
  obtain rfl := Option.some.inj hs₀
  exact (hf _ hst).pre fun v' hv' => hv' ▸ hat

theorem store (s : TxState) (h : s.status = st) : Keeping tx st (Transaction.store tx s) := by
  refine Spec.act (fun _ => rfl) fun w _ w' hs hv => ?_
  obtain rfl := hs
  obtain ⟨s₀, hs₀, hst⟩ := hv.state
  refine ⟨.keeps ?_, ?_⟩ <;> rw [view_setCell]
  · exact keeps_store hv.opened hs₀ (fun hc => .inl (by rw [hst, ← h, hc]))
      fun ha => by rw [h, ← hst]; exact ha
  · exact ⟨hv.drawn, hv.noCtx, hv.opened, ⟨s, rfl, h⟩, hv.gate⟩

theorem attempt {x : Call α} (hx : Keeping tx st x) : Keeping tx st (Transaction.attempt x) :=
  fun v hv => owns_attempt (hx v hv)

end Keeping

/-! ## Phase 2 and the rollback of the engines -/

section Phases

variable {st : TxStatus}

theorem keeping_rules : Rules tx (fun s => s.status = st) (fun _ => True) (Keeping tx st) where
  pure := Keeping.pure
  throw := Keeping.throw
  bind := Keeping.bind
  lifecycle := Keeping.lifecycle
  engine call _ := Keeping.engine call
  load := Keeping.load
  store := Keeping.store
  core _ _ hs := hs
  snapshot _ _ hs := hs

theorem keeping_applyPhase2 : Keeping tx st (applyPhase2 tx) := by
  refine (keeping_rules.applyUpserts (fun _ => trivial) fun _ hs => hs).bind fun _ => ?_
  refine (keeping_rules.commitCore trivial).bind fun _ => ?_
  exact keeping_rules.deleteSnapshot fun _ => trivial

theorem keeping_doRollback : Keeping tx st (doRollback tx) :=
  keeping_rules.doRollback trivial (fun _ hs => hs) fun _ => trivial

end Phases

/-! ## From one status to the next -/

theorem runs_setStatus (st : TxStatus) {st' : TxStatus}
    (hP : ∀ v, P v → At st v ∧ (st' = .committing ∨ st' = .committed → v.cell.gate.isSome))
    (hst : st.Aborting → st'.Aborting) : Runs tx (setStatus tx st') P fun v _ => At st' v := by
  refine runs_load.seq fun s => Runs.act (fun _ => rfl) fun w r w' hs hv => ?_
  obtain rfl := hs
  obtain ⟨hp, hs⟩ := hv
  obtain ⟨hat, hgate⟩ := hP _ hp
  obtain ⟨s₀, hs₀, hst₀⟩ := hat.state
  rw [hs] at hs₀
  obtain rfl := Option.some.inj hs₀
  refine ⟨.keeps ?_, ?_⟩ <;> rw [view_setCell]
  · exact keeps_store hat.opened hs (fun hc => .inr (hgate (.inr hc))) fun ha => hst (hst₀ ▸ ha)
  · exact ⟨hat.drawn, hat.noCtx, hat.opened, ⟨_, rfl, rfl⟩, hgate⟩

/-- Ending, not yet answered. -/
structure Ending (st : TxStatus) (v : View) : Prop where
  status : At st v
  record : v.record = none
  listed : v.cell.listed = false

theorem Alike.ending {v v' : View} {st : TxStatus} (h : Alike v v')
    (hl : v'.cell.listed = v.cell.listed) (hv : Ending st v) : Ending st v' :=
  ⟨h.at hv.status, h.record.trans hv.record, hl.trans hv.listed⟩

/-- An end to a transaction. -/
def TxStatus.Final (st : TxStatus) : Prop := st = .committed ∨ st = .rolledBack

theorem runs_deregister {st : TxStatus} (hst : st.Final) :
    Runs tx (deregister tx) (At st) fun v _ => At st v ∧ v.record = none := by
  refine Runs.act (fun _ => rfl) fun w r w' hs hv => ?_
  obtain rfl := hs
  rw [view_erase]
  refine ⟨.keeps ?_, ⟨hv.drawn, hv.noCtx, hv.opened, hv.state, hv.gate⟩, rfl⟩
  rw [view_erase]
  refine ⟨hv.opened, rfl, .inl rfl, .inl, ?_, fun _ h => h⟩
  intro hgate
  rcases hst with rfl | rfl
  · have hsome := hv.gate (.inr rfl)
    rw [hgate] at hsome
    cases hsome
  · obtain ⟨s, hs, hst⟩ := hv.state
    exact .inr ⟨s, hs, .inr hst⟩

theorem runs_remove {st : TxStatus} :
    Runs tx (remove tx) (fun v => At st v ∧ v.record = none) fun v _ => Ending st v := by
  refine Runs.act (fun _ => rfl) fun w r w' hs hv => ?_
  obtain ⟨hat, hrecord⟩ := hv
  obtain ⟨halike, hlisted⟩ := alike_remove hs
  exact ⟨.keeps (halike.keeps hat.opened), halike.at hat, halike.record.trans hrecord, hlisted⟩

theorem runs_append {st : TxStatus} (entry : TransactionLogEntry) :
    Runs tx (append tx entry) (Ending st) fun v _ => Ending st v := by
  refine Runs.act (fun _ => rfl) fun w r w' hs hv => ?_
  obtain ⟨halike, hlisted⟩ := alike_append hs
  exact ⟨.keeps (halike.keeps hv.status.opened), halike.ending hlisted hv⟩

theorem runs_emit {st : TxStatus} (reason : String) :
    Runs tx (emit tx reason) (Ending st) fun v _ => Ending st v := by
  refine Runs.act (fun _ => rfl) fun w r w' hs hv => ?_
  obtain ⟨halike, hlisted⟩ := alike_emit hs
  exact ⟨.keeps (halike.keeps hv.status.opened), halike.ending hlisted hv⟩

theorem Ending.settled {st : TxStatus} {v : View} (h : Ending st v) (hst : st.Final) :
    Settled v := by
  obtain ⟨s, hs, rfl⟩ := h.status.state
  refine ⟨h.status.drawn, h.status.noCtx, ⟨s, hs, ?_⟩, h.listed, h.record⟩
  rcases hst with hst | hst
  · exact .inl ⟨hst, h.status.gate (.inr hst)⟩
  · exact .inr hst

/-! ## The bodies of the calls -/

/-- How the body of a call leaves the transaction: at rest if it fails or is cancelled. -/
def Leaves (R : View → Prop) (v : View) : Except Stop α → Prop
  | .ok _ => R v
  | .error _ => Rest v

/-- What a commit or a rollback leaves that is about to be answered. -/
def Done (v : View) : Prop := Settled v ∧ ¬v.Closed

theorem Ending.done {st : TxStatus} {v : View} (h : Ending st v) (hst : st.Final) : Done v :=
  ⟨h.settled hst, h.status.opened⟩

theorem spec_fail {R : View → Prop} (reason : String) (h : ∀ v, P v → Rest v) :
    Spec tx (fail tx reason : Call α) P (Leaves R) :=
  Spec.throw _ fun v hv => h v hv

theorem spec_conclude : Spec tx (conclude tx) (At .committing) (Leaves Done) := by
  refine (runs_setStatus .committing
    (fun v hv => ⟨hv, fun _ => hv.gate (.inl rfl)⟩) ?_).seq fun _ => ?_
  · rintro (h | h) <;> cases h
  refine (runs_deregister (.inl rfl)).seq fun _ => runs_remove.seq fun _ => ?_
  refine (Runs.quiet fun _ => rfl).seq fun _ => runs_load.seq fun s => ?_
  refine ((runs_append _).pre fun v hv => hv.1).post ?_
  rintro v r ⟨u, rfl, hv⟩
  exact hv.done (.inl rfl)

theorem spec_abandon [Crates] [Texts] {R : View → Prop} (e : TxError) :
    Spec tx (abandon tx e) (At .committing) (Leaves R) := by
  have haborting : TxStatus.Aborting .committing → TxStatus.Aborting .rollingBack :=
    fun _ => .inl rfl
  refine (runs_setStatus .committing (fun v hv => ⟨hv, ?_⟩) haborting).seq fun _ => ?_
  · rintro (h | h) <;> cases h
  refine Spec.bind keeping_doRollback.attempt (fun v e hv => .rollingBack hv) fun _ => ?_
  refine (runs_setStatus .rollingBack (fun v hv => ⟨hv, ?_⟩) fun _ => .inr rfl).seq fun _ => ?_
  · rintro (h | h) <;> cases h
  refine (runs_deregister (.inr rfl)).seq fun _ => runs_remove.seq fun _ => ?_
  refine (runs_emit _).seq fun _ => spec_fail _ fun v hv => ?_
  exact .settled (hv.settled (.inr rfl))

/-! ## The gate -/

/-- What `prepare` does to a transaction it lets through. -/
def View.pass (v : View) : View :=
  { v with cell := { v.cell with gate := some v.writeSet } }

theorem recorded_eq_some {v : View} {k : String} (hk : k ∈ v.recorded) :
    ∃ record, v.record = some record ∧ k ∈ record.writeSet := by
  unfold View.recorded at hk
  cases hr : v.record with
  | none => rw [hr] at hk; cases hk
  | some record => rw [hr] at hk; exact ⟨record, rfl, hk⟩

/-- `prepare` with everything written so far. -/
theorem move_prepare {w w' : World} {more : List String} {u : Unit}
    (hs : sem (.prepare tx more) w (.ok u) w')
    (hwrites : (w.view tx).recorded ++ more = (w.view tx).writeSet)
    (hopen : ¬(w.view tx).Closed) (hgate : (w.view tx).cell.gate = none)
    (hactive : ¬(w.view tx).Aborting) :
    Move tx w w' ∧ w'.view tx = (w.view tx).pass := by
  obtain ⟨hclear, rfl⟩ := hs
  have hw : w.writes tx ++ more = (w.view tx).writeSet := hwrites
  have hview : (w.setCell tx { w.cells tx with gate := some (w.writes tx ++ more) }).view tx =
      (w.view tx).pass := by
    rw [view_setCell, hw]
    rfl
  refine ⟨.passes hopen hgate hactive hview ?_ ?_, hview⟩
  · intro k hk
    rw [← hwrites]
    exact List.mem_append_left _ hk
  · intro tx' hne k hk hmine
    obtain ⟨record, hr, hk⟩ := recorded_eq_some hk
    rw [← hw] at hmine
    exact hclear ⟨tx', record⟩ (AList.mem_lookup_iff.mp hr) ⟨hne, k, hmine, hk⟩

/-- Past the gate, not yet committing. -/
structure Passed (v : View) : Prop where
  status : At .active v
  gate : v.cell.gate.isSome

theorem Idle.writeSet {v : View} (h : Idle v) : v.recorded ++ [] = v.writeSet := by
  obtain ⟨r, hr, hw⟩ := h.recorded
  unfold View.recorded View.writeSet
  rw [hr, h.status.noCtx]
  show r.writeSet ++ [] = v.buffered ++ []
  rw [hw]

theorem At.not_aborting {v : View} (h : At .active v) : ¬v.Aborting := by
  rintro ⟨s, hs, hst⟩
  obtain ⟨s', hs', hst'⟩ := h.state
  rw [hs] at hs'
  obtain rfl := Option.some.inj hs'
  rw [hst'] at hst
  rcases hst with h | h <;> cases h

theorem runs_prepare : Runs tx (prepare tx []) Idle fun v r =>
    match r with
    | .ok _ => Passed v
    | .error _ => Idle v := by
  refine Runs.act (fun _ => rfl) fun w r w' hs hv => ?_
  cases r with
  | error e =>
      obtain ⟨-, rfl⟩ := hs
      exact ⟨.still rfl, hv⟩
  | ok u =>
      obtain ⟨hmove, he⟩ :=
        move_prepare hs hv.writeSet hv.status.opened hv.gate hv.status.not_aborting
      refine ⟨hmove, ?_⟩
      show Passed (w'.view tx)
      rw [he]
      exact ⟨⟨hv.status.drawn, hv.status.noCtx, hv.status.opened, hv.status.state,
        fun h => by rcases h with h | h <;> cases h⟩, rfl⟩

/-- With no dimension expected, no buffered upsert is turned away. -/
theorem checkDimensions_zero (ops : List VectorUpsertOp) :
    checkDimensions tx 0 ops = pure () := by
  induction ops with
  | nil => rfl
  | cons op ops ih =>
      unfold checkDimensions
      cases op.dimensions with
      | none => exact ih
      | some dims =>
          show (if 0 < 0 ∧ dims ≠ 0 then _ else _) = _
          rw [if_neg fun h => Nat.lt_irrefl 0 h.1]
          exact ih

/-! ## `commit`, `rollback` and `buffer_vector_upsert` under the guard -/

theorem At.status_eq {st : TxStatus} {v : View} {s : TxState} (h : At st v)
    (hs : v.cell.state = some s) : s.status = st := by
  obtain ⟨s', hs', hst⟩ := h.state
  rw [hs] at hs'
  exact Option.some.inj hs' ▸ hst

/-- The cases of a transaction at rest that has a state. -/
theorem Rest.cases_state {v : View} {s : TxState} (h : Rest v) (hs : v.cell.state = some s) :
    (s.status = .active ∧ Idle v) ∨
      (s.status ≠ .active ∧ ¬s.status.Final ∧ At s.status v) ∨ s.status.Final := by
  cases h with
  | new _ hc _ => rw [hc] at hs; cases hs
  | idle h => exact .inl ⟨h.status.status_eq hs, h⟩
  | committing h =>
      have hst := h.status_eq hs
      rw [hst]
      refine .inr (.inl ⟨nofun, ?_, h⟩)
      rintro (h | h) <;> cases h
  | rollingBack h =>
      have hst := h.status_eq hs
      rw [hst]
      refine .inr (.inl ⟨nofun, ?_, h⟩)
      rintro (h | h) <;> cases h
  | settled h =>
      obtain ⟨s', hs', hst⟩ := h.state
      rw [hs] at hs'
      obtain rfl := Option.some.inj hs'
      exact .inr (.inr (hst.imp And.left id))
  | simple h => rw [h.noState] at hs; cases hs

theorem Rest.idle_of_active {v : View} {s : TxState} (h : Rest v) (hs : v.cell.state = some s)
    (hactive : s.status = .active) : Idle v := by
  rcases h.cases_state hs with h | h | h
  · exact h.2
  · exact absurd hactive h.1
  · rw [hactive] at h; rcases h with h | h <;> cases h

theorem spec_commitLocked [Crates] [Texts] : Spec tx (commitLocked tx) Rest (Leaves Done) := by
  refine runs_load.seq fun s => Spec.of_view fun v hv => ?_
  obtain ⟨hrest, hs⟩ := hv
  split
  next => exact spec_fail _ fun v' hv' => hv' ▸ hrest
  next hactive =>
      have hidle : Idle v := hrest.idle_of_active hs (not_not.mp hactive)
      refine (runs_prepare.on hidle).seq fun r => ?_
      cases r with
      | error e => exact Spec.throw _ fun v' hv' => .idle hv'
      | ok u =>
          refine (Runs.quiet fun _ => rfl).seq fun core => ?_
          rw [ite_self, checkDimensions_zero, pure_bind]
          refine (runs_setStatus .active
            (fun v' hv' => ⟨hv'.status, fun _ => hv'.gate⟩) ?_).seq fun _ => ?_
          · rintro (h | h) <;> cases h
          refine Spec.bind keeping_applyPhase2.attempt (fun v e hv => .committing hv) fun r => ?_
          cases r with
          | error e => exact spec_abandon e
          | ok u => exact spec_conclude

theorem spec_rollbackLocked : Spec tx (rollbackLocked tx) Rest (Leaves Done) := by
  refine runs_load.seq fun s => Spec.of_view fun v hv => ?_
  obtain ⟨hrest, hs⟩ := hv
  split
  next => exact spec_fail _ fun v' hv' => hv' ▸ hrest
  next hopen =>
      have hat : At s.status v := by
        rcases hrest.cases_state hs with h | h | h
        · rw [h.1]; exact h.2.status
        · exact h.2.2
        · exact absurd h hopen
      refine ((runs_setStatus s.status (fun v' hv' => ⟨hv', ?_⟩) ?_).on hat).seq fun _ => ?_
      · rintro (h | h) <;> cases h
      · exact fun _ => .inl rfl
      refine Spec.bind keeping_doRollback (fun v e hv => .rollingBack hv) fun _ => ?_
      refine (runs_setStatus .rollingBack (fun v hv => ⟨hv, ?_⟩) ?_).seq fun _ => ?_
      · rintro (h | h) <;> cases h
      · exact fun _ => .inr rfl
      refine (runs_deregister (.inr rfl)).seq fun _ => runs_remove.post ?_
      rintro v r ⟨u, rfl, hv⟩
      exact hv.done (.inr rfl)

/-- An upsert is in the buffer, and not yet on record. -/
structure Pushed (key : String) (v : View) : Prop where
  status : At .active v
  listed : v.cell.listed = true
  gate : v.cell.gate = none
  recorded : ∃ r, v.record = some r ∧ r.writeSet ++ [key] = v.buffered

theorem runs_push {s : TxState} {op : VectorUpsertOp} {v : View} (hv : Idle v)
    (hs : v.cell.state = some s) :
    Runs tx (store tx { s with vectorBuffer := s.vectorBuffer ++ [op] }) (· = v)
      fun v' _ => Pushed op.id v' := by
  refine Runs.act (fun _ => rfl) fun w _ w' hsem he => ?_
  obtain rfl := hsem
  obtain rfl := he
  obtain ⟨s', hs', hst⟩ := hv.status.state
  rw [hs] at hs'
  obtain rfl := Option.some.inj hs'
  refine ⟨.keeps ?_, ?_⟩ <;> rw [view_setCell]
  · exact keeps_store hv.status.opened hs (fun h => .inl h) fun h => h
  · obtain ⟨r, hr, hw⟩ := hv.recorded
    refine ⟨⟨hv.status.drawn, hv.status.noCtx, hv.status.opened, ⟨_, rfl, hst⟩, hv.status.gate⟩,
      hv.listed, hv.gate, r, hr, ?_⟩
    have hb : (w.view tx).buffered = s.vectorBuffer.map VectorUpsertOp.id := by
      unfold View.buffered
      rw [hs]
      rfl
    rw [hw, hb]
    show _ = (s.vectorBuffer ++ [op]).map VectorUpsertOp.id
    rw [List.map_append]
    rfl

theorem runs_extend (key : String) :
    Runs tx (extendWriteSet tx [key]) (Pushed key) fun v _ => Idle v := by
  refine Runs.act (fun _ => rfl) fun w _ w' hsem hv => ?_
  obtain ⟨r, hr, hw⟩ := hv.recorded
  have hr' : w.coordinator.lookup tx = some r := hr
  simp only [sem, hr'] at hsem
  have he : w'.view tx =
      { w.view tx with record := some { r with writeSet := r.writeSet ++ [key] } } :=
    hsem ▸ view_insert _ _
  rw [he]
  refine ⟨.keeps ?_, ⟨hv.status.drawn, hv.status.noCtx, hv.status.opened, hv.status.state,
    hv.status.gate⟩, hv.listed, hv.gate, _, rfl, hw⟩
  rw [he]
  refine ⟨hv.status.opened, rfl, .inl rfl, .inl, fun _ => .inl fun k hk => ?_, fun _ h => h⟩
  unfold View.recorded at hk
  rw [hr] at hk
  exact List.mem_append_left _ hk

theorem spec_bufferLocked (op : VectorUpsertOp) :
    Spec tx (bufferLocked tx op) Rest (Leaves Idle) := by
  refine runs_load.seq fun s => Spec.of_view fun v hv => ?_
  obtain ⟨hrest, hs⟩ := hv
  split
  next => exact spec_fail _ fun v' hv' => hv' ▸ hrest
  next hactive =>
      have hidle : Idle v := hrest.idle_of_active hs (not_not.mp hactive)
      refine (runs_push hidle hs).seq fun _ => (runs_extend op.id).post ?_
      rintro v r ⟨u, rfl, hv⟩
      exact hv

/-! ## Answers and the guard -/

/-- What a call may have left that returns `Ok`, with this answer. -/
def readyFor : Option Answer → View → Prop
  | none => Rest
  | some .buffer => Idle
  | some .commit => Done
  | some .rollback => Done

/-- The guard dropped, with an answer or none. -/
def View.answer (v : View) (a : Option Answer) : View :=
  { v with cell := { v.cell with answered := v.cell.answered ++ a.toList } }

theorem View.answer_none (v : View) : v.answer none = v := by
  unfold View.answer
  rw [Option.toList_none, List.append_nil]

theorem keeps_answer {v : View} (hopen : ¬v.Closed) (a : Answer) : Keeps v (v.answer (some a)) :=
  ⟨hopen, rfl, .inr ⟨a, rfl⟩, .inl, fun _ => .inl fun _ h => h, fun _ h => h⟩

theorem Idle.answer {v : View} (h : Idle v) : Idle (v.answer (some .buffer)) := by
  refine ⟨⟨h.status.drawn, h.status.noCtx, ?_, h.status.state, h.status.gate⟩, h.listed, h.gate,
    h.recorded⟩
  rintro (hc | hc) <;> rcases List.mem_append.mp hc with hc | hc
  · exact h.status.opened (.inl hc)
  · cases List.mem_singleton.mp hc
  · exact h.status.opened (.inr hc)
  · cases List.mem_singleton.mp hc

theorem Settled.answer {v : View} (h : Settled v) (a : Option Answer) : Settled (v.answer a) :=
  ⟨h.drawn, h.noCtx, h.state, h.listed, h.record⟩

theorem move_answer {w : World} {a : Option Answer} (h : readyFor a (w.view tx)) :
    Move tx w ((w.setCell tx { w.cells tx with
      answered := (w.cells tx).answered ++ a.toList }).setFree tx true) ∧
      Rest ((w.view tx).answer a) := by
  have he : ((w.setCell tx { w.cells tx with
      answered := (w.cells tx).answered ++ a.toList }).setFree tx true).view tx =
      (w.view tx).answer a := by
    rw [view_setFree, view_setCell]
    rfl
  cases a with
  | none =>
      rw [View.answer_none] at he ⊢
      exact ⟨.still he, h⟩
  | some a =>
      cases a with
      | buffer => exact ⟨.keeps (he ▸ keeps_answer h.status.opened _), .idle h.answer⟩
      | commit => exact ⟨.keeps (he ▸ keeps_answer h.2 _), .settled (h.1.answer _)⟩
      | rollback => exact ⟨.keeps (he ▸ keeps_answer h.2 _), .settled (h.1.answer _)⟩

/-- A body that leaves the transaction ready for its answer may run under the guard. -/
theorem owns_withGuard {x : Call α} {a : Option Answer} (h : Spec tx x Rest (Leaves (readyFor a))) :
    discipline.owns (withGuard tx a x).run (fun own _ => own = none) none := by
  show discipline.owns (Prog.perform (F := Shared) (.lock tx) >>= _) _ _
  rw [Discipline.owns_bind, Discipline.owns_perform]
  intro acquired
  cases acquired with
  | false => exact rfl
  | true =>
      refine ⟨rfl, ?_⟩
      rintro w w' ⟨-, rfl⟩ hrest
      refine ⟨.still rfl, ?_⟩
      show discipline.owns (x.run >>= _) _ _
      rw [Discipline.owns_bind]
      refine Discipline.owns_mono (fun own r hr => ?_) (h _ hrest)
      obtain ⟨v', rfl, hv'⟩ := hr
      have hready : readyFor (Answer.given a r) v' := by
        cases r <;> exact hv'
      show discipline.owns (Prog.perform (F := Shared) (.unlock tx _) >>= _) _ _
      rw [Discipline.owns_bind, Discipline.owns_perform]
      intro _
      refine ⟨v', rfl, ?_⟩
      rintro w w' rfl rfl
      obtain ⟨hmove, hrest'⟩ := move_answer hready
      refine ⟨hmove, ?_, rfl⟩
      show Rest (World.view _ tx)
      rw [view_setFree, view_setCell]
      exact hrest'

/-! ## The legacy calls -/

theorem Simple.of_alike {v v' : View} (hs : v'.cell.state = v.cell.state)
    (hc : v'.cell.ctx = v.cell.ctx) (hg : v'.cell.gate = v.cell.gate)
    (ha : v'.cell.answered = v.cell.answered) (hd : v'.drawn = v.drawn) (hr : v'.recorded = [])
    (h : Simple v) : Simple v' where
  drawn := hd ▸ h.drawn
  noState := hs ▸ h.noState
  opened := by unfold View.Closed; rw [ha]; exact h.opened
  recorded := hr
  ctx := by rw [hc, hg]; exact h.ctx

theorem Rest.simple_of_ctx {v : View} {ctx : TransactionContext} (h : Rest v)
    (hc : v.cell.ctx = some ctx) : Simple v := by
  have hnone : ∀ {p : Prop}, v.cell.ctx = none → p := by
    intro p h
    rw [h] at hc
    cases hc
  cases h with
  | new _ h _ => exact hnone (by rw [h])
  | idle h => exact hnone h.status.noCtx
  | committing h => exact hnone h.noCtx
  | rollingBack h => exact hnone h.noCtx
  | settled h => exact hnone h.noCtx
  | simple h => exact h

theorem runs_loadCtx : Runs tx (loadCtx tx) P fun v ctx => P v ∧ v.cell.ctx = some ctx := by
  refine Runs.act (fun _ => rfl) ?_
  rintro w ctx w' ⟨hs, rfl⟩ hP
  exact ⟨.still rfl, hP, hs⟩

/-- A context is written back: open as it was, or committed past the gate. -/
theorem runs_storeCtx {v : View} {ctx : TransactionContext} (ctx' : TransactionContext)
    (hv : v.drawn) (hstate : v.cell.state = none) (hopen : ¬v.Closed) (hrecorded : v.recorded = [])
    (hctx : v.cell.ctx = some ctx)
    (hstatus : ctx'.status = .active ∧ v.cell.gate = none ∨
      ctx'.status = .committed ∧ v.cell.gate.isSome) :
    Runs tx (storeCtx tx ctx') (· = v) fun v' _ => Simple v' := by
  refine Runs.act (fun _ => rfl) fun w _ w' hsem he => ?_
  obtain rfl := hsem
  obtain rfl := he
  refine ⟨.keeps ?_, ?_⟩ <;> rw [view_setCell]
  · refine ⟨hopen, rfl, .inl rfl, ?_, fun _ => .inl fun _ hk => hk, ?_⟩
    · rintro (⟨s, hs, -⟩ | ⟨c, hc, hst⟩)
      · rw [show (w.view tx).cell.state = some s from hs] at hstate; cases hstate
      · obtain rfl := Option.some.inj hc
        rcases hstatus with ⟨h, -⟩ | ⟨-, h⟩
        · rw [h] at hst; cases hst
        · exact .inr h
    · rintro _ ⟨s, hs, -⟩
      rw [hs] at hstate
      cases hstate
  · exact ⟨hv, hstate, hopen, hrecorded, ctx', rfl, hstatus⟩

theorem spec_recordLocked (key : String) :
    Spec tx (recordLocked tx key) Rest (Leaves Rest) := by
  refine runs_loadCtx.seq fun ctx => Spec.of_view fun v hv => ?_
  obtain ⟨hrest, hctx⟩ := hv
  have hv := hrest.simple_of_ctx hctx
  obtain ⟨ctx', hc, hst⟩ := hv.ctx
  rw [hctx] at hc
  obtain rfl := Option.some.inj hc
  refine (runs_storeCtx (ctx.recordWrite key) hv.drawn hv.noState hv.opened hv.recorded hctx
    hst).post ?_
  rintro v' r ⟨u, rfl, hv'⟩
  exact .simple hv'

theorem runs_deregister_simple : Runs tx (deregister tx) Simple fun v _ => Simple v := by
  refine Runs.act (fun _ => rfl) fun w _ w' hsem hv => ?_
  obtain rfl := hsem
  rw [view_erase]
  refine ⟨.keeps ?_, .of_alike (v := w.view tx) rfl rfl rfl rfl rfl rfl hv⟩
  rw [view_erase]
  refine ⟨hv.opened, rfl, .inl rfl, .inl, fun _ => .inl fun k hk => ?_, fun _ h => h⟩
  rw [hv.recorded] at hk
  cases hk

theorem runs_append_simple (entry : TransactionLogEntry) :
    Runs tx (append tx entry) Simple fun v _ => Simple v := by
  refine Runs.act (fun _ => rfl) fun w r w' hs hv => ?_
  obtain ⟨halike, -⟩ := alike_append hs
  refine ⟨.keeps (halike.keeps hv.opened), hv.of_alike halike.state halike.ctx halike.gate
    halike.answered halike.drawn ?_⟩
  unfold View.recorded
  rw [halike.record]
  exact hv.recorded

theorem runs_prepare_simple {v : View} {ctx : TransactionContext} (hv : Simple v)
    (hctx : v.cell.ctx = some ctx) (hactive : ctx.status = .active) :
    Runs tx (prepare tx ctx.writeSet) (· = v) fun v' r =>
      match r with
      | .ok _ => v' = v.pass
      | .error _ => v' = v := by
  refine Runs.act (fun _ => rfl) fun w r w' hs he => ?_
  obtain rfl := he
  have hgate : (w.view tx).cell.gate = none := by
    obtain ⟨c, hc, hst⟩ := hv.ctx
    rw [hctx] at hc
    obtain rfl := Option.some.inj hc
    rcases hst with ⟨-, h⟩ | ⟨h, -⟩
    · exact h
    · rw [hactive] at h; cases h
  cases r with
  | error e =>
      obtain ⟨-, rfl⟩ := hs
      exact ⟨.still rfl, rfl⟩
  | ok u =>
      refine move_prepare hs ?_ hv.opened hgate ?_
      · rw [hv.recorded]
        unfold View.writeSet View.buffered
        rw [hv.noState, hctx]
        rfl
      · rintro ⟨s, hs, -⟩
        rw [hv.noState] at hs
        cases hs

theorem spec_commitSimpleLocked : Spec tx (commitSimpleLocked tx) Rest (Leaves Rest) := by
  refine runs_loadCtx.seq fun ctx => Spec.of_view fun v hv => ?_
  obtain ⟨hrest, hctx⟩ := hv
  have hv := hrest.simple_of_ctx hctx
  split
  next => exact Spec.throw _ fun v' hv' => hv' ▸ hrest
  next hactive =>
      have hactive : ctx.status = .active := by simpa [TransactionContext.isActive] using hactive
      refine (runs_prepare_simple hv hctx hactive).seq fun r => ?_
      cases r with
      | error e => exact Spec.throw _ fun v' hv' => hv' ▸ hrest
      | ok u =>
          refine Runs.seq (runs_storeCtx (v := v.pass) _ hv.drawn hv.noState hv.opened hv.recorded
            hctx (.inr ⟨rfl, rfl⟩)) fun _ => ?_
          refine runs_deregister_simple.seq fun _ => (Runs.quiet fun _ => rfl).seq fun now => ?_
          refine (runs_append_simple _).post ?_
          rintro v' r ⟨u, rfl, hv'⟩
          exact .simple hv'

/-! ## `begin` -/

/-- A transaction in the making. -/
structure Fresh (v : View) : Prop where
  drawn : v.drawn
  state : v.cell.state = none
  ctx : v.cell.ctx = none
  gate : v.cell.gate = none
  answered : v.cell.answered = []
  record : v.record = none

theorem Fresh.opened {v : View} (h : Fresh v) : ¬v.Closed := by
  unfold View.Closed
  rw [h.answered]
  rintro (h | h) <;> cases h

theorem Rest.of_undrawn {v : View} (h : Rest v) (hv : ¬v.drawn) :
    v.cell = {} ∧ v.record = none := by
  cases h with
  | new _ hc hr => exact ⟨hc, hr⟩
  | idle h => exact absurd h.status.drawn hv
  | committing h => exact absurd h.drawn hv
  | rollingBack h => exact absurd h.drawn hv
  | settled h => exact absurd h.drawn hv
  | simple h => exact absurd h.drawn hv

theorem Rest.fresh_of_draw {w : World} {id : Uuid} (h : Rest (w.view id)) (hid : id ∉ w.ids) :
    Fresh ((w.draw id).view id) := by
  obtain ⟨hc, hr⟩ := h.of_undrawn hid
  have hcell : ((w.draw id).view id).cell = {} := hc
  refine ⟨List.mem_cons_self, ?_, ?_, ?_, ?_, hr⟩ <;> rw [hcell]

theorem Fresh.of_alike {v v' : View} (h : Alike v v') (hv : Fresh v) : Fresh v' :=
  ⟨h.drawn ▸ hv.drawn, h.state.trans hv.state, h.ctx.trans hv.ctx, h.gate.trans hv.gate,
    h.answered.trans hv.answered, h.record.trans hv.record⟩

/-- A new state that `begin` builds up: open, with an empty buffer. -/
def TxState.Blank (s : TxState) : Prop := s.status = .active ∧ s.vectorBuffer = []

/-- The result of a step of `begin`, when there is one. -/
def Builds (v : View) (r : Except Stop TxState) : Prop :=
  Fresh v ∧ ∀ s, r = .ok s → s.Blank

theorem spec_await_fresh (call : EngineCall) :
    Spec tx (await tx call) Fresh fun v _ => Fresh v := by
  refine Spec.bind (M := fun v _ => Fresh v)
    (Spec.act (fun _ => rfl) fun w _ w' hs hv => ?_) (fun _ _ h => h) fun r => ?_
  · exact ⟨.keeps ((alike_engine hs).keeps hv.opened), hv.of_alike (alike_engine hs)⟩
  · cases r with
    | none => exact Spec.throw _ fun _ h => h
    | some r => exact Spec.pure r fun _ h => h

theorem spec_beginCore {s : TxState} (hs : s.Blank) :
    Spec tx (beginCore tx s) Fresh Builds := by
  refine (Runs.quiet fun _ => rfl).seq fun up => ?_
  split
  · refine Spec.bind (spec_await_fresh _) (fun _ _ h => ⟨h, nofun⟩) fun r => ?_
    cases r with
    | error e => exact Spec.throw _ fun _ h => ⟨h, nofun⟩
    | ok u =>
        refine Spec.pure _ fun _ h => ⟨h, fun s' he => ?_⟩
        obtain rfl := Except.ok.inj he
        exact hs
  · refine Spec.pure _ fun _ h => ⟨h, fun s' he => ?_⟩
    obtain rfl := Except.ok.inj he
    exact hs

theorem spec_takeSnapshot [Crates] {s : TxState} (hs : s.Blank) :
    Spec tx (takeSnapshot tx s) Fresh Builds := by
  have hpure : ∀ {s' : TxState}, s'.Blank → Spec tx (pure s' : Call TxState) Fresh Builds := by
    intro s' hs'
    refine Spec.pure _ fun _ h => ⟨h, fun s'' he => ?_⟩
    obtain rfl := Except.ok.inj he
    exact hs'
  refine (Runs.quiet fun _ => rfl).seq fun up => ?_
  split
  · refine Spec.bind (spec_await_fresh _) (fun _ _ h => ⟨h, nofun⟩) fun r => ?_
    cases r with
    | error e => exact hpure hs
    | ok snapId => exact hpure hs
  · exact hpure hs

/-- On record, with nothing written. -/
structure Registered (v : View) : Prop where
  drawn : v.drawn
  state : v.cell.state = none
  ctx : v.cell.ctx = none
  gate : v.cell.gate = none
  opened : ¬v.Closed
  record : ∃ r, v.record = some r ∧ r.writeSet = []

theorem runs_register (sessionId : Uuid) :
    Runs tx (register tx sessionId) Fresh fun v _ => Registered v := by
  refine Runs.act (fun _ => rfl) fun w _ w' hs hv => ?_
  obtain ⟨now, -, rfl⟩ := hs
  rw [view_insert]
  refine ⟨.keeps ?_, hv.drawn, hv.state, hv.ctx, hv.gate, hv.opened, _, rfl, rfl⟩
  rw [view_insert]
  refine ⟨hv.opened, rfl, .inl rfl, .inl, fun _ => .inl fun k hk => ?_, fun _ h => h⟩
  unfold View.recorded at hk
  rw [hv.record] at hk
  cases hk

/-- A program that gives the guard away at its end. -/
theorem owns_insert {v : View} {s : TxState} (hv : Registered v) (hs : s.Blank) :
    discipline.owns (insert tx s).run (fun own _ => own = none) (some (tx, v)) := by
  refine Spec.owns_op.mpr fun _ => ⟨v, rfl, ?_⟩
  rintro w w' rfl rfl
  have he : ((w.setCell tx { w.cells tx with state := some s, listed := true }).setFree tx
      true).view tx =
        { w.view tx with cell := { w.cells tx with state := some s, listed := true } } := by
    rw [view_setFree, view_setCell]
  have hmove : Keeps (w.view tx) { w.view tx with
      cell := { w.cells tx with state := some s, listed := true } } := by
    refine ⟨hv.opened, rfl, .inl rfl, ?_, fun _ => .inl fun _ h => h, ?_⟩
    · rintro (⟨s', hs', hst⟩ | h)
      · obtain rfl := Option.some.inj hs'
        rw [hs.1] at hst
        cases hst
      · exact .inl (.inr h)
    · rintro - ⟨s', hs', -⟩
      rw [hv.state] at hs'
      cases hs'
  refine ⟨.keeps (he ▸ hmove), ?_, rfl⟩
  show Rest (World.view _ tx)
  rw [he]
  refine .idle ⟨⟨hv.drawn, hv.ctx, hv.opened, ⟨s, rfl, hs.1⟩, ?_⟩, rfl, hv.gate, ?_⟩
  · rintro (h | h) <;> cases h
  · obtain ⟨r, hr, hw⟩ := hv.record
    refine ⟨r, hr, ?_⟩
    rw [hw]
    show [] = s.vectorBuffer.map _
    rw [hs.2]
    rfl

/-! ## Every call keeps to the lifecycle -/

/-- A call that holds nothing when it starts holds nothing when it ends. -/
def Calls (x : Call α) : Prop := discipline.owns x.run (fun own _ => own = none) none

namespace Calls

theorem pure (a : α) : Calls (Pure.pure a : Call α) := rfl

theorem throw (e : Stop) : Calls (MonadExcept.throw e : Call α) := rfl

theorem bind {x : Call α} {f : α → Call β} (hx : Calls x) (hf : ∀ a, Calls (f a)) :
    Calls (x >>= f) := by
  refine Discipline.owns_try (Discipline.owns_mono (fun own r hr => ?_) hx)
  obtain rfl := hr
  cases r with
  | ok a => exact hf a
  | error e => rfl

theorem quiet {o : Op} (hrole : ∀ r, role o r = .quiet) : Calls (perform o) := by
  refine Spec.owns_op.mpr fun r => ?_
  unfold Discipline.After
  rw [show parts.role o r = .quiet from hrole r]

theorem getHandle (txId : Uuid) : Calls (Transaction.getHandle txId) := by
  refine (quiet fun _ => rfl).bind fun found => ?_
  split
  · exact pure ()
  · exact throw _

theorem guarded {txId : Uuid} {a : Answer} {x : Call Unit}
    (h : Spec txId x Rest (Leaves (readyFor (some a)))) :
    Calls (Transaction.getHandle txId >>= fun _ => withGuard txId (some a) x) :=
  (getHandle txId).bind fun _ => owns_withGuard h

theorem rollback (txId : Uuid) : Calls (Transaction.rollback txId) :=
  guarded (a := .rollback) spec_rollbackLocked

theorem timeoutEach (stale : List (Uuid × Uuid)) (count : UInt32) :
    Calls (Transaction.timeoutEach stale count) := by
  induction stale generalizing count with
  | nil => exact pure count
  | cons x stale ih =>
      refine bind (owns_attempt (rollback x.1)) fun r => ?_
      cases r with
      | error e => exact ih count
      | ok u => exact ih (count + 1)

end Calls

/-- A program for a new transaction, which nobody else knows of yet. -/
theorem owns_newV4 {f : Uuid → Call β} {Q : Option (Uuid × View) → Except Stop β → Prop}
    (hf : ∀ id v, Fresh v → discipline.owns (f id).run Q (some (id, v))) :
    discipline.owns (newV4 >>= f).run Q none := by
  refine Discipline.owns_try (Spec.owns_op.mpr fun id => ⟨rfl, ?_⟩)
  rintro w w' ⟨hid, rfl⟩ hrest
  have hfresh : Fresh ((w.draw id).view id) := hrest.fresh_of_draw hid
  refine ⟨.keeps ?_, hf id _ hfresh⟩
  exact ⟨hfresh.opened, rfl, .inl rfl, .inl, fun _ => .inl fun _ h => h, fun _ h => h⟩

/-- A program over a transaction in the making goes on with the rest of it. -/
theorem Spec.then_owns {x : Call α} {f : α → Call β} (hx : Spec tx x P Q) {v : View} (hv : P v)
    (hf : ∀ v' a, Q v' (.ok a) → discipline.owns (f a).run (fun _ _ => True) (some (tx, v'))) :
    discipline.owns (x >>= f).run (fun _ _ => True) (some (tx, v)) := by
  refine Discipline.owns_try (Discipline.owns_mono (fun own r hr => ?_) (hx v hv))
  obtain ⟨v', rfl, hq⟩ := hr
  cases r with
  | ok a => exact hf v' a hq
  | error e => trivial

theorem owns_then_pure {x : Call Unit} {a : α} {own : Option (Uuid × View)}
    (hx : discipline.owns x.run (fun own _ => own = none) own) :
    discipline.owns (x >>= fun _ => (Pure.pure a : Call α)).run (fun _ _ => True) own := by
  refine Discipline.owns_try (Discipline.owns_mono (fun own' r hr => ?_) hx)
  cases r <;> trivial

theorem owns_begin [Crates] (session : SessionContext) :
    discipline.owns (begin session).run (fun _ _ => True) none := by
  refine owns_newV4 fun id v hv => ?_
  refine Spec.then_owns (P := Fresh) (Q := fun v _ => Fresh v)
    (Spec.quiet (fun _ => rfl) fun _ _ h => h) hv fun v startedAt hv => ?_
  refine (spec_beginCore ⟨rfl, rfl⟩).then_owns hv fun v s hv => ?_
  refine (spec_takeSnapshot (hv.2 s rfl)).then_owns hv.1 fun v s hv => ?_
  refine Spec.then_owns (runs_register session.sessionId) hv.1 fun v u hreg => ?_
  obtain ⟨u', -, hreg⟩ := hreg
  exact owns_then_pure (owns_insert hreg (hv.2 s rfl))

theorem owns_hand {v : View} {ctx : TransactionContext} (hv : Registered v)
    (hctx : ctx.status = .active) :
    discipline.owns (hand tx ctx).run (fun own _ => own = none) (some (tx, v)) := by
  refine Spec.owns_op.mpr fun _ => ⟨v, rfl, ?_⟩
  rintro w w' rfl rfl
  have he : ((w.setCell tx { w.cells tx with ctx := some ctx }).setFree tx true).view tx =
      { w.view tx with cell := { w.cells tx with ctx := some ctx } } := by
    rw [view_setFree, view_setCell]
  have hmove : Keeps (w.view tx) { w.view tx with
      cell := { w.cells tx with ctx := some ctx } } := by
    refine ⟨hv.opened, rfl, .inl rfl, ?_, fun _ => .inl fun _ h => h, fun _ h => h⟩
    rintro (h | ⟨ctx', hc, hst⟩)
    · exact .inl (.inl h)
    · obtain rfl := Option.some.inj hc
      rw [hctx] at hst
      cases hst
  refine ⟨.keeps (he ▸ hmove), ?_, rfl⟩
  show Rest (World.view _ tx)
  rw [he]
  refine .simple ⟨hv.drawn, hv.state, hv.opened, ?_, ctx, rfl, .inl ⟨hctx, hv.gate⟩⟩
  obtain ⟨r, hr, hw⟩ := hv.record
  show ((w.view tx).record.map TxRecord.writeSet).getD [] = []
  rw [hr]
  exact hw

theorem owns_beginSimple (sessionId : Uuid) (isolation : IsolationLevel) :
    discipline.owns (beginSimple sessionId isolation).run (fun _ _ => True) none := by
  refine owns_newV4 fun id v hv => ?_
  refine Spec.then_owns (runs_register sessionId) hv fun v u hreg => ?_
  obtain ⟨u', -, hreg⟩ := hreg
  exact owns_then_pure (owns_hand hreg rfl)

theorem Calls.owns {x : Call α} {f : Except Stop α → β} (h : Calls x) :
    discipline.owns (f <$> x.run) (fun _ _ => True) none :=
  Discipline.owns_map.mpr (Discipline.owns_mono (fun _ _ _ => trivial) h)

/-- Every call of the manager keeps to the lifecycle by itself. -/
theorem lifecycle_obeyed [Crates] [Texts] : discipline.Obeys server where
  lawful := parts_lawful
  sem := rfl
  owns req _ := by
    cases req with
    | begin session => exact Discipline.owns_map.mpr (owns_begin session)
    | commit txId => exact (Calls.guarded (a := .commit) spec_commitLocked).owns
    | rollback txId => exact (Calls.rollback txId).owns
    | timeoutStale olderThanSecs =>
        exact Calls.owns ((Calls.quiet fun _ => rfl).bind fun stale => Calls.timeoutEach stale 0)
    | bufferVectorUpsert txId op => exact (Calls.guarded (a := .buffer) (spec_bufferLocked op)).owns
    | beginSimple sessionId isolation =>
        exact Discipline.owns_map.mpr (owns_beginSimple sessionId isolation)
    | recordWrite txId key => exact Calls.owns (owns_withGuard (spec_recordLocked key))
    | commitSimple txId => exact Calls.owns (owns_withGuard spec_commitSimpleLocked)

end ClawDB.Transaction
