/-
# `Transaction.Log` — what the log says of a commit

A commit is logged once phase 2 is over.  The write set of the entry is read off the vector
buffer, and phase 2 has moved the buffer out by then if there was something in it and the
vector engine is started.  So the entry is empty in the one case in which upserts were applied,
and complete in the one in which they were not.  The coordinator is asked before phase 2 and
sees all of them.

This takes a history (`Lib.History`): the calls on a transaction that returned `Ok`, in order,
each with the id it buffered.  `Kept` relates a transaction at rest to it.  `Gist` is as much
of a transaction as this is about; most programs leave it alone.
-/
import ClawDB.Transaction.Runs
import ClawDB.Lib.History

namespace ClawDB.Transaction.Log

open Effect

/-! ## The calls on a transaction -/

/-- A call that returned `Ok`, and the id it buffered. -/
abbrev Note := Answer × Option String

def upserted : Request → Option String
  | .bufferVectorUpsert _ op => some op.id
  | _ => none

def note (tx : Uuid) (req : Request) : Reply → Option Note
  | .done (.ok _) =>
      match req.asks with
      | some (t, a) => if t = tx then some (a, upserted req) else none
      | none => none
  | _ => none

/-- The ids that were buffered. -/
def ids (notes : List Note) : List String := notes.filterMap Prod.snd

def Commits (notes : List Note) : Prop := Answer.commit ∈ notes.map Prod.fst

theorem ids_append (notes : List Note) (a : Answer) (key : Option String) :
    ids (notes ++ [(a, key)]) = ids notes ++ key.toList := by
  unfold ids
  rw [List.filterMap_append]
  cases key <;> rfl

theorem not_commits_append {notes : List Note} {n : Note} (h : ¬Commits notes)
    (hn : n.1 ≠ .commit) : ¬Commits (notes ++ [n]) := by
  unfold Commits at h ⊢
  rw [List.map_append, List.mem_append]
  rintro (hc | hc)
  · exact h hc
  · exact hn (List.mem_singleton.mp hc).symm

/-! ## What is kept of a transaction -/

structure Gist where
  state : Option (TxStatus × List VectorUpsertOp)
  gate : Option (List String)
  logged : List TransactionLogEntry

def stateGist (s : TxState) : TxStatus × List VectorUpsertOp := (s.status, s.vectorBuffer)

def gist (v : View) : Gist := ⟨v.cell.state.map stateGist, v.cell.gate, v.cell.logged⟩

/-- A transaction at rest, after these calls; `up` says whether the vector engine is started. -/
inductive Kept (tx : Uuid) (up : Bool) (notes : List Note) : Gist → Prop where
  | stateless {gate logged} : notes = [] → Kept tx up notes ⟨none, gate, logged⟩
  | active {ops gate} : ops.map VectorUpsertOp.id = ids notes → ¬Commits notes →
      Kept tx up notes ⟨some (.active, ops), gate, []⟩
  | ending {st ops gate} : st ≠ .active → st ≠ .committed → ¬Commits notes →
      Kept tx up notes ⟨some (st, ops), gate, []⟩
  | committed {ops} {entry : TransactionLogEntry} : entry.txId = tx →
      entry.writeSet = (if up then [] else ids notes) →
      Kept tx up notes ⟨some (.committed, ops), some (ids notes), [entry]⟩

section Reading

variable {tx : Uuid} {up : Bool} {notes : List Note} {v : View} {s : TxState}

theorem gist_of_state (hs : v.cell.state = some s) :
    gist v = ⟨some (s.status, s.vectorBuffer), v.cell.gate, v.cell.logged⟩ := by
  unfold gist
  rw [hs]
  rfl

theorem Kept.of_active (h : Kept tx up notes (gist v)) (hs : v.cell.state = some s)
    (hactive : s.status = .active) :
    s.vectorBuffer.map VectorUpsertOp.id = ids notes ∧ ¬Commits notes ∧ v.cell.logged = [] := by
  rw [gist_of_state hs, hactive] at h
  generalize v.cell.gate = gate, v.cell.logged = logged at h ⊢
  cases h with
  | active hops hnotes => exact ⟨hops, hnotes, rfl⟩
  | ending hne _ _ => exact absurd rfl hne

theorem Kept.of_open (h : Kept tx up notes (gist v)) (hs : v.cell.state = some s)
    (hne : s.status ≠ .committed) : ¬Commits notes ∧ v.cell.logged = [] := by
  rw [gist_of_state hs] at h
  generalize s.status = st at h hne
  generalize v.cell.gate = gate, v.cell.logged = logged at h ⊢
  cases h with
  | active _ hnotes => exact ⟨hnotes, rfl⟩
  | ending _ _ hnotes => exact ⟨hnotes, rfl⟩
  | committed _ _ => exact absurd rfl hne

theorem Kept.of_stateless (h : Kept tx up notes (gist v)) (hs : v.cell.state = none) :
    notes = [] := by
  unfold gist at h
  rw [hs] at h
  cases h with
  | stateless hnotes => exact hnotes

theorem kept_of_stateless (hs : v.cell.state = none) : Kept tx up [] (gist v) := by
  unfold gist
  rw [hs]
  exact .stateless rfl

/-- A commit that was answered is in the log. -/
theorem Kept.of_commits (h : Kept tx up notes (gist v)) (hc : Commits notes) :
    v.cell.gate = some (ids notes) ∧ ∃ entry, v.cell.logged = [entry] ∧ entry.txId = tx ∧
      entry.writeSet = if up then [] else ids notes := by
  have hgate : (gist v).gate = v.cell.gate := rfl
  have hlogged : (gist v).logged = v.cell.logged := rfl
  rw [← hgate, ← hlogged]
  generalize gist v = g at h
  cases h with
  | stateless hnotes => rw [hnotes] at hc; cases hc
  | active _ hnotes => exact absurd hc hnotes
  | ending _ _ hnotes => exact absurd hc hnotes
  | committed htx hwrites => exact ⟨rfl, _, rfl, htx, hwrites⟩

end Reading

/-! ## The history -/

theorem sem_up {o : Op} {r : o.Ret} {w w' : World} (h : sem o w r w') : w'.up = w.up := by
  cases o with
  | lock t =>
      cases r with
      | true => obtain ⟨-, rfl⟩ := h; rfl
      | false => obtain rfl := h; rfl
  | extendWriteSet t keys =>
      simp only [sem] at h
      split at h <;> rw [h]
  | prepare t more => cases r <;> obtain ⟨-, rfl⟩ := h <;> rfl
  | register t s => obtain ⟨now, -, rfl⟩ := h; rfl
  | staleTransactions n => obtain ⟨now, -, -, rfl⟩ := h; rfl
  | engine t call => obtain ⟨b, -, rfl⟩ := h; rfl
  | get t => obtain ⟨-, rfl⟩ := h; rfl
  | load t => obtain ⟨-, rfl⟩ := h; rfl
  | component c => obtain ⟨-, rfl⟩ := h; rfl
  | newV4 => obtain ⟨-, rfl⟩ := h; rfl
  | loadCtx t => obtain ⟨-, rfl⟩ := h; rfl
  | insert t s | remove t | unlock t a | store t s | deregister t | now | append t e | emit t e
  | hand t ctx | storeCtx t ctx =>
      obtain rfl := h
      rfl

def history (up : Bool) : History discipline Request Reply Note where
  env w := w.up .vector = up
  steady h he := by rw [sem_up h]; exact he
  note := note
  inv tx notes v := Kept tx up notes (gist v)

/-! ## Programs that hold the guard -/

variable {α β : Type} {up : Bool} {tx : Uuid} {P : View → Prop} {Q : View → Except Stop α → Prop}

/-- A program that holds the guard of `tx`, on a transaction with `P`, leaves it with `Q`. -/
def Spec (up : Bool) (tx : Uuid) (x : Call α) (P : View → Prop)
    (Q : View → Except Stop α → Prop) : Prop :=
  ∀ v notes, P v → (history up).keeps x.run
    (fun own r => ∃ v', own = .holds tx v' notes ∧ Q v' r) (.holds tx v notes)

namespace Spec

theorem pre {x : Call α} {P' : View → Prop} (h : Spec up tx x P Q) (hP : ∀ v, P' v → P v) :
    Spec up tx x P' Q :=
  fun v notes hv => h v notes (hP v hv)

theorem post {x : Call α} {Q' : View → Except Stop α → Prop} (h : Spec up tx x P Q)
    (hQ : ∀ v r, Q v r → Q' v r) : Spec up tx x P Q' := by
  intro v notes hv
  refine History.keeps_mono (fun own r hr => ?_) (h v notes hv)
  obtain ⟨v', he, hq⟩ := hr
  exact ⟨v', he, hQ v' r hq⟩

theorem pure (a : α) (h : ∀ v, P v → Q v (.ok a)) : Spec up tx (Pure.pure a) P Q :=
  fun v _ hv => ⟨v, rfl, h v hv⟩

theorem throw (e : Stop) (h : ∀ v, P v → Q v (.error e)) :
    Spec up tx (MonadExcept.throw e : Call α) P Q :=
  fun v _ hv => ⟨v, rfl, h v hv⟩

theorem of_view {x : Call α} (h : ∀ v, P v → Spec up tx x (· = v) Q) : Spec up tx x P Q :=
  fun v notes hv => h v hv v notes rfl

theorem bind {x : Call α} {f : α → Call β} {Q : View → Except Stop β → Prop}
    {R : View → Except Stop α → Prop} (hx : Spec up tx x P R)
    (herr : ∀ v e, R v (.error e) → Q v (.error e))
    (hf : ∀ a, Spec up tx (f a) (fun v => R v (.ok a)) Q) : Spec up tx (x >>= f) P Q := by
  intro v notes hv
  refine History.keeps_try (History.keeps_mono (fun own r hr => ?_) (hx v notes hv))
  obtain ⟨v', rfl, hm⟩ := hr
  cases r with
  | ok a => exact hf a v' notes hm
  | error e => exact ⟨v', rfl, herr v' e hm⟩

theorem keeps_op {o : Op} {Q : Own Uuid View Note → Except Stop o.Ret → Prop}
    {own : Own Uuid View Note} : (history up).keeps (perform o).run Q own ↔
      (history up).Clear own ∧
        ∀ r, (history up).After own.next o r fun own' => Q own' (.ok r) := by
  rw [perform, Try.run_lift, History.keeps_bind, History.keeps_perform]
  rfl

/-- An operation on the transaction. -/
theorem act {o : Op} {Q : View → Except Stop o.Ret → Prop} (hrole : ∀ r, role o r = .act tx)
    (h : ∀ w r w', sem o w r w' → P (w.view tx) → Q (w'.view tx) (.ok r)) :
    Spec up tx (perform o) P Q := by
  intro v notes hv
  refine keeps_op.mpr ⟨trivial, fun r => ?_⟩
  unfold History.After
  rw [show parts.role o r = .act tx from hrole r]
  refine ⟨v, notes, rfl, fun w w' hs _ hw => ⟨_, rfl, h w r w' hs ?_⟩⟩
  exact (show P (parts.view w tx) from hw ▸ hv)

/-- An operation that concerns no transaction. -/
theorem quiet {o : Op} {Q : View → Except Stop o.Ret → Prop} (hrole : ∀ r, role o r = .quiet)
    (h : ∀ w r w', sem o w r w' → w.up .vector = up → ∀ v, P v → Q v (.ok r)) :
    Spec up tx (perform o) P Q := by
  intro v notes hv
  refine keeps_op.mpr ⟨trivial, fun r => ?_⟩
  unfold History.After
  rw [show parts.role o r = .quiet from hrole r]
  exact fun w w' hs he => ⟨v, rfl, h w r w' hs he v hv⟩

end Spec

/-- What `attempt` says of a result. -/
def Attempted (Q : View → Except Stop α → Prop) (v : View) : Except Stop (Except TxError α) → Prop
  | .ok (.ok a) => Q v (.ok a)
  | .ok (.error e) => Q v (.error (.failed e))
  | .error e => Q v (.error e)

theorem Spec.attempt {x : Call α} (h : Spec up tx x P Q) :
    Spec up tx (attempt x) P (Attempted Q) := by
  intro v notes hv
  show (history up).keeps (x.run >>= _) _ _
  rw [History.keeps_bind]
  refine History.keeps_mono (fun own r hr => ?_) (h v notes hv)
  obtain ⟨v', rfl, hq⟩ := hr
  cases r with
  | ok a => exact ⟨v', rfl, hq⟩
  | error e => cases e <;> exact ⟨v', rfl, hq⟩

/-- The same, where the result does not matter. -/
theorem Spec.attempt_any {x : Call α} {I : View → Prop} (h : Spec up tx x P fun v _ => I v) :
    Spec up tx (Transaction.attempt x) P fun v _ => I v := by
  refine h.attempt.post fun v r hv => ?_
  rcases r with e | e | a <;> exact hv

/-- The same, of a program that cannot fail. -/
def Runs (up : Bool) (tx : Uuid) (x : Call α) (P : View → Prop) (R : View → α → Prop) : Prop :=
  Spec up tx x P fun v r => ∃ a, r = .ok a ∧ R v a

namespace Runs

theorem seq {x : Call α} {f : α → Call β} {Q : View → Except Stop β → Prop}
    {R : View → α → Prop} (hx : Runs up tx x P R)
    (hf : ∀ a, Spec up tx (f a) (fun v => R v a) Q) : Spec up tx (x >>= f) P Q := by
  refine Spec.bind hx ?_ fun a => (hf a).pre ?_
  · rintro v e ⟨a, he, -⟩; cases he
  · rintro v ⟨a', he, hm⟩
    obtain rfl := Except.ok.inj he
    exact hm

theorem on {x : Call α} {R : View → α → Prop} (h : Runs up tx x P R) {v : View} (hv : P v) :
    Runs up tx x (· = v) R :=
  Spec.pre h fun _ he => he ▸ hv

theorem act {o : Op} {R : View → o.Ret → Prop} (hrole : ∀ r, role o r = .act tx)
    (h : ∀ w r w', sem o w r w' → P (w.view tx) → R (w'.view tx) r) :
    Runs up tx (perform o) P R :=
  Spec.act hrole fun w r w' hs hP => ⟨r, rfl, h w r w' hs hP⟩

theorem quiet {o : Op} (hrole : ∀ r, role o r = .quiet) :
    Runs up tx (perform o) P fun v _ => P v :=
  Spec.quiet hrole fun _ r _ _ _ _ hv => ⟨r, rfl, hv⟩

end Runs

/-! ## Operations -/

theorem gist_setCell {w : World} (c : Cell) :
    gist ((w.setCell tx c).view tx) = ⟨c.state.map stateGist, c.gate, c.logged⟩ := by
  rw [view_setCell]
  rfl

theorem runs_load : Runs up tx (load tx) P fun v s => P v ∧ v.cell.state = some s := by
  refine Runs.act (fun _ => rfl) ?_
  rintro w s w' ⟨hs, rfl⟩ hP
  exact ⟨hP, hs⟩

theorem runs_store {g : Gist} (s : TxState) :
    Runs up tx (store tx s) (gist · = g)
      fun v _ => gist v = { g with state := some (stateGist s) } := by
  refine Runs.act (fun _ => rfl) ?_
  rintro w - w' rfl rfl
  exact gist_setCell _

/-- On a transaction with this gist the program leaves it so. -/
def Mild (up : Bool) (tx : Uuid) (g : Gist) (x : Call α) : Prop :=
  Spec up tx x (gist · = g) fun v _ => gist v = g

/-- An operation that does not touch the state, the gate or the log. -/
theorem runs_mild {g : Gist} {o : Op} (hrole : ∀ r, role o r = .act tx)
    (h : ∀ w r w', sem o w r w' → gist (w'.view tx) = gist (w.view tx)) :
    Runs up tx (perform o) (gist · = g) fun v _ => gist v = g :=
  Runs.act hrole fun w r w' hs hg => (h w r w' hs).trans hg

theorem Runs.mild {g : Gist} {x : Call α} (h : Runs up tx x (gist · = g) fun v _ => gist v = g) :
    Mild up tx g x :=
  Spec.post h fun _ _ ⟨_, _, hv⟩ => hv

theorem runs_deregister {g : Gist} :
    Runs up tx (deregister tx) (gist · = g) fun v _ => gist v = g := by
  refine runs_mild (fun _ => rfl) ?_
  rintro w - w' rfl
  rfl

theorem runs_remove {g : Gist} : Runs up tx (remove tx) (gist · = g) fun v _ => gist v = g := by
  refine runs_mild (fun _ => rfl) ?_
  rintro w - w' rfl
  exact gist_setCell _

theorem runs_emit {g : Gist} (reason : String) :
    Runs up tx (emit tx reason) (gist · = g) fun v _ => gist v = g := by
  refine runs_mild (fun _ => rfl) ?_
  rintro w - w' rfl
  exact gist_setCell _

theorem runs_extendWriteSet {g : Gist} (keys : List String) :
    Runs up tx (extendWriteSet tx keys) (gist · = g) fun v _ => gist v = g := by
  refine runs_mild (fun _ => rfl) fun w r w' hs => ?_
  simp only [sem] at hs
  split at hs
  · rw [hs]; rfl
  · rw [hs]

theorem runs_register {g : Gist} (sessionId : Uuid) :
    Runs up tx (register tx sessionId) (gist · = g) fun v _ => gist v = g := by
  refine runs_mild (fun _ => rfl) ?_
  rintro w - w' ⟨now, -, rfl⟩
  rfl

theorem runs_append {g : Gist} (entry : TransactionLogEntry) :
    Runs up tx (append tx entry) (gist · = g)
      fun v _ => gist v = { g with logged := g.logged ++ [entry] } := by
  refine Runs.act (fun _ => rfl) ?_
  rintro w - w' rfl rfl
  exact gist_setCell (w := w) _

theorem mild_rules {g : Gist} :
    Rules tx (fun s => g.state = some (stateGist s)) (fun _ => True) (Mild up tx g) where
  pure a := Spec.pure a fun _ h => h
  throw e := Spec.throw e fun _ h => h
  bind hx hf := Spec.bind hx (fun _ _ h => h) hf
  lifecycle c := Spec.quiet (fun _ => rfl) fun _ _ _ _ _ _ h => h
  engine call _ := Runs.mild <| runs_mild (fun _ => rfl) fun w r w' hs => by
    obtain ⟨b, -, rfl⟩ := hs
    exact gist_setCell _
  load hf := runs_load.seq fun s => Spec.of_view fun v hv => by
    refine (hf s ?_).pre fun v' hv' => hv' ▸ hv.1
    rw [← hv.1]
    unfold gist
    rw [hv.2]
    rfl
  store s hs := (runs_store s).post fun v r hv => by
    obtain ⟨u, -, hv⟩ := hv
    rw [hv, ← hs]
  core _ _ hs := hs
  snapshot _ _ hs := hs

/-! ## Phase 2 and the rollback -/

section Phases

variable {st : TxStatus} {gate : Option (List String)} {logged : List TransactionLogEntry}

/-- The status is `st`, the buffer any. -/
def Stays (st : TxStatus) (gate : Option (List String)) (logged : List TransactionLogEntry)
    (v : View) : Prop :=
  ∃ ops, gist v = ⟨some (st, ops), gate, logged⟩

theorem stays_of_mild {x : Call α} (h : ∀ ops, Mild up tx ⟨some (st, ops), gate, logged⟩ x) :
    Spec up tx x (Stays st gate logged) fun v _ => Stays st gate logged v := by
  rintro v notes ⟨ops, hv⟩
  exact (h ops).post (fun v' _ hv' => ⟨ops, hv'⟩) v notes hv

/-- The state of a transaction, when it is read. -/
theorem gist_load {v : View} {s : TxState} {ops : List VectorUpsertOp}
    (hv : gist v = ⟨some (st, ops), gate, logged⟩) (hs : v.cell.state = some s) :
    s.status = st ∧ s.vectorBuffer = ops := by
  rw [gist_of_state hs] at hv
  exact Prod.mk.inj (Option.some.inj (Gist.mk.inj hv).1)

theorem runs_setStatus {ops : List VectorUpsertOp} (st' : TxStatus) :
    Runs up tx (setStatus tx st') (gist · = ⟨some (st, ops), gate, logged⟩)
      fun v _ => gist v = ⟨some (st', ops), gate, logged⟩ := by
  refine runs_load.seq fun s => Spec.of_view fun v hv => ?_
  obtain ⟨hv, hs⟩ := hv
  refine ((runs_store _).on hv).post ?_
  rintro v' r ⟨u, hr, hv'⟩
  rw [← (gist_load hv hs).2]
  exact ⟨u, hr, hv'⟩

theorem stays_setStatus (st' : TxStatus) :
    Runs up tx (setStatus tx st') (Stays st gate logged) fun v _ => Stays st' gate logged v := by
  rintro v notes ⟨ops, hv⟩
  refine (runs_setStatus st').post ?_ v notes hv
  rintro v' r ⟨u, hr, hv'⟩
  exact ⟨u, hr, ops, hv'⟩

/-- What phase 2 leaves of the buffer, when it succeeds. -/
def Applied (up : Bool) (ops : List VectorUpsertOp) (st : TxStatus) (gate : Option (List String))
    (logged : List TransactionLogEntry) (v : View) : Except Stop α → Prop
  | .ok _ => gist v = ⟨some (st, if up then [] else ops), gate, logged⟩
  | .error _ => Stays st gate logged v

theorem spec_applyUpserts {ops : List VectorUpsertOp} :
    Spec up tx (applyUpserts tx) (gist · = ⟨some (st, ops), gate, logged⟩)
      (Applied up ops st gate logged) := by
  refine runs_load.seq fun s => Spec.of_view fun v hv => ?_
  obtain ⟨hv, hs⟩ := hv
  obtain ⟨rfl, rfl⟩ := gist_load hv hs
  split
  next hempty =>
      refine Spec.pure () fun v' hv' => ?_
      have hnil : s.vectorBuffer = [] := List.isEmpty_iff.mp hempty
      show gist v' = ⟨some (s.status, if up then [] else s.vectorBuffer), gate, logged⟩
      rw [hnil, ite_self, hv', hv, hnil]
  next =>
      -- the reply of `lifecycle` is whether the engine is started
      refine Spec.bind (R := fun v' r => v' = v ∧ r = .ok up)
        (Spec.quiet (fun _ => rfl) ?_) (fun _ _ h => nomatch h.2) fun started => ?_
      · rintro w started w' ⟨rfl, -⟩ rfl v' hv'
        exact ⟨hv', rfl⟩
      refine Spec.of_view fun v' hv' => ?_
      obtain ⟨rfl, hup⟩ := hv'
      obtain rfl := Except.ok.inj hup
      split
      next hup =>
          refine Runs.seq ((runs_store _).on hv) fun _ =>
            (mild_rules.upsertEach (fun _ => trivial) _).post fun v' r hv' => ?_
          cases r with
          | ok u =>
              show gist v' = ⟨some (s.status, if _ then [] else s.vectorBuffer), gate, logged⟩
              rw [if_pos hup]
              exact hv'
          | error e => exact ⟨[], hv'⟩
      next hup =>
          refine Spec.pure () fun v' hv' => ?_
          show gist v' = ⟨some (s.status, if _ then [] else s.vectorBuffer), gate, logged⟩
          rw [if_neg hup, hv', hv]

theorem spec_applyPhase2 {ops : List VectorUpsertOp} :
    Spec up tx (applyPhase2 tx) (gist · = ⟨some (st, ops), gate, logged⟩)
      (Applied up ops st gate logged) := by
  refine spec_applyUpserts.bind (fun _ _ h => h) fun _ => ?_
  refine ((mild_rules.commitCore trivial).bind (fun _ e h => ?_) fun _ =>
    mild_rules.deleteSnapshot fun _ => trivial).post ?_
  · exact h
  · intro v r hv
    cases r with
    | ok u => exact hv
    | error e => exact ⟨_, hv⟩

theorem spec_discardBuffer :
    Spec up tx (discardBuffer tx) (Stays st gate logged) fun v _ => Stays st gate logged v := by
  refine runs_load.seq fun s => Spec.of_view fun v hv => ?_
  obtain ⟨⟨ops, hv⟩, hs⟩ := hv
  refine ((runs_store _).on hv).post ?_
  rintro v' r ⟨u, -, hv'⟩
  refine ⟨[], ?_⟩
  rw [hv']
  show (⟨some (s.status, []), gate, logged⟩ : Gist) = _
  rw [(gist_load hv hs).1]

theorem spec_doRollback :
    Spec up tx (doRollback tx) (Stays st gate logged) fun v _ => Stays st gate logged v :=
  Spec.bind (stays_of_mild fun _ => mild_rules.rollbackCore trivial) (fun _ _ h => h) fun _ =>
    Spec.bind spec_discardBuffer (fun _ _ h => h) fun _ =>
      stays_of_mild fun _ => mild_rules.restoreSnapshot fun _ => trivial

end Phases

/-! ## The bodies of the calls -/

section Bodies

variable {notes : List Note} {gate : Option (List String)}

/-- How the body of a call leaves the transaction, if `more` is noted when it succeeds. -/
def Leaves (tx : Uuid) (up : Bool) (notes more : List Note) (v : View) : Except Stop α → Prop
  | .ok _ => Kept tx up (notes ++ more) (gist v)
  | .error _ => Kept tx up notes (gist v)

theorem spec_fail {more : List Note} (reason : String)
    (h : ∀ v, P v → Kept tx up notes (gist v)) :
    Spec up tx (fail tx reason : Call α) P (Leaves tx up notes more) :=
  Spec.throw _ h

/-- The entry holds what is in the buffer when phase 2 is over. -/
theorem runs_conclude {ops : List VectorUpsertOp} :
    Runs up tx (conclude tx) (gist · = ⟨some (.committing, ops), gate, []⟩) fun v _ =>
      ∃ entry : TransactionLogEntry, entry.txId = tx ∧
        entry.writeSet = ops.map VectorUpsertOp.id ∧
        gist v = ⟨some (.committed, ops), gate, [entry]⟩ := by
  refine (runs_setStatus .committed).seq fun _ => runs_deregister.seq fun _ =>
    runs_remove.seq fun _ => Runs.seq (Runs.quiet fun _ => rfl) fun now =>
      runs_load.seq fun s => Spec.of_view fun v hv => ?_
  obtain ⟨hv, hs⟩ := hv
  refine ((runs_append _).on hv).post ?_
  rintro v' r ⟨u, hr, hv'⟩
  refine ⟨u, hr, _, rfl, ?_, hv'⟩
  show s.vectorBuffer.map VectorUpsertOp.id = _
  rw [(gist_load hv hs).2]

/-- A transaction on its way out, with nothing logged. -/
theorem Stays.kept {st : TxStatus} {v : View} (h : Stays st gate [] v) (hst : st ≠ .active)
    (hst' : st ≠ .committed) (hnotes : ¬Commits notes) : Kept tx up notes (gist v) := by
  obtain ⟨ops, hv⟩ := h
  rw [hv]
  exact .ending hst hst' hnotes

theorem spec_abandon [Crates] [Texts] {more : List Note} (hnotes : ¬Commits notes) (e : TxError) :
    Spec up tx (abandon tx e) (Stays .committing gate []) (Leaves tx up notes more) := by
  refine (stays_setStatus .rollingBack).seq fun _ => ?_
  refine Spec.bind spec_doRollback.attempt_any ?_ fun _ => ?_
  · exact fun v e hv => hv.kept nofun nofun hnotes
  refine (stays_setStatus .rolledBack).seq fun _ => Spec.of_view fun v hv => ?_
  obtain ⟨ops, hv⟩ := hv
  refine (runs_deregister.on hv).seq fun _ => runs_remove.seq fun _ => (runs_emit _).seq fun _ => ?_
  refine spec_fail _ fun v' hv' => ?_
  exact Stays.kept ⟨ops, hv'⟩ nofun nofun hnotes

/-- `prepare` lets a transaction through with all that was buffered. -/
theorem runs_prepare {v : View} {s : TxState} (hidle : Idle v) (hs : v.cell.state = some s)
    (hkept : Kept tx up notes (gist v)) (hactive : s.status = .active) :
    Runs up tx (prepare tx []) (· = v) fun v' r =>
      match r with
      | .ok _ => gist v' = ⟨some (.active, s.vectorBuffer), some (ids notes), []⟩
      | .error _ => v' = v := by
  obtain ⟨hops, -, hlogged⟩ := hkept.of_active hs hactive
  refine Runs.act (fun _ => rfl) fun w r w' hsem he => ?_
  obtain rfl := he
  cases r with
  | error e =>
      obtain ⟨-, rfl⟩ := hsem
      rfl
  | ok u =>
      obtain ⟨-, rfl⟩ := hsem
      have hwrites : w.writes tx ++ [] = ids notes := by
        obtain ⟨r, hr, hw⟩ := hidle.recorded
        have hr' : w.coordinator.lookup tx = some r := hr
        unfold World.writes
        rw [hr', List.append_nil, ← hops]
        show r.writeSet = _
        rw [hw]
        unfold View.buffered
        rw [hs]
        rfl
      show gist (World.view _ tx) = _
      rw [gist_setCell, hwrites]
      show (⟨(w.view tx).cell.state.map stateGist, _, (w.view tx).cell.logged⟩ : Gist) = _
      rw [hs, hlogged, Option.map_some, ← hactive]
      rfl

theorem spec_commitLocked [Crates] [Texts] :
    Spec up tx (commitLocked tx) (fun v => Rest v ∧ Kept tx up notes (gist v))
      (Leaves tx up notes [(.commit, none)]) := by
  refine runs_load.seq fun s => Spec.of_view fun v hv => ?_
  obtain ⟨⟨hrest, hkept⟩, hs⟩ := hv
  split
  next => exact spec_fail _ fun v' hv' => hv' ▸ hkept
  next hactive =>
      have hactive : s.status = .active := not_not.mp hactive
      have hidle : Idle v := hrest.idle_of_active hs hactive
      obtain ⟨hops, hnotes, -⟩ := hkept.of_active hs hactive
      refine (runs_prepare hidle hs hkept hactive).seq fun r => ?_
      cases r with
      | error e => exact Spec.throw _ fun v' hv' => hv' ▸ hkept
      | ok u =>
          refine Runs.seq (Runs.quiet fun _ => rfl) fun core => ?_
          rw [ite_self, checkDimensions_zero, pure_bind]
          refine (runs_setStatus .committing).seq fun _ => ?_
          refine Spec.bind spec_applyPhase2.attempt (fun v e hv => ?_) fun r => ?_
          · exact Stays.kept (show Stays .committing _ [] v from hv) nofun nofun hnotes
          cases r with
          | error e => exact spec_abandon hnotes e
          | ok u =>
              refine runs_conclude.post ?_
              rintro v' r ⟨u, rfl, entry, htx, hwrites, hv'⟩
              show Kept tx up (notes ++ _) (gist v')
              have hids : ids (notes ++ [(.commit, none)]) = ids notes :=
                (ids_append notes _ _).trans (List.append_nil _)
              rw [hv', ← hids]
              refine .committed htx ?_
              rw [hwrites, hids, ← hops]
              cases up <;> rfl

theorem spec_rollbackLocked :
    Spec up tx (rollbackLocked tx) (fun v => Kept tx up notes (gist v))
      fun v r => Kept tx up notes (gist v) ∧ Leaves tx up notes [(.rollback, none)] v r := by
  refine runs_load.seq fun s => Spec.of_view fun v hv => ?_
  obtain ⟨hkept, hs⟩ := hv
  split
  next => exact Spec.throw _ fun v' hv' => hv' ▸ ⟨hkept, hkept⟩
  next hopen =>
      obtain ⟨hnotes, hlogged⟩ := hkept.of_open hs fun h => hopen (.inl h)
      have hstays : Stays s.status v.cell.gate [] v :=
        ⟨s.vectorBuffer, by rw [gist_of_state hs, hlogged]⟩
      refine ((stays_setStatus .rollingBack).on hstays).seq fun _ => ?_
      refine Spec.bind spec_doRollback (fun v' e hv' => ?_) fun _ => ?_
      · have hkept : Kept tx up notes (gist v') := hv'.kept nofun nofun hnotes
        exact ⟨hkept, hkept⟩
      refine (stays_setStatus .rolledBack).seq fun _ => Spec.of_view fun v' hv' => ?_
      obtain ⟨ops, hv'⟩ := hv'
      refine (runs_deregister.on hv').seq fun _ => runs_remove.post ?_
      rintro v'' r ⟨u, rfl, hv''⟩
      have hstays : Stays .rolledBack v.cell.gate [] v'' := ⟨ops, hv''⟩
      exact ⟨hstays.kept nofun nofun hnotes,
        hstays.kept nofun nofun (not_commits_append hnotes nofun)⟩

theorem spec_bufferLocked (op : VectorUpsertOp) :
    Spec up tx (bufferLocked tx op) (fun v => Kept tx up notes (gist v))
      (Leaves tx up notes [(.buffer, some op.id)]) := by
  refine runs_load.seq fun s => Spec.of_view fun v hv => ?_
  obtain ⟨hkept, hs⟩ := hv
  split
  next => exact spec_fail _ fun v' hv' => hv' ▸ hkept
  next hactive =>
      have hactive : s.status = .active := not_not.mp hactive
      obtain ⟨hops, hnotes, hlogged⟩ := hkept.of_active hs hactive
      refine Runs.seq ((runs_store _).on rfl) fun _ => (runs_extendWriteSet _).post ?_
      rintro v' r ⟨u, rfl, hv'⟩
      show Kept tx up (notes ++ _) (gist v')
      rw [hv']
      show Kept tx up _ ⟨some (s.status, s.vectorBuffer ++ [op]), v.cell.gate, v.cell.logged⟩
      rw [hactive, hlogged]
      refine .active ?_ (not_commits_append hnotes nofun)
      rw [List.map_append, hops, ids_append]
      rfl

/-! The legacy calls work on a context; there is no state. -/

def Stateless (v : View) : Prop := v.cell.state = none

theorem stateless_act {o : Op} (hrole : ∀ r, role o r = .act tx)
    (h : ∀ w r w', sem o w r w' → (w'.view tx).cell.state = (w.view tx).cell.state) :
    Runs up tx (perform o) Stateless fun v _ => Stateless v :=
  Runs.act hrole fun w r w' hs hv => (h w r w' hs).trans hv

theorem runs_loadCtx : Runs up tx (loadCtx tx) P fun v ctx => P v ∧ v.cell.ctx = some ctx := by
  refine Runs.act (fun _ => rfl) ?_
  rintro w ctx w' ⟨hs, rfl⟩ hP
  exact ⟨hP, hs⟩

theorem runs_storeCtx (ctx : TransactionContext) :
    Runs up tx (storeCtx tx ctx) Stateless fun v _ => Stateless v := by
  refine stateless_act (fun _ => rfl) ?_
  rintro w - w' rfl
  rw [view_setCell]
  rfl

/-- A body that works on a context. -/
theorem spec_stateless {x : TransactionContext → Call Unit}
    (h : ∀ ctx, Spec up tx (x ctx) Stateless fun v _ => Stateless v) :
    Spec up tx (loadCtx tx >>= x) (fun v => Rest v ∧ Kept tx up notes (gist v))
      (Leaves tx up notes []) := by
  refine runs_loadCtx.seq fun ctx => Spec.of_view fun v hv => ?_
  obtain ⟨⟨hrest, hkept⟩, hctx⟩ := hv
  have hnone : Stateless v := (hrest.simple_of_ctx hctx).noState
  refine Spec.post (Spec.pre (h ctx) fun v' (he : v' = v) => he ▸ hnone) fun v' r hv' => ?_
  obtain rfl := hkept.of_stateless hnone
  cases r <;> exact kept_of_stateless hv'

theorem spec_recordLocked (key : String) :
    Spec up tx (recordLocked tx key) (fun v => Rest v ∧ Kept tx up notes (gist v))
      (Leaves tx up notes []) := by
  refine spec_stateless fun ctx => (runs_storeCtx _).post ?_
  rintro v r ⟨u, -, hv⟩
  exact hv

theorem spec_commitSimpleLocked :
    Spec up tx (commitSimpleLocked tx) (fun v => Rest v ∧ Kept tx up notes (gist v))
      (Leaves tx up notes []) := by
  refine spec_stateless fun ctx => ?_
  split
  next => exact Spec.throw _ fun v hv => hv
  next =>
      have hprepare : Runs up tx (prepare tx ctx.writeSet) Stateless fun v _ => Stateless v := by
        refine stateless_act (fun _ => rfl) fun w r w' hs => ?_
        cases r with
        | error e => obtain ⟨-, rfl⟩ := hs; rfl
        | ok u => obtain ⟨-, rfl⟩ := hs; rw [view_setCell]; rfl
      refine hprepare.seq fun r => ?_
      cases r with
      | error e => exact Spec.throw _ fun v hv => hv
      | ok u =>
          refine (runs_storeCtx _).seq fun _ => Runs.seq (stateless_act (fun _ => rfl) ?_) fun _ =>
            Runs.seq (Runs.quiet fun _ => rfl) fun now =>
              Spec.post (stateless_act (fun _ => rfl) ?_) ?_
          · rintro w - w' rfl; rfl
          · rintro w - w' rfl
            show ((w.setCell tx _).view tx).cell.state = _
            rw [view_setCell]
            rfl
          · rintro v r ⟨u, -, hv⟩
            exact hv

theorem spec_rollback_unnoted :
    Spec up tx (rollbackLocked tx) (fun v => Kept tx up notes (gist v))
      (Leaves tx up notes []) := by
  refine spec_rollbackLocked.post fun v r hv => ?_
  cases r with
  | ok u =>
      show Kept tx up (notes ++ []) (gist v)
      rw [List.append_nil]
      exact hv.1
  | error e => exact hv.1

end Bodies

/-! ## The guard -/

/-- A program between two calls on transactions: it holds nothing, and owes nothing for what
it held. -/
def Loose (up : Bool) (own : Own Uuid View Note) : Prop :=
  (history up).Clear own ∧ own.next = .free

theorem loose_free : Loose up .free := ⟨trivial, rfl⟩

theorem loose_gave {v : View} {notes : List Note} (h : Kept tx up notes (gist v)) :
    Loose up (.gave tx v notes) :=
  ⟨h, rfl⟩

/-- How a call on `tx` ends, if `more` is noted when it succeeds. -/
def Ends (up : Bool) (tx : Uuid) (more : List Note) (own : Own Uuid View Note) :
    Except Stop α → Prop
  | .ok _ => ∃ v notes, own = .gave tx v notes ∧ Kept tx up (notes ++ more) (gist v)
  | .error _ => Loose up own

/-- A call that starts loose ends with `R`. -/
def Calls (up : Bool) (x : Call α) (R : Own Uuid View Note → Except Stop α → Prop) : Prop :=
  ∀ own, Loose up own → (history up).keeps x.run R own

namespace Calls

theorem seq {x : Call α} {f : α → Call β} {R : Own Uuid View Note → Except Stop β → Prop}
    (hx : Calls up x fun own _ => Loose up own) (herr : ∀ own e, Loose up own → R own (.error e))
    (hf : ∀ a, Calls up (f a) R) : Calls up (x >>= f) R := by
  intro own hown
  refine History.keeps_try (History.keeps_mono (fun own' r hr => ?_) (hx own hown))
  cases r with
  | ok a => exact hf a own' hr
  | error e => exact herr own' e hr

theorem quiet {o : Op} (hrole : ∀ r, role o r = .quiet) :
    Calls up (perform o) fun own _ => Loose up own := by
  intro own hown
  refine Spec.keeps_op.mpr ⟨hown.1, fun r => ?_⟩
  unfold History.After
  rw [show parts.role o r = .quiet from hrole r]
  intro _ _ _ _
  rw [hown.2]
  exact loose_free

theorem getHandle : Calls up (Transaction.getHandle tx) fun own _ => Loose up own := by
  refine (quiet fun _ => rfl).seq (fun _ _ h => h) fun found => ?_
  split
  · exact fun _ h => h
  · exact fun _ h => h

theorem withGuard {x : Call α} {a : Option Answer} {more : List Note}
    (h : ∀ notes, Spec up tx x (fun v => Rest v ∧ Kept tx up notes (gist v))
      (Leaves tx up notes more)) :
    Calls up (Transaction.withGuard tx a x) (Ends up tx more) := by
  intro own hown
  show (history up).keeps (Prog.perform (F := Shared) (.lock tx) >>= _) _ _
  rw [History.keeps_bind, History.keeps_perform]
  refine ⟨hown.1, fun acquired => ?_⟩
  rw [hown.2]
  cases acquired with
  | false => exact fun _ _ _ _ => loose_free
  | true =>
      refine ⟨rfl, ?_⟩
      rintro w w' notes ⟨-, rfl⟩ - hrest hkept
      show (history up).keeps (x.run >>= _) _ _
      rw [History.keeps_bind]
      refine History.keeps_mono (fun own r hr => ?_) (h notes _ notes ⟨hrest, hkept⟩)
      obtain ⟨v, rfl, hv⟩ := hr
      show (history up).keeps (Prog.perform (F := Shared) (.unlock tx _) >>= _) _ _
      rw [History.keeps_bind, History.keeps_perform]
      refine ⟨trivial, fun _ => ⟨v, notes, rfl, ?_⟩⟩
      rintro w w' rfl - rfl
      have hgist : gist (World.view ((w.setCell tx { w.cells tx with
          answered := (w.cells tx).answered ++ (Answer.given a r).toList }).setFree tx true) tx) =
          gist (w.view tx) := by
        rw [view_setFree]
        exact gist_setCell _
      cases r with
      | ok b => exact ⟨_, notes, rfl, hgist ▸ hv⟩
      | error e => exact loose_gave (hgist ▸ hv)

theorem guarded {x : Call Unit} {a : Answer} {more : List Note}
    (h : ∀ notes, Spec up tx x (fun v => Rest v ∧ Kept tx up notes (gist v))
      (Leaves tx up notes more)) :
    Calls up (Transaction.getHandle tx >>= fun _ => Transaction.withGuard tx (some a) x)
      (Ends up tx more) :=
  getHandle.seq (fun _ _ h => h) fun _ => withGuard h

/-- A call that notes nothing leaves nothing owing. -/
theorem loose {x : Call α} (h : Calls up x (Ends up tx [])) :
    Calls up x fun own _ => Loose up own := by
  intro own hown
  refine History.keeps_mono (fun own' r hr => ?_) (h own hown)
  cases r with
  | ok a =>
      obtain ⟨v, notes, rfl, hv⟩ := hr
      rw [List.append_nil] at hv
      exact loose_gave hv
  | error e => exact hr

theorem attempt {x : Call α} (h : Calls up x fun own _ => Loose up own) :
    Calls up (Transaction.attempt x) fun own _ => Loose up own := by
  intro own hown
  show (history up).keeps (x.run >>= _) _ _
  rw [History.keeps_bind]
  refine History.keeps_mono (fun own' r hr => ?_) (h own hown)
  cases r with
  | ok a => exact hr
  | error e => cases e <;> exact hr

/-- What is noted of a rollback by `timeout_stale` is nothing. -/
theorem timeoutEach (stale : List (Uuid × Uuid)) (count : UInt32) :
    Calls up (Transaction.timeoutEach stale count) fun own _ => Loose up own := by
  induction stale generalizing count with
  | nil => exact fun _ h => h
  | cons x stale ih =>
      have hrollback : Calls up (Transaction.rollback x.1) (Ends up x.1 []) :=
        guarded fun notes => spec_rollback_unnoted.pre fun _ h => h.2
      refine (attempt hrollback.loose).seq (fun _ _ h => h) fun r => ?_
      cases r with
      | error e => exact ih count
      | ok u => exact ih (count + 1)

end Calls

/-! ## New transactions -/

/-- Nothing yet. -/
def Gist.blank : Gist := ⟨none, none, []⟩

theorem keeps_newV4 {f : Uuid → Call β} {R : Own Uuid View Note → Except Stop β → Prop}
    (hf : ∀ id v, gist v = .blank → (history up).keeps (f id).run R (.holds id v [])) :
    (history up).keeps (newV4 >>= f).run R .free := by
  refine History.keeps_try (Spec.keeps_op.mpr ⟨trivial, fun id => ⟨rfl, ?_⟩⟩)
  rintro w w' notes ⟨hid, rfl⟩ - hrest hkept
  have hcell : ((w.draw id).view id).cell = {} := (Rest.of_undrawn hrest hid).1
  have hnotes : notes = [] :=
    Kept.of_stateless hkept (by rw [(Rest.of_undrawn hrest hid).1])
  rw [hnotes]
  refine hf id _ ?_
  unfold gist
  rw [hcell]
  rfl

/-- The result of a step of `begin`, when there is one, is a blank state. -/
def Builds (v : View) (r : Except Stop TxState) : Prop :=
  gist v = .blank ∧ ∀ s, r = .ok s → s.Blank

theorem spec_build {s : TxState} (hs : s.Blank) :
    Spec up tx (pure s : Call TxState) (gist · = .blank) Builds := by
  refine Spec.pure s fun _ h => ⟨h, fun s' he => ?_⟩
  obtain rfl := Except.ok.inj he
  exact hs

theorem spec_beginCore {s : TxState} (hs : s.Blank) :
    Spec up tx (beginCore tx s) (gist · = .blank) Builds := by
  refine Runs.seq (Runs.quiet fun _ => rfl) fun started => ?_
  split
  · refine Spec.bind (mild_rules.await trivial) (fun _ _ h => ⟨h, nofun⟩) fun r => ?_
    cases r with
    | error e => exact Spec.throw _ fun _ h => ⟨h, nofun⟩
    | ok u => exact spec_build hs
  · exact spec_build hs

theorem spec_takeSnapshot [Crates] {s : TxState} (hs : s.Blank) :
    Spec up tx (takeSnapshot tx s) (gist · = .blank) Builds := by
  refine Runs.seq (Runs.quiet fun _ => rfl) fun started => ?_
  split
  · refine Spec.bind (mild_rules.await trivial) (fun _ _ h => ⟨h, nofun⟩) fun r => ?_
    cases r with
    | error e => exact spec_build hs
    | ok snapId => exact spec_build hs
  · exact spec_build hs

theorem Spec.then_keeps {x : Call α} {f : α → Call β} (hx : Spec up tx x P Q) {v : View}
    (hv : P v) {notes : List Note}
    (hf : ∀ v' a, Q v' (.ok a) →
      (history up).keeps (f a).run (fun own _ => (history up).Clear own) (.holds tx v' notes)) :
    (history up).keeps (x >>= f).run (fun own _ => (history up).Clear own)
      (.holds tx v notes) := by
  refine History.keeps_try (History.keeps_mono (fun own r hr => ?_) (hx v notes hv))
  obtain ⟨v', rfl, hq⟩ := hr
  cases r with
  | ok a => exact hf v' a hq
  | error e => trivial

/-- The last step of `begin` and of `begin_simple`, which gives the transaction away. -/
theorem keeps_give {o : Op} {v : View} {f : o.Ret → α} (hrole : ∀ r, role o r = .give tx)
    (h : ∀ w r w', sem o w r w' → w.view tx = v → Kept tx up [] (gist (w'.view tx))) :
    (history up).keeps (perform o >>= fun r => (pure (f r) : Call α)).run
      (fun own _ => (history up).Clear own) (.holds tx v []) := by
  refine History.keeps_try (Spec.keeps_op.mpr ⟨trivial, fun r => ?_⟩)
  unfold History.After
  rw [show parts.role o r = .give tx from hrole r]
  exact ⟨v, [], rfl, fun w w' hs _ hw => h w r w' hs hw⟩

theorem keeps_begin [Crates] (session : SessionContext) :
    (history up).keeps (begin session).run (fun own _ => (history up).Clear own) .free := by
  refine keeps_newV4 fun id v hv => ?_
  refine Spec.then_keeps (P := (gist · = .blank)) (Q := fun v _ => gist v = .blank)
    (Spec.quiet (fun _ => rfl) fun _ _ _ _ _ _ h => h) hv fun v startedAt hv => ?_
  refine (spec_beginCore ⟨rfl, rfl⟩).then_keeps hv fun v s hv => ?_
  refine (spec_takeSnapshot (hv.2 s rfl)).then_keeps hv.1 fun v s hv => ?_
  have hs : s.Blank := hv.2 s rfl
  refine Spec.then_keeps (runs_register session.sessionId) hv.1 fun v u hv => ?_
  obtain ⟨-, -, hv⟩ := hv
  refine keeps_give (fun _ => rfl) ?_
  rintro w - w' rfl rfl
  rw [view_setFree, gist_setCell]
  have hgate : (w.cells id).gate = none := (Gist.mk.inj hv).2.1
  have hlogged : (w.cells id).logged = [] := (Gist.mk.inj hv).2.2
  show Kept id up [] ⟨some (s.status, s.vectorBuffer), (w.cells id).gate, (w.cells id).logged⟩
  rw [hlogged, hs.1, hs.2]
  exact .active rfl nofun

theorem keeps_beginSimple (sessionId : Uuid) (isolation : IsolationLevel) :
    (history up).keeps (beginSimple sessionId isolation).run
      (fun own _ => (history up).Clear own) .free := by
  refine keeps_newV4 fun id v hv => ?_
  refine Spec.then_keeps (runs_register sessionId) hv fun v u hv => ?_
  obtain ⟨-, -, hv⟩ := hv
  refine keeps_give (fun _ => rfl) ?_
  rintro w - w' rfl rfl
  have hstate : (w.view id).cell.state = none := Option.map_eq_none_iff.mp (Gist.mk.inj hv).1
  refine kept_of_stateless ?_
  rw [view_setFree, view_setCell]
  exact hstate

/-! ## Every call keeps the history -/

theorem closes_of_clear {req : Request} {rep : Reply} {own : Own Uuid View Note}
    (hnote : ∀ t, note t req rep = none) (h : (history up).Clear own) :
    (history up).Closes req own rep := by
  cases own with
  | free => exact hnote
  | holds t v notes => exact hnote
  | gave t v notes =>
      refine ⟨?_, fun t' _ => hnote t'⟩
      rw [show (history up).note t req rep = none from hnote t]
      exact (List.append_nil notes).symm ▸ h

theorem closes_of_ends {req : Request} {a : Answer} {own : Own Uuid View Note}
    {r : Except Stop Unit} (hasks : req.asks = some (tx, a))
    (h : Ends up tx [(a, upserted req)] own r) : (history up).Closes req own (.done r) := by
  cases r with
  | error e => exact closes_of_clear (fun _ => rfl) h.1
  | ok u =>
      obtain ⟨v, notes, rfl, hv⟩ := h
      have hnote : ∀ t, (history up).note t req (.done (.ok u)) =
          if tx = t then some (a, upserted req) else none := by
        intro t
        simp only [history, note, hasks]
      refine ⟨?_, fun t hne => ?_⟩
      · rw [hnote, if_pos rfl]
        exact hv
      · rw [hnote, if_neg fun he => hne he.symm]

theorem Calls.answered {req : Request} {a : Answer} {x : Call Unit}
    (hasks : req.asks = some (tx, a)) (hx : Calls up x (Ends up tx [(a, upserted req)])) :
    (history up).keeps (Reply.done <$> x.run) ((history up).Closes req) .free :=
  History.keeps_map.mpr (History.keeps_mono (fun _ _ => closes_of_ends hasks) (hx _ loose_free))

theorem keeps_unnoted {req : Request} {x : Call α} {f : Except Stop α → Reply}
    (hnote : ∀ t r, note t req (f r) = none)
    (hx : (history up).keeps x.run (fun own _ => (history up).Clear own) .free) :
    (history up).keeps (f <$> x.run) ((history up).Closes req) .free :=
  History.keeps_map.mpr
    (History.keeps_mono (fun _ r => closes_of_clear fun t => hnote t r) hx)

theorem Calls.clear {x : Call α} (hx : Calls up x fun own _ => Loose up own) :
    (history up).keeps x.run (fun own _ => (history up).Clear own) .free :=
  History.keeps_mono (fun _ _ hr => hr.1) (hx _ loose_free)

theorem note_none {req : Request} (hasks : req.asks = none) (t : Uuid) (r : Except Stop Unit) :
    note t req (.done r) = none := by
  cases r with
  | error e => rfl
  | ok u => simp only [note, hasks]

theorem history_kept [Crates] [Texts] (req : Request) :
    (history up).keeps (handler req) ((history up).Closes req) .free := by
  cases req with
  | begin session => exact keeps_unnoted (fun _ _ => rfl) (keeps_begin session)
  | commit tx =>
      exact Calls.answered (a := .commit) rfl (Calls.guarded fun notes => spec_commitLocked)
  | rollback tx =>
      exact Calls.answered (a := .rollback) rfl (Calls.guarded fun notes =>
        (spec_rollbackLocked.post fun _ _ h => h.2).pre fun _ h => h.2)
  | timeoutStale olderThanSecs =>
      refine keeps_unnoted (fun _ _ => rfl) (Calls.clear ?_)
      exact (Calls.quiet fun _ => rfl).seq (fun _ _ h => h) fun stale => Calls.timeoutEach stale 0
  | bufferVectorUpsert tx op =>
      exact Calls.answered (a := .buffer) rfl (Calls.guarded fun notes =>
        (spec_bufferLocked op).pre fun _ h => h.2)
  | beginSimple sessionId isolation =>
      exact keeps_unnoted (fun _ _ => rfl) (keeps_beginSimple sessionId isolation)
  | recordWrite tx key =>
      have hx : Calls up (Transaction.recordWrite tx key) (Ends up tx []) :=
        Calls.withGuard fun notes => spec_recordLocked key
      exact keeps_unnoted (note_none rfl) hx.loose.clear
  | commitSimple tx =>
      have hx : Calls up (Transaction.commitSimple tx) (Ends up tx []) :=
        Calls.withGuard fun notes => spec_commitSimpleLocked
      exact keeps_unnoted (note_none rfl) hx.loose.clear

/-! ## Runs -/

section Runs

def acceptedBy {M : Type} (tx : Uuid) (e : Ended Request Reply M) : Option String :=
  match e.req, e.rep with
  | .bufferVectorUpsert t op, some (.done (.ok _)) => if t = tx then some op.id else none
  | _, _ => none

/-- The ids of the upserts that `buffer_vector_upsert` has accepted for a transaction. -/
def accepted (tx : Uuid) (c : System) : List String := c.ended.filterMap (acceptedBy tx)

theorem answerOn_eq {M : Type} (tx : Uuid) (e : Ended Request Reply M) :
    answerOn tx e = (e.rep.bind (note tx e.req)).map Prod.fst := by
  obtain ⟨req, m, rep⟩ := e
  unfold answerOn
  rcases rep with _ | r | (_ | u) | r <;> cases hasks : req.asks <;>
    simp only [hasks, Option.bind_none, Option.bind_some, Option.map_none, note]
  split <;> rfl

theorem acceptedBy_eq {M : Type} (tx : Uuid) (e : Ended Request Reply M) :
    acceptedBy tx e = (e.rep.bind (note tx e.req)).bind Prod.snd := by
  obtain ⟨req, m, rep⟩ := e
  rcases rep with _ | r | (_ | u) | r
  · cases req <;> rfl
  · cases req <;> rfl
  · cases req <;> rfl
  · cases req with
    | bufferVectorUpsert t op =>
        show (if t = tx then some op.id else none) =
          (if t = tx then some (Answer.buffer, some op.id) else none : Option Note).bind Prod.snd
        split <;> rfl
    | commit t =>
        show none =
          (if t = tx then some (Answer.commit, none) else none : Option Note).bind Prod.snd
        split <;> rfl
    | rollback t =>
        show none =
          (if t = tx then some (Answer.rollback, none) else none : Option Note).bind Prod.snd
        split <;> rfl
    | _ => rfl
  · cases req <;> rfl

theorem seen_eq (up : Bool) (tx : Uuid) (c : System) :
    seen tx c = ((history up).told tx c.ended).map Prod.fst := by
  unfold seen History.told
  rw [List.map_filterMap]
  exact List.filterMap_congr fun e _ => answerOn_eq tx e

theorem accepted_eq (up : Bool) (tx : Uuid) (c : System) :
    accepted tx c = ids ((history up).told tx c.ended) := by
  unfold accepted ids History.told
  rw [List.filterMap_filterMap]
  exact List.filterMap_congr fun e _ => acceptedBy_eq tx e

theorem commits_iff (up : Bool) (tx : Uuid) (c : System) :
    Commits ((history up).told tx c.ended) ↔ Answer.commit ∈ seen tx c := by
  rw [seen_eq up]
  exact Iff.rfl

variable [Crates] [Texts]

/-- What holds of a transaction whose commit was answered, whoever holds its mutex now. -/
structure Logs (up : Bool) (c : System) : Prop where
  told : (history up).Told c
  kept : ∀ tx, Answer.commit ∈ seen tx c →
    Kept tx up ((history up).told tx c.ended) (gist (c.world.view tx))

theorem logs_step {c c' : System} (hc : Reachable c) (h : Logs up c) (hs : Step c c') :
    Logs up c' := by
  obtain ⟨htold, hfits⟩ :=
    History.told_step lifecycle_obeyed (fun req _ => history_kept req) hc.guarded h.told hs
  refine ⟨htold, fun tx hseen => ?_⟩
  rcases hfits tx with he | hkept
  · -- nothing was said of it, so it was committed before, and has not changed since
    rw [← commits_iff up, he, commits_iff] at hseen
    have hclosed : (c.world.view tx).Closed := .inl ((seen_sublist hc tx).subset hseen)
    rw [he, (Reachable.move hc hs tx).closed hclosed]
    exact h.kept tx hseen
  · exact hkept

theorem reachable_logs {c : System} (hc : Reachable c) : Logs (c.world.up .vector) c := by
  suffices ∃ up, Logs up c by
    obtain ⟨up, h⟩ := this
    exact (show c.world.up .vector = up from h.told.env) ▸ h
  induction hc with
  | @init w hw =>
      refine ⟨w.up .vector, History.told_init rfl fun tx _ => ?_, fun tx h => nomatch h⟩
      refine kept_of_stateless ?_
      show (w.cells tx).state = none
      rw [hw.cells tx]
  | step hc hs ih => exact ih.imp fun up h => logs_step hc h hs

/-- The entry of a committed transaction names the upserts that were accepted for it just when
there were none, or phase 2 could not apply them. -/
theorem logged_write_set_iff {c : System} (hc : Reachable c) {tx : Uuid}
    (h : Answer.commit ∈ seen tx c) :
    (c.world.cells tx).gate = some (accepted tx c) ∧
      ∃ entry, (c.world.cells tx).logged = [entry] ∧ entry.txId = tx ∧
        (entry.writeSet = accepted tx c ↔ accepted tx c = [] ∨ c.world.up .vector = false) := by
  obtain ⟨hgate, entry, hlogged, htx, hwrites⟩ :=
    ((reachable_logs hc).kept tx h).of_commits ((commits_iff _ tx c).mpr h)
  rw [accepted_eq (c.world.up .vector)]
  refine ⟨hgate, entry, hlogged, htx, ?_⟩
  rw [hwrites]
  cases c.world.up .vector with
  | false => exact ⟨fun _ => .inr rfl, fun _ => rfl⟩
  | true =>
      constructor
      · exact fun he => .inl he.symm
      · rintro (he | he)
        · exact he.symm
        · cases he

end Runs

/-! ## Two runs -/

section Witnesses

attribute [local instance] Crates.sample Texts.sample

/-- No transaction yet, and the vector engine is not started. -/
def noVector : World := { up := fun c => c ≠ .vector }

/-- A transaction with one upsert is committed. -/
def oneCommitted (w : World) : System :=
  serial ⟨w, [], []⟩ [.begin ⟨7, 8⟩, .bufferVectorUpsert 1 writeK, .commit 1]

theorem oneCommitted_reachable {w : World} (hw : w.Started) : Reachable (oneCommitted w) :=
  Reachable.later (.init hw) (serial_later _ _)

theorem logged_write_set_iff_noVector :
    ∃ entry, ((oneCommitted noVector).world.cells 1).logged = [entry] ∧ entry.txId = 1 ∧
      entry.writeSet = ["k"] := by
  have haccepted : accepted 1 (oneCommitted noVector) = ["k"] := by decide +kernel
  obtain ⟨-, entry, hlogged, htx, hiff⟩ := logged_write_set_iff
    (oneCommitted_reachable ⟨rfl, fun _ => rfl, rfl⟩)
    (show Answer.commit ∈ seen 1 (oneCommitted noVector) by decide +kernel)
  exact ⟨entry, hlogged, htx, haccepted ▸ hiff.mpr (.inr (by decide +kernel))⟩

/-- With the vector engine started the entry is empty, and the upsert was applied. -/
theorem logged_write_set_empty :
    ¬ ∀ c : System, Reachable c → ∀ tx, Answer.commit ∈ seen tx c →
      (c.world.cells tx).gate = some (accepted tx c) ∧
        ∃ entry, (c.world.cells tx).logged = [entry] ∧ entry.txId = tx ∧
          entry.writeSet = accepted tx c := by
  intro hclaim
  obtain ⟨-, entry, hlogged, -, hwrites⟩ := hclaim (oneCommitted startWorld)
    (oneCommitted_reachable startWorld_started) 1 (by decide +kernel)
  have hempty : ((oneCommitted startWorld).world.cells 1).logged.map
      TransactionLogEntry.writeSet = [[]] := by decide +kernel
  have haccepted : accepted 1 (oneCommitted startWorld) = ["k"] := by decide +kernel
  rw [hlogged, List.map_singleton, hwrites, haccepted] at hempty
  cases hempty

end Witnesses

end ClawDB.Transaction.Log
