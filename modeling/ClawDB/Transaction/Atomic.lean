/-
# `Transaction.Atomic` — is a commit all or nothing?

Phase 2 upserts the buffer one by one and then commits the core transaction; when a step
fails, the rollback discards what is left of the buffer, which is nothing, and undoes no
upsert.  So a commit is all or nothing only while nothing fails after the first upsert was
applied, and every engine with a part in the transaction can be reached: an engine that
cannot is passed over without an error.

`commit_all_or_nothing_iff` is the exact condition, for every pattern of started components
and failing engine calls.  The commit runs alone; other calls cannot reach the transaction
while it holds the mutex.
-/
import ClawDB.Transaction.Phases
import ClawDB.Transaction.System

namespace ClawDB.Transaction

open Effect

/-! ## What the engines hold of a transaction -/

/-- The upserts the vector engine applied, in order. -/
def Cell.applied (c : Cell) : List VectorUpsertOp :=
  c.engine.filterMap fun
    | (.upsert op, true) => some op
    | _ => none

/-- How often the core transaction was committed. -/
def Cell.commits (c : Cell) : Nat :=
  c.engine.countP fun
    | (.executeRawWrite sql, done) => done && sql == "COMMIT"
    | _ => false

/-- What the buffer and the core transaction of `s` demand of a commit that took the cell
from `c` to `c'`. -/
def AllOrNothing (s : TxState) (c c' : Cell) : Except Stop Unit → Prop
  | .ok _ => c'.applied = c.applied ++ s.vectorBuffer ∧
      (s.coreTxBegun = true → c'.commits = c.commits + 1)
  | .error _ => c'.applied = c.applied ∧ c'.commits = c.commits

/-- Operations that neither upsert nor commit. -/
def Op.Aside : Op → Prop
  | .engine _ (.upsert _) => False
  | .engine _ (.executeRawWrite sql) => sql ≠ "COMMIT"
  | _ => True

section Aside

variable {faults : Uuid → Nat → Option String} {tx t : Uuid} {w : World} {α β : Type}

/-- The same upserts and commits. -/
def SameMark (c c' : Cell) : Prop := c'.applied = c.applied ∧ c'.commits = c.commits

theorem sameMark_of_engine {c c' : Cell} (h : c'.engine = c.engine) : SameMark c c' := by
  unfold SameMark Cell.applied Cell.commits
  rw [h]
  exact ⟨rfl, rfl⟩

theorem cells_setCell (w : World) (tx t : Uuid) (c : Cell) :
    (w.setCell tx c).cells t = if t = tx then c else w.cells t := by
  simp only [World.setCell, Function.update_apply]

theorem sameMark_setCell {c : Cell} (h : SameMark (w.cells tx) c) :
    SameMark (w.cells t) ((w.setCell tx c).cells t) := by
  rw [cells_setCell]
  split
  next ht => rw [ht]; exact h
  next => exact ⟨rfl, rfl⟩

theorem sameMark_engine {call : EngineCall} {b : Bool} (h : (Op.engine tx call).Aside) (c : Cell) :
    SameMark c { c with engine := c.engine ++ [(call, b)] } := by
  unfold SameMark Cell.applied Cell.commits
  simp only [List.filterMap_append, List.countP_append]
  cases call with
  | upsert op => exact absurd h id
  | executeRawWrite sql =>
      have hsql : (sql == "COMMIT") = false := beq_eq_false_iff_ne.mpr h
      refine ⟨List.append_nil _, ?_⟩
      simp [hsql]
  | createSnapshot name => exact ⟨List.append_nil _, rfl⟩
  | deleteSnapshot snapId => exact ⟨List.append_nil _, rfl⟩
  | restoreSnapshot snapId => exact ⟨List.append_nil _, rfl⟩

theorem serve_aside (faults : Uuid → Nat → Option String) {o : Op} (h : o.Aside) :
    SameMark (w.cells t) ((serve faults o w).2.cells t) := by
  cases o with
  | engine tx call => exact sameMark_setCell (sameMark_engine h _)
  | insert tx s => exact sameMark_setCell (sameMark_of_engine rfl)
  | remove tx => exact sameMark_setCell (sameMark_of_engine rfl)
  | unlock tx a => exact sameMark_setCell (sameMark_of_engine rfl)
  | store tx s => exact sameMark_setCell (sameMark_of_engine rfl)
  | emit tx reason => exact sameMark_setCell (sameMark_of_engine rfl)
  | hand tx ctx => exact sameMark_setCell (sameMark_of_engine rfl)
  | storeCtx tx ctx => exact sameMark_setCell (sameMark_of_engine rfl)
  | append tx entry =>
      exact sameMark_setCell (c := { w.cells tx with logged := (w.cells tx).logged ++ [entry] })
        (sameMark_of_engine rfl)
  | prepare tx more =>
      simp only [serve]
      split
      · exact ⟨rfl, rfl⟩
      · exact sameMark_setCell (sameMark_of_engine rfl)
  | extendWriteSet tx keys =>
      simp only [serve]
      split <;> exact ⟨rfl, rfl⟩
  | lock tx =>
      simp only [serve]
      split <;> exact ⟨rfl, rfl⟩
  | _ => exact ⟨rfl, rfl⟩

theorem run_aside (faults : Uuid → Nat → Option String) {p : Prog Shared α}
    (h : p.Within Op.Aside) :
    SameMark (w.cells t) ((p.run (serve faults) w).2.cells t) := by
  induction p generalizing w with
  | pure a => exact ⟨rfl, rfl⟩
  | op o k ih =>
      have hstep := serve_aside faults (w := w) (t := t) h.1
      have hrest := ih (serve faults o w).1 (w := (serve faults o w).2) (h.2 _)
      exact ⟨hrest.1.trans hstep.1, hrest.2.trans hstep.2⟩

end Aside

/-! ## Programs that stand aside -/

/-- The program neither upserts nor commits, whatever it is told. -/
def Asides {α : Type} (x : Call α) : Prop := x.run.Within Op.Aside

namespace Asides

variable {α β : Type} {tx : Uuid}

theorem pure (a : α) : Asides (Pure.pure a : Call α) := trivial

theorem perform {o : Op} (h : o.Aside) : Asides (Transaction.perform o) :=
  Try.within_lift ⟨h, fun _ => trivial⟩

theorem bind {x : Call α} {f : α → Call β} (hx : Asides x) (hf : ∀ a, Asides (f a)) :
    Asides (x >>= f) :=
  Try.within_bind hx hf

theorem rules (tx : Uuid) :
    Rules tx (fun _ => True) (fun call => (Op.engine tx call).Aside) Asides where
  pure := pure
  throw _ := trivial
  bind := bind
  lifecycle _ := perform trivial
  engine _ h := perform h
  load hf := bind (perform trivial) fun s => hf s trivial
  store _ _ := perform trivial
  core _ _ _ := trivial
  snapshot _ _ _ := trivial

theorem attempt {x : Call α} (hx : Asides x) : Asides (Transaction.attempt x) := by
  refine Prog.Within.bind hx fun r => ?_
  cases r with
  | ok a => trivial
  | error e => cases e <;> trivial

theorem setStatus (st : TxStatus) : Asides (Transaction.setStatus tx st) :=
  (rules tx).setStatus fun _ _ => trivial

theorem deleteSnapshot : Asides (Transaction.deleteSnapshot tx) :=
  (rules tx).deleteSnapshot fun _ => trivial

theorem doRollback : Asides (Transaction.doRollback tx) :=
  (rules tx).doRollback (by decide : "ROLLBACK" ≠ "COMMIT") (fun _ _ => trivial) fun _ => trivial

theorem abandon [Crates] [Texts] (e : TxError) : Asides (Transaction.abandon tx e) :=
  (setStatus _).bind fun _ => doRollback.attempt.bind fun _ => (setStatus _).bind fun _ =>
    .bind (perform trivial) fun _ => .bind (perform trivial) fun _ =>
      .bind (perform trivial) fun _ => (rules tx).fail _

theorem conclude : Asides (Transaction.conclude tx) :=
  (setStatus _).bind fun _ => .bind (perform trivial) fun _ => .bind (perform trivial) fun _ =>
    .bind (perform trivial) fun _ => .bind (perform trivial) fun _ => perform trivial

end Asides

/-! ## Phase 2 -/

section Phase2

variable {faults : Uuid → Nat → Option String} {tx : Uuid} {α β : Type}

theorem eval_perform (o : Op) (w : World) :
    (perform o).eval (serve faults) w = (.ok (serve faults o w).1, (serve faults o w).2) := rfl

/-- What the `k`-th engine call from now on will fail with. -/
def World.fault (faults : Uuid → Nat → Option String) (w : World) (tx : Uuid) (k : Nat) :
    Option String :=
  faults tx ((w.cells tx).engine.length + k)

/-- The world after an engine call that did, or did not do, what it was asked. -/
def World.called (w : World) (tx : Uuid) (call : EngineCall) (done : Bool) : World :=
  w.setCell tx { w.cells tx with engine := (w.cells tx).engine ++ [(call, done)] }

theorem eval_await_fault {w : World} {call : EngineCall} {e : String}
    (h : w.fault faults tx 0 = some e) :
    (await tx call).eval (serve faults) w = (.ok (.error e), w.called tx call false) := by
  have hf : faults tx (w.cells tx).engine.length = some e := h
  have hs : serve faults (.engine tx call) w = (some (.error e), w.called tx call false) := by
    simp only [serve, hf]
    rfl
  unfold await
  rw [Try.eval_bind_ok (eval_perform _ _), hs]
  rfl

theorem eval_await_ok {w : World} {call : EngineCall} (h : w.fault faults tx 0 = none) :
    (await tx call).eval (serve faults) w = (.ok (.ok call.reply), w.called tx call true) := by
  have hf : faults tx (w.cells tx).engine.length = none := h
  have hs : serve faults (.engine tx call) w = (some (.ok call.reply), w.called tx call true) := by
    simp only [serve, hf]
    rfl
  unfold await
  rw [Try.eval_bind_ok (eval_perform _ _), hs]
  rfl

theorem called_cell (w : World) (call : EngineCall) (b : Bool) :
    (w.called tx call b).cells tx =
      { w.cells tx with engine := (w.cells tx).engine ++ [(call, b)] } := by
  unfold World.called
  rw [cells_setCell, if_pos rfl]

theorem called_fault (w : World) (call : EngineCall) (b : Bool) (k : Nat) :
    (w.called tx call b).fault faults tx k = w.fault faults tx (k + 1) := by
  unfold World.fault
  rw [called_cell, List.length_append]
  congr 1
  simp only [List.length_cons, List.length_nil]
  omega

theorem called_applied (w : World) (op : VectorUpsertOp) :
    ((w.called tx (.upsert op) true).cells tx).applied = (w.cells tx).applied ++ [op] := by
  rw [called_cell]
  unfold Cell.applied
  rw [List.filterMap_append]
  rfl

theorem called_upsert_false (w : World) (op : VectorUpsertOp) :
    SameMark (w.cells tx) ((w.called tx (.upsert op) false).cells tx) := by
  rw [called_cell]
  unfold SameMark Cell.applied Cell.commits
  rw [List.filterMap_append, List.countP_append]
  exact ⟨List.append_nil _, rfl⟩

theorem called_upsert_commits (w : World) (op : VectorUpsertOp) (b : Bool) :
    ((w.called tx (.upsert op) b).cells tx).commits = (w.cells tx).commits := by
  rw [called_cell]
  unfold Cell.commits
  rw [List.countP_append]
  rfl

/-- How far the upserts got: all the way, or up to the first that failed. -/
inductive Upserted (faults : Uuid → Nat → Option String) (tx : Uuid) (ops : List VectorUpsertOp)
    (w w' : World) : Except Stop Unit → Prop where
  | all : (∀ k < ops.length, w.fault faults tx k = none) →
      (w'.cells tx).applied = (w.cells tx).applied ++ ops →
      (∀ k, w'.fault faults tx k = w.fault faults tx (ops.length + k)) →
      Upserted faults tx ops w w' (.ok ())
  | failed {e} (k : Nat) : k < ops.length → (w.fault faults tx k).isSome →
      (∀ i < k, w.fault faults tx i = none) →
      (w'.cells tx).applied = (w.cells tx).applied ++ ops.take k →
      Upserted faults tx ops w w' (.error e)

/-- What the engines are not asked for stays as it is. -/
def Beside (tx : Uuid) (w w' : World) : Prop :=
  w'.up = w.up ∧ (w'.cells tx).state = (w.cells tx).state ∧
    (w'.cells tx).commits = (w.cells tx).commits

theorem eval_upsertEach (faults : Uuid → Nat → Option String) (ops : List VectorUpsertOp)
    (w : World) :
    ∃ r w', (upsertEach tx ops).eval (serve faults) w = (r, w') ∧
      Upserted faults tx ops w w' r ∧ Beside tx w w' := by
  induction ops generalizing w with
  | nil =>
      refine ⟨.ok (), w, rfl, .all (fun k hk => absurd hk (Nat.not_lt_zero k)) ?_ ?_,
        rfl, rfl, rfl⟩
      · exact (List.append_nil _).symm
      · intro k
        rw [List.length_nil, Nat.zero_add]
  | cons op ops ih =>
      cases hf : w.fault faults tx 0 with
      | some e =>
          refine ⟨.error _, w.called tx (.upsert op) false, Try.eval_bind_ok (eval_await_fault hf),
            ?_, ?_⟩
          · refine .failed 0 (Nat.zero_lt_succ _) (by rw [hf]; rfl)
              (fun i hi => absurd hi (Nat.not_lt_zero i)) ?_
            rw [List.take_zero, List.append_nil]
            exact (called_upsert_false w op).1
          · exact ⟨rfl, by rw [called_cell], called_upsert_commits w op false⟩
      | none =>
          obtain ⟨r, w', he, hup, hbeside⟩ := ih (w.called tx (.upsert op) true)
          refine ⟨r, w', (Try.eval_bind_ok (eval_await_ok hf)).trans he, ?_, ?_⟩
          · cases hup with
            | all hall happ hshift =>
                refine .all ?_ ?_ ?_
                · intro k hk
                  cases k with
                  | zero => exact hf
                  | succ k => rw [← called_fault]; exact hall k (Nat.lt_of_succ_lt_succ hk)
                · rw [happ, called_applied, List.append_assoc]
                  rfl
                · intro k
                  rw [hshift, called_fault, List.length_cons]
                  congr 1
                  omega
            | failed k hk hfault hbefore happ =>
                refine .failed (k + 1) (Nat.succ_lt_succ hk) ?_ ?_ ?_
                · rw [← called_fault]; exact hfault
                · intro i hi
                  cases i with
                  | zero => exact hf
                  | succ i => rw [← called_fault]; exact hbefore i (Nat.lt_of_succ_lt_succ hi)
                · rw [happ, called_applied, List.append_assoc, List.take_succ_cons]
                  rfl
          · refine ⟨hbeside.1, hbeside.2.1.trans (by rw [called_cell]), ?_⟩
            exact hbeside.2.2.trans (called_upsert_commits w op true)

theorem eval_load {w : World} {s : TxState} (hs : (w.cells tx).state = some s) :
    (load tx).eval (serve faults) w = (.ok s, w) := by
  show (Except.ok ((w.cells tx).state.getD _), w) = _
  rw [hs]
  rfl

theorem eval_lifecycle (c : Component) (w : World) :
    (lifecycle c).eval (serve faults) w = (.ok (w.up c), w) := rfl

/-- The world after the state behind the mutex was written. -/
def World.stored (w : World) (tx : Uuid) (s : TxState) : World :=
  w.setCell tx { w.cells tx with state := some s }

theorem eval_store (w : World) (s : TxState) :
    (store tx s).eval (serve faults) w = (.ok (), w.stored tx s) := rfl

theorem stored_cell (w : World) (s : TxState) :
    (w.stored tx s).cells tx = { w.cells tx with state := some s } := by
  unfold World.stored
  rw [cells_setCell, if_pos rfl]

theorem stored_fault (w : World) (s : TxState) (k : Nat) :
    (w.stored tx s).fault faults tx k = w.fault faults tx k := by
  unfold World.fault
  rw [stored_cell]

theorem stored_same (tx : Uuid) (w : World) (s : TxState) :
    SameMark (w.cells tx) ((w.stored tx s).cells tx) := by
  rw [stored_cell]
  exact sameMark_of_engine rfl

/-- What came of the buffer `ops`: it was upserted, or passed over. -/
inductive Applied (faults : Uuid → Nat → Option String) (tx : Uuid) (ops : List VectorUpsertOp)
    (w w' : World) (r : Except Stop Unit) : Prop where
  | idle : (ops = [] ∨ w.up .vector = false) → w' = w → r = .ok () → Applied faults tx ops w w' r
  | reached : ops ≠ [] → w.up .vector = true → Upserted faults tx ops w w' r →
      Applied faults tx ops w w' r

theorem Upserted.of_stored {ops : List VectorUpsertOp} {w w' : World} {s : TxState}
    {r : Except Stop Unit} (h : Upserted faults tx ops (w.stored tx s) w' r) :
    Upserted faults tx ops w w' r := by
  have happ : ((w.stored tx s).cells tx).applied = (w.cells tx).applied := (stored_same tx w s).1
  cases h with
  | all hall h hshift =>
      rw [happ] at h
      simp only [stored_fault] at hall hshift
      exact .all hall h hshift
  | failed k hk hfault hbefore h =>
      rw [happ] at h
      simp only [stored_fault] at hfault hbefore
      exact .failed k hk hfault hbefore h

theorem eval_applyUpserts (faults : Uuid → Nat → Option String) {w : World} {s : TxState}
    (hs : (w.cells tx).state = some s) :
    ∃ r w', (applyUpserts tx).eval (serve faults) w = (r, w') ∧
      Applied faults tx s.vectorBuffer w w' r ∧ w'.up = w.up ∧
      (∃ s', (w'.cells tx).state = some s' ∧ s'.coreTxBegun = s.coreTxBegun) ∧
      (w'.cells tx).commits = (w.cells tx).commits := by
  unfold applyUpserts
  rw [Try.eval_bind_ok (eval_load hs)]
  by_cases hb : s.vectorBuffer = []
  · rw [if_pos (List.isEmpty_iff.mpr hb)]
    exact ⟨.ok (), w, rfl, .idle (.inl hb) rfl rfl, rfl, ⟨s, hs, rfl⟩, rfl⟩
  · rw [if_neg (mt List.isEmpty_iff.mp hb), Try.eval_bind_ok (eval_lifecycle _ _)]
    cases hv : w.up .vector with
    | false => exact ⟨.ok (), w, rfl, .idle (.inr hv) rfl rfl, rfl, ⟨s, hs, rfl⟩, rfl⟩
    | true =>
        obtain ⟨r, w', he, hup, hbeside⟩ := eval_upsertEach faults s.vectorBuffer
          (w.stored tx { s with vectorBuffer := [] })
        refine ⟨r, w', (Try.eval_bind_ok (eval_store w _)).trans he, .reached hb hv hup.of_stored,
          hbeside.1, ⟨{ s with vectorBuffer := [] }, ?_, rfl⟩, ?_⟩
        · rw [hbeside.2.1, stored_cell]
        · rw [hbeside.2.2]
          exact (stored_same tx w _).2

/-- What came of the core transaction. -/
inductive Cored (faults : Uuid → Nat → Option String) (tx : Uuid) (begun : Bool) (w w' : World) :
    Except Stop Unit → Prop where
  | idle : ¬(begun = true ∧ w.up .core = true) → SameMark (w.cells tx) (w'.cells tx) →
      Cored faults tx begun w w' (.ok ())
  | failed {e} : begun = true → w.up .core = true → (w.fault faults tx 0).isSome →
      SameMark (w.cells tx) (w'.cells tx) → Cored faults tx begun w w' (.error e)
  | committed : begun = true → w.up .core = true → w.fault faults tx 0 = none →
      (w'.cells tx).applied = (w.cells tx).applied →
      (w'.cells tx).commits = (w.cells tx).commits + 1 → Cored faults tx begun w w' (.ok ())

theorem called_commit (tx : Uuid) (w : World) (b : Bool) :
    ((w.called tx (.executeRawWrite "COMMIT") b).cells tx).applied = (w.cells tx).applied ∧
      ((w.called tx (.executeRawWrite "COMMIT") b).cells tx).commits =
        (w.cells tx).commits + b.toNat := by
  rw [called_cell]
  unfold Cell.applied Cell.commits
  rw [List.filterMap_append, List.countP_append]
  refine ⟨List.append_nil _, ?_⟩
  cases b <;> rfl

theorem eval_commitCore (faults : Uuid → Nat → Option String) {w : World} {s : TxState}
    (hs : (w.cells tx).state = some s) :
    ∃ r w', (commitCore tx).eval (serve faults) w = (r, w') ∧
      Cored faults tx s.coreTxBegun w w' r := by
  unfold commitCore
  rw [Try.eval_bind_ok (eval_load hs)]
  cases hbegun : s.coreTxBegun with
  | false => exact ⟨.ok (), w, rfl, .idle (fun h => nomatch h.1) ⟨rfl, rfl⟩⟩
  | true =>
      rw [if_pos rfl, Try.eval_bind_ok (eval_lifecycle _ _)]
      cases hc : w.up .core with
      | false =>
          refine ⟨.ok (), w, rfl, .idle (fun h => ?_) ⟨rfl, rfl⟩⟩
          rw [hc] at h
          exact nomatch h.2
      | true =>
          rw [if_pos rfl]
          cases hf : w.fault faults tx 0 with
          | some e =>
              refine ⟨.error _, _, Try.eval_bind_ok (eval_await_fault hf),
                .failed rfl hc (by rw [hf]; rfl) (called_commit tx w false)⟩
          | none =>
              have hcalled := called_commit tx w true
              have hkept := stored_same tx
                (w.called tx (.executeRawWrite "COMMIT") true) { s with coreTxBegun := false }
              exact ⟨.ok (), _, Try.eval_bind_ok (eval_await_ok hf),
                .committed rfl hc hf (hkept.1.trans hcalled.1) (hkept.2.trans hcalled.2)⟩

theorem eval_deleteSnapshot (faults : Uuid → Nat → Option String) (tx : Uuid) (w : World) :
    ∃ w', (deleteSnapshot tx).eval (serve faults) w = (.ok (), w') := by
  obtain ⟨s, hload⟩ : ∃ s, (load tx).eval (serve faults) w = (.ok s, w) := ⟨_, rfl⟩
  unfold deleteSnapshot
  rw [Try.eval_bind_ok hload]
  cases hsnap : s.branchSnapshotId with
  | none => exact ⟨w, rfl⟩
  | some snapId =>
      show ∃ w', Try.eval _ (store tx _ >>= _) w = _
      rw [Try.eval_bind_ok (eval_store w _), Try.eval_bind_ok (eval_lifecycle _ _)]
      split
      · cases hf : (w.stored tx { s with branchSnapshotId := none }).fault faults tx 0 with
        | some e => exact ⟨_, Try.eval_bind_ok (eval_await_fault hf)⟩
        | none => exact ⟨_, Try.eval_bind_ok (eval_await_ok hf)⟩
      · exact ⟨_, rfl⟩

theorem eval_sameMark {α : Type} {x : Call α} (h : Asides x) {w w' : World} {r : Except Stop α}
    (he : x.eval (serve faults) w = (r, w')) : SameMark (w.cells tx) (w'.cells tx) := by
  have hrun := run_aside faults (w := w) (t := tx) h
  have hw' : w' = (x.eval (serve faults) w).2 := by rw [he]
  rw [hw']
  exact hrun

/-- The pattern of started components and failing engine calls under which a commit with the
state `s` is all or nothing: `k` counts the engine calls of phase 2. -/
def Intact (faults : Uuid → Nat → Option String) (w : World) (tx : Uuid) (s : TxState) : Prop :=
  if s.vectorBuffer = [] then
    s.coreTxBegun = true → w.up .core = true
  else if w.up .vector = true then
    (w.fault faults tx 0).isSome ∨
      (∀ k < s.vectorBuffer.length, w.fault faults tx k = none) ∧
        (s.coreTxBegun = true →
          w.up .core = true ∧ w.fault faults tx s.vectorBuffer.length = none)
  else
    s.coreTxBegun = true ∧ w.up .core = true ∧ (w.fault faults tx 0).isSome

theorem allOrNothing_congr {s : TxState} {c c' c₁ c₁' : Cell} {r r' : Except Stop Unit}
    (h : SameMark c c₁) (h' : SameMark c' c₁') (hr : r.isOk = r'.isOk) :
    AllOrNothing s c c' r ↔ AllOrNothing s c₁ c₁' r' := by
  obtain ⟨happ, hcom⟩ := h
  obtain ⟨happ', hcom'⟩ := h'
  cases r with
  | ok u =>
      cases r' with
      | ok u' =>
          show _ ∧ _ ↔ _ ∧ _
          rw [happ, hcom, happ', hcom']
      | error e' => exact absurd hr.symm Bool.false_ne_true
  | error e =>
      cases r' with
      | ok u' => exact absurd hr Bool.false_ne_true
      | error e' =>
          show _ ∧ _ ↔ _ ∧ _
          rw [happ, hcom, happ', hcom']

/-- Nothing the core commit does brings a lost upsert back, or takes one away. -/
theorem allOrNothing_cored {s : TxState} {c : Cell} {w w' : World} {r : Except Stop Unit}
    (hcom : (w.cells tx).commits = c.commits) (h : Cored faults tx s.coreTxBegun w w' r) :
    AllOrNothing s c (w'.cells tx) r ↔
      if s.coreTxBegun = true then
        w.up .core = true ∧
          (if (w.fault faults tx 0).isSome then (w.cells tx).applied = c.applied
            else (w.cells tx).applied = c.applied ++ s.vectorBuffer)
      else (w.cells tx).applied = c.applied ++ s.vectorBuffer := by
  cases h with
  | idle hidle hsame =>
      show _ ∧ _ ↔ _
      rw [hsame.1, hsame.2, hcom]
      split
      next hb =>
        constructor
        · rintro ⟨-, h⟩
          exact absurd (h hb) (by omega)
        · rintro ⟨hc, -⟩
          exact absurd ⟨hb, hc⟩ hidle
      next hb => exact and_iff_left (fun h => absurd h hb)
  | failed hb hc hf hsame =>
      show _ ∧ _ ↔ _
      rw [hsame.1, hsame.2, hcom, if_pos hb, if_pos hf]
      exact ⟨fun h => ⟨hc, h.1⟩, fun h => ⟨h.2, rfl⟩⟩
  | committed hb hc hf happ hcom' =>
      show _ ∧ _ ↔ _
      rw [happ, hcom', hcom, if_pos hb, hf, if_neg (by decide)]
      exact ⟨fun h => ⟨hc, h.1⟩, fun h => ⟨h.2, fun _ => rfl⟩⟩

/-- Phase 2 ends with the upsert that failed: it is none only if that was the first. -/
theorem intact_failed {s : TxState} {w w₁ : World} {e : Stop}
    (hcom : (w₁.cells tx).commits = (w.cells tx).commits)
    (h : Applied faults tx s.vectorBuffer w w₁ (.error e)) :
    AllOrNothing s (w.cells tx) (w₁.cells tx) (.error e) ↔ Intact faults w tx s := by
  cases h with
  | idle _ _ hr => exact nomatch hr
  | reached hb hv hupserted =>
      cases hupserted with
      | failed k hk hfault hbefore happ =>
          unfold Intact AllOrNothing
          rw [if_neg hb, if_pos hv, happ]
          constructor
          · rintro ⟨h, -⟩
            left
            rw [List.append_right_eq_self, List.take_eq_nil_iff] at h
            obtain rfl := h.resolve_right hb
            exact hfault
          · rintro (h | ⟨h, -⟩)
            · cases k with
              | zero => exact ⟨by rw [List.take_zero, List.append_nil], hcom⟩
              | succ k =>
                  rw [hbefore 0 (Nat.zero_lt_succ k)] at h
                  exact nomatch h
            · rw [h k hk] at hfault
              exact nomatch hfault

/-- Once the buffer is through, the core transaction decides. -/
theorem intact_cored {s : TxState} {w w₁ w₂ : World} {r : Except Stop Unit}
    (hup : w₁.up = w.up) (hcom : (w₁.cells tx).commits = (w.cells tx).commits)
    (happlied : Applied faults tx s.vectorBuffer w w₁ (.ok ()))
    (hcored : Cored faults tx s.coreTxBegun w₁ w₂ r) :
    AllOrNothing s (w.cells tx) (w₂.cells tx) r ↔ Intact faults w tx s := by
  rw [allOrNothing_cored hcom hcored, hup]
  unfold Intact
  cases happlied with
  | idle hidle hw hr =>
      subst hw
      by_cases hb : s.vectorBuffer = []
      · simp [hb]
      · have hv : w₁.up .vector = false := hidle.resolve_left hb
        simp [hb, hv]
  | reached hb hv hupserted =>
      cases hupserted with
      | all hall happ hshift =>
          rw [if_neg hb, if_pos hv, happ, hshift, Nat.add_zero]
          have hfirst : w.fault faults tx 0 = none := hall 0 (List.length_pos_of_ne_nil hb)
          simp only [hfirst, Option.isSome_none, Bool.false_eq_true, false_or,
            List.append_right_eq_self, hb, Option.isSome_iff_ne_none]
          rw [and_iff_right hall]
          cases s.coreTxBegun with
          | false => simp
          | true => cases w.fault faults tx s.vectorBuffer.length <;> simp

theorem eval_applyPhase2 (faults : Uuid → Nat → Option String) (tx : Uuid) {w : World} {s : TxState}
    (hs : (w.cells tx).state = some s) :
    ∃ r w', (applyPhase2 tx).eval (serve faults) w = (r, w') ∧
      (AllOrNothing s (w.cells tx) (w'.cells tx) r ↔ Intact faults w tx s) := by
  obtain ⟨r₁, w₁, he₁, happlied, hup, ⟨s₁, hs₁, hbegun⟩, hcom⟩ :=
    eval_applyUpserts faults hs
  cases r₁ with
  | error e => exact ⟨.error e, w₁, Try.eval_bind_error he₁, intact_failed hcom happlied⟩
  | ok u =>
      obtain ⟨r₂, w₂, he₂, hcored⟩ := eval_commitCore faults hs₁
      rw [hbegun] at hcored
      have hintact := intact_cored hup hcom happlied hcored
      cases r₂ with
      | error e =>
          exact ⟨.error e, w₂, (Try.eval_bind_ok he₁).trans (Try.eval_bind_error he₂), hintact⟩
      | ok u =>
          obtain ⟨w₃, he₃⟩ := eval_deleteSnapshot faults tx w₂
          refine ⟨.ok (), w₃, ?_, ?_⟩
          · exact (Try.eval_bind_ok he₁).trans ((Try.eval_bind_ok he₂).trans he₃)
          · rw [← hintact]
            exact (allOrNothing_congr ⟨rfl, rfl⟩ (eval_sameMark Asides.deleteSnapshot he₃)
              rfl).symm

end Phase2

/-! ## The whole commit -/

section Commit

variable {faults : Uuid → Nat → Option String} {tx : Uuid}

/-- The fallible program never returns. -/
def Fails (faults : Uuid → Nat → Option String) {α : Type} (x : Call α) : Prop :=
  ∀ w, ∃ e w', x.eval (serve faults) w = (.error e, w')

theorem Fails.after {α β : Type} {x : Call α} {f : α → Call β}
    (h : ∀ a, Fails faults (f a)) : Fails faults (x >>= f) := by
  intro w
  cases hx : x.eval (serve faults) w with
  | mk r w' =>
      cases r with
      | error e => exact ⟨e, w', Try.eval_bind_error hx⟩
      | ok a =>
          obtain ⟨e, w'', hf⟩ := h a w'
          exact ⟨e, w'', (Try.eval_bind_ok hx).trans hf⟩

/-- What inspecting a result makes of it. -/
def inspected {α : Type} : Except Stop α → Except Stop (Except TxError α)
  | .ok a => .ok (.ok a)
  | .error (.failed e) => .ok (.error e)
  | .error .dropped => .error .dropped

theorem eval_attempt {α : Type} {x : Call α} {w w' : World} {r : Except Stop α}
    (he : x.eval (serve faults) w = (r, w')) :
    (attempt x).eval (serve faults) w = (inspected r, w') := by
  have hrun : Prog.run (serve faults) x.run w = (r, w') := he
  show Prog.run _ (x.run >>= _) w = _
  rw [Prog.run_bind, hrun]
  cases r with
  | ok a => rfl
  | error e => cases e <;> rfl

theorem eval_conclude (faults : Uuid → Nat → Option String) (tx : Uuid) (w : World) :
    ∃ w', (conclude tx).eval (serve faults) w = (.ok (), w') := ⟨_, rfl⟩

theorem eval_checkDimensions (ops : List VectorUpsertOp) (w : World) :
    (checkDimensions tx 0 ops).eval (serve faults) w = (.ok (), w) := by
  induction ops with
  | nil => rfl
  | cons op ops ih =>
      unfold checkDimensions
      cases op.dimensions with
      | none => exact ih
      | some dims => exact ih

/-- Phase 1 lets the transaction through. -/
def Passes (w : World) (tx : Uuid) : Prop := ∀ e ∈ w.coordinator.entries, ¬w.Conflicts tx [] e

theorem eval_prepare (faults : Uuid → Nat → Option String) (tx : Uuid) (w : World) :
    (¬Passes w tx ∧ ∃ e, (prepare tx []).eval (serve faults) w = (.ok (.error e), w)) ∨
    (Passes w tx ∧ (prepare tx []).eval (serve faults) w = (.ok (.ok ()),
      w.setCell tx { w.cells tx with gate := some (w.writes tx ++ []) })) := by
  show (_ ∧ ∃ e, (Except.ok (serve faults (.prepare tx []) w).1, _) = _) ∨
    (_ ∧ (Except.ok (serve faults (.prepare tx []) w).1, _) = _)
  simp only [serve]
  cases hf : w.coordinator.entries.find? fun e => w.Conflicts tx [] e with
  | some e =>
      refine .inl ⟨fun h => ?_, _, rfl⟩
      have hconflict := List.find?_some hf
      exact h e (List.mem_of_find?_eq_some hf) (of_decide_eq_true hconflict)
  | none =>
      refine .inr ⟨fun e he hc => ?_, rfl⟩
      exact List.find?_eq_none.mp hf e he (decide_eq_true hc)

theorem intact_congr {w w' : World} {s : TxState} (hup : w'.up = w.up)
    (hengine : (w'.cells tx).engine = (w.cells tx).engine) :
    Intact faults w' tx s ↔ Intact faults w tx s := by
  unfold Intact World.fault
  rw [hup, hengine]

theorem eval_getHandle {w : World} (hlisted : (w.cells tx).listed = true) :
    (getHandle tx).eval (serve faults) w = (.ok (), w) := by
  have hfound : (get tx).eval (serve faults) w = (.ok (w.cells tx).listed, w) := rfl
  unfold getHandle
  rw [Try.eval_bind_ok hfound, if_pos hlisted]
  rfl

/-- Where the mutex is free, what runs under the guard runs and the guard is given back. -/
theorem eval_withGuard (answer : Option Answer) {x : Call Unit} {w w' : World}
    {r : Except Stop Unit} (hids : tx ∈ w.ids) (hfree : w.unlocked tx = true)
    (he : x.eval (serve faults) (w.setFree tx false) = (r, w')) :
    (withGuard tx answer x).eval (serve faults) w =
      (r, (serve faults (.unlock tx (Answer.given answer r)) w').2) := by
  have hlock : Prog.run (serve faults) (Prog.perform (F := Shared) (.lock tx)) w =
      (true, w.setFree tx false) := by
    show serve faults (.lock tx) w = _
    simp only [serve]
    exact if_pos ⟨hids, hfree⟩
  have hrun : Prog.run (serve faults) x.run (w.setFree tx false) = (r, w') := he
  show Prog.run _ (Prog.perform (F := Shared) (.lock tx) >>= _) w = _
  rw [Prog.run_bind, hlock]
  show Prog.run _ (x.run >>= _) (w.setFree tx false) = _
  rw [Prog.run_bind, hrun]
  rfl

variable [Crates] [Texts]

theorem fails_abandon (faults : Uuid → Nat → Option String) (tx : Uuid) (e : TxError) :
    Fails faults (abandon tx e) :=
  .after fun _ => .after fun _ => .after fun _ => .after fun _ => .after fun _ =>
    .after fun _ w => ⟨_, w, rfl⟩

/-- What follows phase 2 returns what phase 2 returned, and undoes and redoes nothing. -/
theorem eval_afterPhase2 {w w' : World} {r : Except Stop Unit}
    (he : (applyPhase2 tx).eval (serve faults) w = (r, w')) :
    ∃ r' w'', (attempt (applyPhase2 tx) >>= fun
        | .error e => abandon tx e
        | .ok _ => conclude tx).eval (serve faults) w = (r', w'') ∧
      r'.isOk = r.isOk ∧ SameMark (w'.cells tx) (w''.cells tx) := by
  cases r with
  | ok u =>
      obtain ⟨w'', hc⟩ := eval_conclude faults tx w'
      exact ⟨.ok (), w'', (Try.eval_bind_ok (eval_attempt he)).trans hc, rfl,
        eval_sameMark Asides.conclude hc⟩
  | error e =>
      cases e with
      | dropped => exact ⟨_, w', Try.eval_bind_error (eval_attempt he), rfl, rfl, rfl⟩
      | failed e =>
          obtain ⟨e', w'', ha⟩ := fails_abandon faults tx e w'
          exact ⟨_, w'', (Try.eval_bind_ok (eval_attempt he)).trans ha, rfl,
            eval_sameMark (Asides.abandon e) ha⟩

theorem eval_commitLocked (faults : Uuid → Nat → Option String) (tx : Uuid) {w : World}
    {s : TxState} (hs : (w.cells tx).state = some s)
    (hactive : s.status = .active) :
    ∃ r w', (commitLocked tx).eval (serve faults) w = (r, w') ∧
      (AllOrNothing s (w.cells tx) (w'.cells tx) r ↔ (Passes w tx → Intact faults w tx s)) := by
  unfold commitLocked
  rw [Try.eval_bind_ok (eval_load hs), if_neg (not_not.mpr hactive)]
  rcases eval_prepare faults tx w with ⟨hfails, e, hprepare⟩ | ⟨hpasses, hprepare⟩
  · rw [Try.eval_bind_ok hprepare]
    exact ⟨_, w, rfl, fun _ h => absurd h hfails, fun _ => ⟨rfl, rfl⟩⟩
  · rw [Try.eval_bind_ok hprepare]
    generalize hw₁ : w.setCell tx { w.cells tx with gate := some (w.writes tx ++ []) } = w₁
    have hcell₁ : w₁.cells tx = { w.cells tx with gate := some (w.writes tx ++ []) } := by
      rw [← hw₁, cells_setCell, if_pos rfl]
    have hs₁ : (w₁.cells tx).state = some s := by rw [hcell₁]; exact hs
    have hstatus : (setStatus tx .committing).eval (serve faults) w₁ =
        (.ok (), w₁.stored tx { s with status := .committing }) :=
      (Try.eval_bind_ok (eval_load hs₁)).trans (eval_store _ _)
    obtain ⟨r, w₂, hphase2, hiff⟩ := eval_applyPhase2 faults tx
      (w := w₁.stored tx { s with status := .committing }) (by rw [stored_cell])
    obtain ⟨r', w', hrest, hok, hsame⟩ := eval_afterPhase2 hphase2
    refine ⟨r', w', ?_, ?_⟩
    · show Try.eval _ (lifecycle .core >>= _) w₁ = _
      rw [Try.eval_bind_ok (eval_lifecycle _ _)]
      show Try.eval _ (checkDimensions tx (if w₁.up .core = true then 0 else 0) _ >>= _) w₁ = _
      rw [ite_self, Try.eval_bind_ok (eval_checkDimensions _ _), Try.eval_bind_ok hstatus]
      exact hrest
    · have hup : (w₁.stored tx { s with status := .committing }).up = w.up := by
        rw [← hw₁]
        rfl
      have hengine : ((w₁.stored tx { s with status := .committing }).cells tx).engine =
          (w.cells tx).engine := by
        rw [stored_cell, hcell₁]
      have hmark := sameMark_of_engine hengine.symm
      calc AllOrNothing s (w.cells tx) (w'.cells tx) r'
          ↔ AllOrNothing s ((w₁.stored tx { s with status := .committing }).cells tx)
              (w₂.cells tx) r := (allOrNothing_congr hmark hsame hok.symm).symm
        _ ↔ Intact faults (w₁.stored tx { s with status := .committing }) tx s := hiff
        _ ↔ Intact faults w tx s := intact_congr hup hengine
        _ ↔ (Passes w tx → Intact faults w tx s) := ⟨fun h _ => h, fun h => h hpasses⟩

/-- A commit of an active transaction that phase 1 lets through is all or nothing exactly
under the patterns of `Intact`. -/
theorem commit_all_or_nothing_iff (faults : Uuid → Nat → Option String) (w : World) (tx : Uuid)
    (s : TxState) (hlisted : (w.cells tx).listed = true) (hids : tx ∈ w.ids)
    (hfree : w.unlocked tx = true) (hs : (w.cells tx).state = some s)
    (hactive : s.status = .active) :
    AllOrNothing s (w.cells tx) (((commit tx).eval (serve faults) w).2.cells tx)
        ((commit tx).eval (serve faults) w).1 ↔
      (Passes w tx → Intact faults w tx s) := by
  obtain ⟨r, w₁, hlocked, hiff⟩ := eval_commitLocked faults tx
    (w := w.setFree tx false) hs hactive
  have he : (commit tx).eval (serve faults) w =
      (r, (serve faults (.unlock tx (Answer.given (some .commit) r)) w₁).2) :=
    (Try.eval_bind_ok (eval_getHandle hlisted)).trans (eval_withGuard _ hids hfree hlocked)
  have hsame := serve_aside faults (t := tx) (w := w₁)
    (o := .unlock tx (Answer.given (some .commit) r)) trivial
  rw [he]
  exact (allOrNothing_congr ⟨rfl, rfl⟩ hsame rfl).symm.trans hiff

end Commit

/-! ## Two commits -/

section Witnesses

attribute [local instance] Crates.sample Texts.sample

def upsertOf (id : String) : VectorUpsertOp := ⟨"memories", id, "text", .null, none⟩

/-- Transaction 1 is begun and has two upserts in its buffer. -/
def twoBuffered (faults : Uuid → Nat → Option String) : World :=
  ((do
    let tx ← begin ⟨7, 8⟩
    bufferVectorUpsert tx (upsertOf "a")
    bufferVectorUpsert tx (upsertOf "b") : Call Unit).eval (serve faults) { up := fun _ => true }).2

/-- The state of transaction 1 then. -/
def twoPending : TxState where
  id := 1
  sessionId := 7
  agentId := 8
  startedAt := (0 : Int)
  status := .active
  coreTxBegun := true
  vectorBuffer := [upsertOf "a", upsertOf "b"]
  branchSnapshotId := some 0

theorem commit_all_or_nothing_two :
    AllOrNothing twoPending ((twoBuffered fun _ _ => none).cells 1)
      (((commit 1).eval (serve fun _ _ => none) (twoBuffered fun _ _ => none)).2.cells 1)
      ((commit 1).eval (serve fun _ _ => none) (twoBuffered fun _ _ => none)).1 := by
  have hiff := commit_all_or_nothing_iff (fun _ _ => none) (twoBuffered fun _ _ => none) 1
    twoPending (by decide +kernel) (by decide +kernel)
    (by decide +kernel) rfl rfl
  refine hiff.mpr fun _ => ?_
  exact .inr ⟨fun _ _ => rfl, fun _ => ⟨rfl, rfl⟩⟩

/-- The fourth engine call, the upsert of the second operation, fails. -/
def secondFails : Uuid → Nat → Option String
  | _, 3 => some "timeout"
  | _, _ => none

/-- The commit fails at the second upsert, and the first stays. -/
theorem first_upsert_stays :
    ¬ ∀ faults (w : World) tx s, (w.cells tx).listed = true → tx ∈ w.ids →
      w.unlocked tx = true → (w.cells tx).state = some s → s.status = .active →
        AllOrNothing s (w.cells tx) (((commit tx).eval (serve faults) w).2.cells tx)
          ((commit tx).eval (serve faults) w).1 := by
  intro hclaim
  have h := hclaim secondFails (twoBuffered secondFails) 1 twoPending (by decide +kernel)
    (by decide +kernel) (by decide +kernel) rfl rfl
  have happlied : (((commit 1).eval (serve secondFails) (twoBuffered secondFails)).2.cells
      1).applied = [] := h.1
  have hids := congrArg (List.map VectorUpsertOp.id) happlied
  exact absurd hids (by decide +kernel)

end Witnesses

end ClawDB.Transaction
