/-
# `Transaction.Retry` — a rollback that is tried again

`do_rollback` takes the snapshot id out of the state and then asks the branch engine to restore
it.  When the engine fails, the call returns the error and leaves the transaction in the
`active` map, rolling back, with no snapshot id; the next rollback finds nothing to restore,
and returns `Ok`.

`rollbacks_restore_iff` says for which failures of the engines and which sequences of rollback
calls this does not happen.  The calls are made one after another, on any transactions; a pass
of `timeout_stale` is such a sequence.
-/
import ClawDB.Transaction.Atomic

namespace ClawDB.Transaction

open Effect

variable {faults : Uuid → Nat → Option String} {tx t : Uuid} {α β : Type}

/-! ## Calls in sequence -/

/-- The world after a rollback of `t`. -/
def afterRollback (faults : Uuid → Nat → Option String) (w : World) (t : Uuid) : World :=
  ((rollback t).eval (serve faults) w).2

/-- The world after rollback calls, one after another. -/
def afterRollbacks (faults : Uuid → Nat → Option String) (w : World) (calls : List Uuid) : World :=
  calls.foldl (afterRollback faults) w

/-- Between `w` and `w'` the branch engine restored the snapshot for `tx`. -/
def Restored (tx snap : Uuid) (w w' : World) : Prop :=
  ∃ l, (w'.cells tx).engine = (w.cells tx).engine ++ l ∧ (.restoreSnapshot snap, true) ∈ l

/-- A rollback of `tx` among the calls that returns `Ok` has the snapshot restored by then. -/
def NeverInVain (faults : Uuid → Nat → Option String) (w : World) (tx snap : Uuid)
    (calls : List Uuid) : Prop :=
  ∀ before after, calls = before ++ tx :: after →
    ((rollback tx).eval (serve faults) (afterRollbacks faults w before)).1 = .ok () →
      Restored tx snap w (afterRollbacks faults w (before ++ [tx]))

/-- A transaction that can be rolled back: it is in the `active` map, with its mutex free. -/
structure Open (tx : Uuid) (s : TxState) (w : World) : Prop where
  drawn : tx ∈ w.ids
  free : w.unlocked tx = true
  listed : (w.cells tx).listed = true
  state : (w.cells tx).state = some s
  status : ¬(s.status = .committed ∨ s.status = .rolledBack)

/-- It has a snapshot, which the branch engine was up to take. -/
structure Snapshotted (tx : Uuid) (s : TxState) (snap : Uuid) (w : World) : Prop
    extends Open tx s w where
  snapshot : s.branchSnapshotId = some snap
  up : w.up .branch = true

/-- How many engine calls a rollback makes before the restore. -/
def TxState.beforeRestore (s : TxState) (w : World) : Nat :=
  if s.coreTxBegun = true ∧ w.up .core = true then 1 else 0

/-! ## Rollbacks of other transactions -/

/-- An operation a rollback of `t` performs. -/
def Op.Of (t : Uuid) : Op → Prop
  | .get t' | .lock t' | .unlock t' _ | .load t' | .store t' _ | .remove t' | .deregister t'
  | .engine t' _ => t' = t
  | .component _ => True
  | _ => False

/-- What concerns a rollback of `tx` is as it was. -/
structure Untouched (tx : Uuid) (w w' : World) : Prop where
  cell : w'.cells tx = w.cells tx
  unlocked : w'.unlocked tx = w.unlocked tx
  ids : w'.ids = w.ids
  up : w'.up = w.up

theorem Untouched.refl (tx : Uuid) (w : World) : Untouched tx w w := ⟨rfl, rfl, rfl, rfl⟩

theorem Untouched.trans {w w' w'' : World} (h : Untouched tx w w') (h' : Untouched tx w' w'') :
    Untouched tx w w'' :=
  ⟨h'.cell.trans h.cell, h'.unlocked.trans h.unlocked, h'.ids.trans h.ids, h'.up.trans h.up⟩

theorem untouched_setCell (w : World) (c : Cell) (hne : tx ≠ t) :
    Untouched tx w (w.setCell t c) :=
  ⟨(cells_setCell w t tx c).trans (if_neg hne), rfl, rfl, rfl⟩

theorem untouched_setFree (w : World) (b : Bool) (hne : tx ≠ t) :
    Untouched tx w (w.setFree t b) := by
  refine ⟨rfl, ?_, rfl, rfl⟩
  show Function.update w.unlocked t b tx = _
  rw [Function.update_of_ne hne]

theorem serve_of (faults : Uuid → Nat → Option String) {o : Op} (h : o.Of t) (hne : tx ≠ t)
    (w : World) : Untouched tx w (serve faults o w).2 := by
  cases o with
  | get t' => exact .refl tx w
  | load t' => exact .refl tx w
  | component c => exact .refl tx w
  | lock t' =>
      obtain rfl : t' = t := h
      simp only [serve]
      split
      · exact untouched_setFree w false hne
      · exact .refl tx w
  | unlock t' a =>
      obtain rfl : t' = t := h
      exact (untouched_setCell w _ hne).trans (untouched_setFree _ true hne)
  | deregister t' => exact ⟨rfl, rfl, rfl, rfl⟩
  | store t' _ | remove t' | engine t' _ =>
      obtain rfl : t' = t := h
      exact untouched_setCell w _ hne
  | _ => exact absurd h id

theorem run_of (faults : Uuid → Nat → Option String) {p : Prog Shared α}
    (h : p.Within (Op.Of t)) (hne : tx ≠ t) (w : World) :
    Untouched tx w (p.run (serve faults) w).2 := by
  induction p generalizing w with
  | pure a => exact .refl tx w
  | op o k ih => exact (serve_of faults h.1 hne w).trans (ih _ (h.2 _) _)

/-- The program performs only operations of a rollback of `t`. -/
def Concerns (t : Uuid) (x : Call α) : Prop := x.run.Within (Op.Of t)

namespace Concerns

theorem pure (a : α) : Concerns t (Pure.pure a : Call α) := trivial

theorem perform {o : Op} (h : o.Of t) : Concerns t (Transaction.perform o) :=
  Try.within_lift ⟨h, fun _ => trivial⟩

theorem bind {x : Call α} {f : α → Call β} (hx : Concerns t x) (hf : ∀ a, Concerns t (f a)) :
    Concerns t (x >>= f) :=
  Try.within_bind hx hf

theorem rules (t : Uuid) : Rules t (fun _ => True) (fun _ => True) (Concerns t) where
  pure := pure
  throw _ := trivial
  bind := bind
  lifecycle _ := perform trivial
  engine _ _ := perform rfl
  load hf := bind (perform rfl) fun s => hf s trivial
  store _ _ := perform rfl
  core _ _ _ := trivial
  snapshot _ _ _ := trivial

theorem setStatus (st : TxStatus) : Concerns t (Transaction.setStatus t st) :=
  (rules t).setStatus fun _ _ => trivial

theorem doRollback : Concerns t (Transaction.doRollback t) :=
  (rules t).doRollback trivial (fun _ _ => trivial) fun _ => trivial

theorem rollbackLocked : Concerns t (Transaction.rollbackLocked t) := by
  refine .bind (perform rfl) fun s => ?_
  split
  · exact (rules t).fail _
  · exact (setStatus _).bind fun _ => doRollback.bind fun _ => (setStatus _).bind fun _ =>
      .bind (perform rfl) fun _ => perform rfl

theorem withGuard {a : Option Answer} {x : Call α} (hx : Concerns t x) :
    Concerns t (Transaction.withGuard t a x) := by
  refine Prog.Within.bind (p := Prog.perform (F := Shared) (.lock t)) ⟨rfl, fun _ => trivial⟩
    fun acquired => ?_
  cases acquired with
  | false => trivial
  | true => exact Prog.Within.bind hx fun r => ⟨rfl, fun _ => trivial⟩

theorem rollback : Concerns t (Transaction.rollback t) := by
  refine .bind (.bind (perform rfl) fun found => ?_) fun _ => withGuard rollbackLocked
  split
  · exact pure ()
  · exact (rules t).fail _

end Concerns

theorem untouched_afterRollback (faults : Uuid → Nat → Option String) (hne : tx ≠ t) (w : World) :
    Untouched tx w (afterRollback faults w t) :=
  run_of faults Concerns.rollback hne w

theorem Open.of_untouched {s : TxState} {w w' : World} (h : Open tx s w)
    (hw : Untouched tx w w') : Open tx s w' where
  drawn := hw.ids ▸ h.drawn
  free := hw.unlocked.trans h.free
  listed := by rw [hw.cell]; exact h.listed
  state := by rw [hw.cell]; exact h.state
  status := h.status

theorem Snapshotted.of_untouched {s : TxState} {snap : Uuid} {w w' : World}
    (h : Snapshotted tx s snap w) (hw : Untouched tx w w') : Snapshotted tx s snap w' where
  toOpen := h.toOpen.of_untouched hw
  snapshot := h.snapshot
  up := hw.up ▸ h.up

/-! ## A rollback of the transaction itself -/

/-- The state of the transaction is `s` now, the engines were asked `l`, and nothing else that
concerns it changed. -/
structure Went (tx : Uuid) (s : TxState) (l : List (EngineCall × Bool)) (w w' : World) : Prop where
  cell : w'.cells tx =
    { w.cells tx with state := some s, engine := (w.cells tx).engine ++ l }
  unlocked : w'.unlocked tx = w.unlocked tx
  ids : w'.ids = w.ids
  up : w'.up = w.up

namespace Went

variable {s s' : TxState} {l l' : List (EngineCall × Bool)} {w w' w'' : World}

theorem stored (tx : Uuid) (s : TxState) (w : World) : Went tx s [] w (w.stored tx s) := by
  refine ⟨?_, rfl, rfl, rfl⟩
  rw [stored_cell, List.append_nil]

theorem called (hs : (w.cells tx).state = some s) (call : EngineCall) (b : Bool) :
    Went tx s [(call, b)] w (w.called tx call b) := by
  refine ⟨?_, rfl, rfl, rfl⟩
  rw [called_cell, ← hs]

theorem state (h : Went tx s l w w') : (w'.cells tx).state = some s := by rw [h.cell]

theorem engine (h : Went tx s l w w') :
    (w'.cells tx).engine = (w.cells tx).engine ++ l := by rw [h.cell]

theorem trans (h : Went tx s l w w') (h' : Went tx s' l' w' w'') :
    Went tx s' (l ++ l') w w'' := by
  refine ⟨?_, h'.unlocked.trans h.unlocked, h'.ids.trans h.ids, h'.up.trans h.up⟩
  rw [h'.cell, h.cell, List.append_assoc]

theorem fault (h : Went tx s l w w') (faults : Uuid → Nat → Option String) (k : Nat) :
    w'.fault faults tx k = w.fault faults tx (l.length + k) := by
  unfold World.fault
  rw [h.engine, List.length_append, Nat.add_assoc]

end Went

section Rollback

variable {s : TxState} {w : World}

theorem eval_setStatus (faults : Uuid → Nat → Option String) (hs : (w.cells tx).state = some s)
    (st : TxStatus) :
    (setStatus tx st).eval (serve faults) w = (.ok (), w.stored tx { s with status := st }) :=
  (Try.eval_bind_ok (eval_load hs)).trans (eval_store _ _)

theorem eval_discardBuffer (hs : (w.cells tx).state = some s) :
    (discardBuffer tx).eval (serve faults) w =
      (.ok (), w.stored tx { s with vectorBuffer := [] }) :=
  (Try.eval_bind_ok (eval_load hs)).trans (eval_store _ _)

/-- An engine call whose error is only logged. -/
theorem eval_awaited (faults : Uuid → Nat → Option String) (hs : (w.cells tx).state = some s)
    (call : EngineCall) : ∃ r w' b, (await tx call).eval (serve faults) w = (.ok r, w') ∧
      Went tx s [(call, b)] w w' := by
  cases hf : w.fault faults tx 0 with
  | some e => exact ⟨_, _, false, eval_await_fault hf, .called hs call false⟩
  | none => exact ⟨_, _, true, eval_await_ok hf, .called hs call true⟩

theorem eval_rollbackCore (faults : Uuid → Nat → Option String)
    (hs : (w.cells tx).state = some s) :
    ∃ w' l, (rollbackCore tx).eval (serve faults) w = (.ok (), w') ∧
      Went tx { s with coreTxBegun := false } l w w' ∧ l.length = s.beforeRestore w ∧
      ∀ snap b, (.restoreSnapshot snap, b) ∉ l := by
  unfold rollbackCore
  rw [Try.eval_bind_ok (eval_load hs)]
  cases hbegun : s.coreTxBegun with
  | false =>
      refine ⟨w, [], rfl, ⟨?_, rfl, rfl, rfl⟩, ?_, fun _ _ => List.not_mem_nil⟩
      · rw [List.append_nil, show { s with coreTxBegun := false } = s by rw [← hbegun], ← hs]
      · rw [TxState.beforeRestore, if_neg (fun h => nomatch hbegun ▸ h.1), List.length_nil]
  | true =>
      rw [if_pos rfl]
      unfold rollbackRaw
      cases hup : w.up .core with
      | false =>
          refine ⟨w.stored tx { s with coreTxBegun := false }, [], ?_, .stored tx _ w, ?_,
            fun _ _ => List.not_mem_nil⟩
          · have hraw : (lifecycle .core).eval (serve faults) w = (.ok false, w) := by
              rw [eval_lifecycle, hup]
            exact (Try.eval_bind_ok (Try.eval_bind_ok hraw)).trans (eval_store w _)
          · rw [TxState.beforeRestore, if_neg (fun h => nomatch hup ▸ h.2), List.length_nil]
      | true =>
          have hraw : (lifecycle .core).eval (serve faults) w = (.ok true, w) := by
            rw [eval_lifecycle, hup]
          obtain ⟨r, w₁, b, hawait, hwent⟩ := eval_awaited faults hs (.executeRawWrite "ROLLBACK")
          refine ⟨w₁.stored tx { s with coreTxBegun := false }, [(.executeRawWrite "ROLLBACK", b)],
            ?_, hwent.trans (.stored tx _ w₁), ?_, fun snap b' hmem => ?_⟩
          · have hrolled : (rollbackRaw tx).eval (serve faults) w = (.ok (), w₁) :=
              (Try.eval_bind_ok hraw).trans (Try.eval_bind_ok hawait)
            exact (Try.eval_bind_ok hrolled).trans (eval_store w₁ _)
          · rw [TxState.beforeRestore, if_pos ⟨hbegun, hup⟩, List.length_singleton]
          · cases List.mem_singleton.mp hmem

/-- What `do_rollback` leaves of a state, up to the snapshot. -/
def TxState.undone (s : TxState) : TxState := { s with coreTxBegun := false, vectorBuffer := [] }

/-- The state with its snapshot id taken out. -/
def TxState.taken (s : TxState) : TxState := { s with branchSnapshotId := none }

/-- `do_rollback` up to the restore. -/
theorem eval_beforeRestore (faults : Uuid → Nat → Option String)
    (hs : (w.cells tx).state = some s) :
    ∃ w' l, (doRollback tx).eval (serve faults) w =
        (restoreSnapshot tx).eval (serve faults) w' ∧
      Went tx s.undone l w w' ∧ l.length = s.beforeRestore w ∧
      ∀ snap b, (.restoreSnapshot snap, b) ∉ l := by
  obtain ⟨w₁, l, hcore, hwent, hlen, hnone⟩ := eval_rollbackCore faults hs
  have hgone := hwent.trans (.stored tx s.undone w₁)
  rw [List.append_nil] at hgone
  exact ⟨w₁.stored tx s.undone, l,
    (Try.eval_bind_ok hcore).trans (Try.eval_bind_ok (eval_discardBuffer hwent.state)),
    hgone, hlen, hnone⟩

theorem eval_restoreSnapshot_none (hs : (w.cells tx).state = some s)
    (hsnap : s.branchSnapshotId = none) :
    (restoreSnapshot tx).eval (serve faults) w = (.ok (), w) := by
  unfold restoreSnapshot
  rw [Try.eval_bind_ok (eval_load hs), hsnap]
  rfl

theorem eval_restoreSnapshot_some (faults : Uuid → Nat → Option String) {snap : Uuid}
    (hs : (w.cells tx).state = some s)
    (hsnap : s.branchSnapshotId = some snap) (hup : w.up .branch = true) :
    ∃ r w', (restoreSnapshot tx).eval (serve faults) w = (r, w') ∧
      Went tx s.taken [(.restoreSnapshot snap, (w.fault faults tx 0).isNone)] w w' ∧
      (r = .ok () ↔ w.fault faults tx 0 = none) := by
  unfold restoreSnapshot
  rw [Try.eval_bind_ok (eval_load hs), hsnap]
  have hstored := Went.stored tx s.taken w
  have hfault : (w.stored tx s.taken).fault faults tx 0 = w.fault faults tx 0 := stored_fault w _ 0
  have hlifecycle : (lifecycle .branch).eval (serve faults) (w.stored tx s.taken) =
      (.ok true, w.stored tx s.taken) := by
    rw [eval_lifecycle, hstored.up, hup]
  show ∃ r w', Try.eval _ (store tx s.taken >>= _) w = _ ∧ _
  rw [Try.eval_bind_ok (eval_store w _), Try.eval_bind_ok hlifecycle, if_pos rfl]
  cases hf : w.fault faults tx 0 with
  | some e =>
      rw [hf] at hfault
      exact ⟨_, _, Try.eval_bind_ok (eval_await_fault hfault),
        hstored.trans (.called hstored.state _ false), nofun, nofun⟩
  | none =>
      rw [hf] at hfault
      exact ⟨_, _, Try.eval_bind_ok (eval_await_ok hfault),
        hstored.trans (.called hstored.state _ true), fun _ => rfl, fun _ => rfl⟩

end Rollback

/-! ## The whole call -/

section Call

variable {s s' : TxState} {w w' : World} {snap : Uuid}

/-- The world as a rollback begins to undo: the guard is held and the status set. -/
def World.rolling (w : World) (tx : Uuid) (s : TxState) : World :=
  (w.setFree tx false).stored tx { s with status := .rollingBack }

theorem rolling_cell (w : World) (tx : Uuid) (s : TxState) :
    (w.rolling tx s).cells tx =
      { w.cells tx with state := some { s with status := .rollingBack } } :=
  stored_cell _ _

theorem rolling_fault (faults : Uuid → Nat → Option String) (w : World) (tx : Uuid) (s : TxState)
    (k : Nat) : (w.rolling tx s).fault faults tx k = w.fault faults tx k :=
  stored_fault _ _ k

/-- The world after the guard was dropped. -/
def World.answer (w : World) (tx : Uuid) (answer : Option Answer) : World :=
  (w.setCell tx { w.cells tx with
    answered := (w.cells tx).answered ++ answer.toList }).setFree tx true

theorem answer_cell (w : World) (tx : Uuid) (answer : Option Answer) :
    (w.answer tx answer).cells tx =
      { w.cells tx with answered := (w.cells tx).answered ++ answer.toList } := by
  show (w.setCell tx _).cells tx = _
  rw [cells_setCell, if_pos rfl]

theorem answer_unlocked (w : World) (tx : Uuid) (answer : Option Answer) :
    (w.answer tx answer).unlocked tx = true := by
  show Function.update w.unlocked tx true tx = true
  rw [Function.update_self]

/-- The call, up to where it begins to undo. -/
theorem eval_rollback (h : Open tx s w) {r : Except Stop Unit}
    (hrest : (do
      doRollback tx
      setStatus tx .rolledBack
      deregister tx
      remove tx : Call Unit).eval (serve faults) (w.rolling tx s) = (r, w')) :
    (rollback tx).eval (serve faults) w =
      (r, w'.answer tx (Answer.given (some .rollback) r)) := by
  have hlocked : (rollbackLocked tx).eval (serve faults) (w.setFree tx false) = (r, w') := by
    have hs : ((w.setFree tx false).cells tx).state = some s := h.state
    unfold rollbackLocked
    rw [Try.eval_bind_ok (eval_load hs), if_neg h.status]
    exact (Try.eval_bind_ok (eval_setStatus faults hs _)).trans hrest
  exact (Try.eval_bind_ok (eval_getHandle h.listed)).trans (eval_withGuard _ h.drawn h.free hlocked)

theorem eval_rollback_ok (h : Open tx s w) {l : List (EngineCall × Bool)}
    (hdo : (doRollback tx).eval (serve faults) (w.rolling tx s) = (.ok (), w'))
    (hwent : Went tx s' l (w.rolling tx s) w') :
    ∃ w'', (rollback tx).eval (serve faults) w = (.ok (), w'') ∧
      (w''.cells tx).listed = false ∧ (w''.cells tx).engine = (w.cells tx).engine ++ l := by
  have hstatus := eval_setStatus faults hwent.state .rolledBack
  refine ⟨_, eval_rollback h ((Try.eval_bind_ok hdo).trans (Try.eval_bind_ok hstatus)), ?_, ?_⟩
  · rw [answer_cell]
    show (World.cells (World.setCell _ tx _) tx).listed = false
    rw [cells_setCell, if_pos rfl]
  · rw [answer_cell]
    show (World.cells (World.setCell _ tx _) tx).engine = _
    rw [cells_setCell, if_pos rfl]
    show ((w'.stored tx _).cells tx).engine = _
    rw [stored_cell, hwent.engine, rolling_cell]

theorem eval_rollback_error (h : Open tx s w) {l : List (EngineCall × Bool)} {e : Stop}
    (hdo : (doRollback tx).eval (serve faults) (w.rolling tx s) = (.error e, w'))
    (hwent : Went tx s' l (w.rolling tx s) w')
    (hs' : ¬(s'.status = .committed ∨ s'.status = .rolledBack)) :
    ∃ w'', (rollback tx).eval (serve faults) w = (.error e, w'') ∧ Open tx s' w'' ∧
      (w''.cells tx).engine = (w.cells tx).engine ++ l := by
  refine ⟨_, eval_rollback h (Try.eval_bind_error hdo), ⟨?_, ?_, ?_, ?_, hs'⟩, ?_⟩
  · show tx ∈ w'.ids
    rw [hwent.ids]
    exact h.drawn
  · exact answer_unlocked _ _ _
  · rw [answer_cell, hwent.cell, rolling_cell]
    exact h.listed
  · rw [answer_cell, hwent.cell]
  · rw [answer_cell, hwent.cell, rolling_cell]

/-- With no snapshot id in the state there is nothing to restore. -/
theorem rollback_lost (faults : Uuid → Nat → Option String) (h : Open tx s w)
    (hsnap : s.branchSnapshotId = none) :
    ∃ w' l, (rollback tx).eval (serve faults) w = (.ok (), w') ∧
      (w'.cells tx).listed = false ∧ (w'.cells tx).engine = (w.cells tx).engine ++ l ∧
      ∀ snap b, (.restoreSnapshot snap, b) ∉ l := by
  have hs : ((w.rolling tx s).cells tx).state = some { s with status := .rollingBack } := by
    rw [rolling_cell]
  obtain ⟨w₁, l, hdo, hwent, -, hnone⟩ := eval_beforeRestore faults hs
  rw [eval_restoreSnapshot_none hwent.state hsnap] at hdo
  obtain ⟨w', he, hlisted, hengine⟩ := eval_rollback_ok h hdo hwent
  exact ⟨w', l, he, hlisted, hengine, hnone⟩

/-- The calls to the engines up to the restore, and the restore. -/
theorem rollback_asks (faults : Uuid → Nat → Option String) (h : Snapshotted tx s snap w) :
    ∃ r w' l s', (doRollback tx).eval (serve faults) (w.rolling tx s) = (r, w') ∧
      Went tx s' (l ++ [(.restoreSnapshot snap,
        (w.fault faults tx (s.beforeRestore w)).isNone)]) (w.rolling tx s) w' ∧
      (∀ snap b, (.restoreSnapshot snap, b) ∉ l) ∧
      (r = .ok () ↔ w.fault faults tx (s.beforeRestore w) = none) ∧
      s'.status = .rollingBack ∧ s'.branchSnapshotId = none := by
  have hs : ((w.rolling tx s).cells tx).state = some { s with status := .rollingBack } := by
    rw [rolling_cell]
  obtain ⟨w₁, l, hdo, hwent, hlen, hnone⟩ := eval_beforeRestore faults hs
  have hup : w₁.up .branch = true := hwent.up ▸ h.up
  obtain ⟨r, w', hrestore, hwent', hr⟩ :=
    eval_restoreSnapshot_some faults hwent.state h.snapshot hup
  have hfault : w₁.fault faults tx 0 = w.fault faults tx (s.beforeRestore w) := by
    rw [hwent.fault, rolling_fault, Nat.add_zero, hlen]
    rfl
  rw [hfault] at hwent' hr
  exact ⟨r, w', l, _, hdo.trans hrestore, hwent.trans hwent', hnone, hr, rfl, rfl⟩

theorem rollback_restores (h : Snapshotted tx s snap w)
    (hfault : w.fault faults tx (s.beforeRestore w) = none) :
    ∃ w', (rollback tx).eval (serve faults) w = (.ok (), w') ∧ (w'.cells tx).listed = false ∧
      Restored tx snap w w' := by
  obtain ⟨r, w₁, l, s', hdo, hwent, -, hr, -⟩ := rollback_asks faults h
  obtain rfl := hr.mpr hfault
  obtain ⟨w', he, hlisted, hengine⟩ := eval_rollback_ok h.toOpen hdo hwent
  refine ⟨w', he, hlisted, _, hengine, ?_⟩
  rw [hfault]
  exact List.mem_append_right _ List.mem_cons_self

/-- After a restore that failed the transaction can be rolled back, with nothing to restore. -/
theorem rollback_fails (h : Snapshotted tx s snap w)
    (hfault : w.fault faults tx (s.beforeRestore w) ≠ none) :
    ∃ e w' l s', (rollback tx).eval (serve faults) w = (.error e, w') ∧ Open tx s' w' ∧
      s'.branchSnapshotId = none ∧ (w'.cells tx).engine = (w.cells tx).engine ++ l ∧
      (.restoreSnapshot snap, true) ∉ l := by
  obtain ⟨r, w₁, l, s', hdo, hwent, hnone, hr, hstatus, hsnap⟩ := rollback_asks faults h
  cases r with
  | ok u => exact absurd (hr.mp rfl) hfault
  | error e =>
      have hopen : ¬(s'.status = .committed ∨ s'.status = .rolledBack) := by
        rw [hstatus]
        decide
      obtain ⟨w', he, hafter, hengine⟩ := eval_rollback_error h.toOpen hdo hwent hopen
      refine ⟨e, w', _, s', he, hafter, hsnap, hengine, fun hmem => ?_⟩
      rcases List.mem_append.mp hmem with hmem | hmem
      · exact hnone snap true hmem
      · obtain ⟨e', hf⟩ := Option.ne_none_iff_exists'.mp hfault
        have hlast := List.mem_singleton.mp hmem
        rw [hf] at hlast
        cases hlast

/-- A transaction that is not in the `active` map is not rolled back again. -/
theorem rollback_unlisted (faults : Uuid → Nat → Option String)
    (h : (w.cells tx).listed = false) :
    ∃ e, (rollback tx).eval (serve faults) w = (.error e, w) := by
  have hget : (getHandle tx).eval (serve faults) w =
      (.error (.failed (.transactionFailed tx "transaction not found")), w) := by
    unfold getHandle
    have hfound : (get tx).eval (serve faults) w = (.ok (w.cells tx).listed, w) := rfl
    rw [Try.eval_bind_ok hfound, if_neg (by rw [h]; exact Bool.false_ne_true)]
    rfl
  exact ⟨_, Try.eval_bind_error hget⟩

end Call

/-! ## A sequence of calls -/

section Sequence

variable {s : TxState} {w w' : World} {snap : Uuid} {calls : List Uuid}

theorem afterRollbacks_append (before calls : List Uuid) :
    afterRollbacks faults w (before ++ calls) =
      afterRollbacks faults (afterRollbacks faults w before) calls :=
  List.foldl_append

theorem afterRollback_of_eval {r : Except Stop Unit}
    (h : (rollback t).eval (serve faults) w = (r, w')) : afterRollback faults w t = w' := by
  unfold afterRollback
  rw [h]

theorem untouched_afterRollbacks (faults : Uuid → Nat → Option String) (h : tx ∉ calls)
    (w : World) : Untouched tx w (afterRollbacks faults w calls) := by
  induction calls generalizing w with
  | nil => exact .refl tx w
  | cons t calls ih =>
      obtain ⟨hne, hrest⟩ := not_or.mp (mt List.mem_cons.mpr h)
      exact (untouched_afterRollback faults hne w).trans (ih hrest _)

theorem unlisted_afterRollbacks (faults : Uuid → Nat → Option String)
    (h : (w.cells tx).listed = false) (calls : List Uuid) :
    ((afterRollbacks faults w calls).cells tx).listed = false := by
  induction calls generalizing w with
  | nil => exact h
  | cons t calls ih =>
      refine ih (w := afterRollback faults w t) ?_
      by_cases ht : tx = t
      · subst ht
        obtain ⟨e, he⟩ := rollback_unlisted faults h
        rw [afterRollback_of_eval he]
        exact h
      · rw [(untouched_afterRollback faults ht w).cell]
        exact h

theorem untouched_fault {k : Nat} (h : Untouched tx w w') :
    w'.fault faults tx k = w.fault faults tx k := by
  unfold World.fault
  rw [h.cell]

theorem Restored.of_untouched {w₁ : World} (hw : Untouched tx w w₁)
    (h : Restored tx snap w₁ w') : Restored tx snap w w' := by
  obtain ⟨l, hl, hmem⟩ := h
  rw [hw.cell] at hl
  exact ⟨l, hl, hmem⟩

/-- Where the restore does not fail, the first rollback of the transaction settles it. -/
theorem restored_of_ok (h : Snapshotted tx s snap w)
    (hfault : w.fault faults tx (s.beforeRestore w) = none) (before : List Uuid)
    (hok : ((rollback tx).eval (serve faults) (afterRollbacks faults w before)).1 = .ok ()) :
    Restored tx snap w (afterRollbacks faults w (before ++ [tx])) := by
  induction before generalizing w with
  | nil =>
      obtain ⟨w', he, -, hrestored⟩ := rollback_restores h hfault
      show Restored tx snap w (afterRollback faults w tx)
      rw [afterRollback_of_eval he]
      exact hrestored
  | cons t before ih =>
      by_cases ht : tx = t
      · subst ht
        obtain ⟨w', he, hlisted, -⟩ := rollback_restores h hfault
        have hafter : afterRollbacks faults w (tx :: before) = afterRollbacks faults w' before :=
          congrArg (afterRollbacks faults · before) (afterRollback_of_eval he)
        obtain ⟨e, he'⟩ := rollback_unlisted faults
          (unlisted_afterRollbacks faults hlisted before)
        rw [hafter, he'] at hok
        cases hok
      · have hw := untouched_afterRollback faults ht w
        have hbefore : s.beforeRestore (afterRollback faults w t) = s.beforeRestore w := by
          unfold TxState.beforeRestore
          rw [hw.up]
        refine (ih (h.of_untouched hw) ?_ hok).of_untouched hw
        rw [hbefore, untouched_fault hw]
        exact hfault

/-- Where it fails, the next rollback reports success in vain. -/
theorem second_in_vain (h : Snapshotted tx s snap w)
    (hfault : w.fault faults tx (s.beforeRestore w) ≠ none) {between : List Uuid}
    (hbetween : tx ∉ between) :
    ((rollback tx).eval (serve faults) (afterRollbacks faults w (tx :: between))).1 = .ok () ∧
      ¬Restored tx snap w (afterRollbacks faults w (tx :: between ++ [tx])) := by
  obtain ⟨e, w₁, l₁, s', he, hopen, hsnap, hengine, hfailed⟩ := rollback_fails h hfault
  have hafter : afterRollbacks faults w (tx :: between) = afterRollbacks faults w₁ between :=
    congrArg (afterRollbacks faults · between) (afterRollback_of_eval he)
  have hw := untouched_afterRollbacks faults hbetween w₁
  obtain ⟨w₂, l₂, he', -, hengine', hnone⟩ := rollback_lost faults
    (hopen.of_untouched hw) hsnap
  rw [afterRollbacks_append, hafter, he']
  refine ⟨rfl, ?_⟩
  rintro ⟨l, hl, hmem⟩
  have hlast : afterRollbacks faults (afterRollbacks faults w₁ between) [tx] = w₂ :=
    afterRollback_of_eval he'
  rw [hlast, hengine', hw.cell, hengine, List.append_assoc] at hl
  obtain rfl := List.append_cancel_left hl
  rcases List.mem_append.mp hmem with hmem | hmem
  · exact hfailed hmem
  · exact hnone snap true hmem

/-- No rollback of the transaction reports success in vain exactly when there is at most one,
or the first restore does not fail. -/
theorem rollbacks_restore_iff (faults : Uuid → Nat → Option String) (w : World) (tx : Uuid)
    (s : TxState) (snap : Uuid) (h : Snapshotted tx s snap w) (calls : List Uuid) :
    NeverInVain faults w tx snap calls ↔
      calls.count tx ≤ 1 ∨ w.fault faults tx (s.beforeRestore w) = none := by
  constructor
  · intro hclaim
    by_contra hnot
    obtain ⟨hcount, hfault⟩ := not_or.mp hnot
    have hmem : tx ∈ calls := List.count_pos_iff.mp (by omega)
    obtain ⟨first, rest, rfl, hfirst⟩ := List.eq_append_cons_of_mem hmem
    have hrest : tx ∈ rest := by
      refine List.count_pos_iff.mp ?_
      rw [List.count_append, List.count_eq_zero.mpr hfirst, List.count_cons_self] at hcount
      omega
    obtain ⟨between, after, rfl, hbetween⟩ := List.eq_append_cons_of_mem hrest
    have hw := untouched_afterRollbacks faults hfirst w
    have hbefore : s.beforeRestore (afterRollbacks faults w first) = s.beforeRestore w := by
      unfold TxState.beforeRestore
      rw [hw.up]
    have hfault' : (afterRollbacks faults w first).fault faults tx
        (s.beforeRestore (afterRollbacks faults w first)) ≠ none := by
      rw [hbefore, untouched_fault hw]
      exact hfault
    obtain ⟨hok, hlost⟩ := second_in_vain (h.of_untouched hw) hfault' hbetween
    have hcall := hclaim (first ++ tx :: between) after (by rw [List.append_assoc]; rfl)
    rw [afterRollbacks_append, List.append_assoc, afterRollbacks_append] at hcall
    refine hlost ?_
    obtain ⟨l, hl, hmem⟩ := hcall hok
    exact ⟨l, hl.trans (by rw [hw.cell]), hmem⟩
  · rintro hwhen before after rfl hok
    by_cases hfault : w.fault faults tx (s.beforeRestore w) = none
    · exact restored_of_ok h hfault before hok
    · have hcount : (before ++ tx :: after).count tx ≤ 1 := hwhen.resolve_right hfault
      rw [List.count_append, List.count_cons_self] at hcount
      have hbefore : tx ∉ before := List.count_eq_zero.mp (by omega)
      have hw := untouched_afterRollbacks faults hbefore w
      have hfault' : (afterRollbacks faults w before).fault faults tx
          (s.beforeRestore (afterRollbacks faults w before)) ≠ none := by
        unfold TxState.beforeRestore at hfault ⊢
        rw [hw.up, untouched_fault hw]
        exact hfault
      obtain ⟨e, w', -, -, he, -⟩ := rollback_fails (h.of_untouched hw) hfault'
      rw [he] at hok
      cases hok

end Sequence

/-! ## Where the calls come from -/

section Origins

variable {w : World}

theorem eval_timeoutEach (faults : Uuid → Nat → Option String) (stale : List (Uuid × Uuid))
    (count : UInt32) (w : World) : ∃ calls, calls <+: stale.map Prod.fst ∧
      ((timeoutEach stale count).eval (serve faults) w).2 = afterRollbacks faults w calls := by
  induction stale generalizing count w with
  | nil => exact ⟨[], List.nil_prefix, rfl⟩
  | cons x stale ih =>
      cases he : (rollback x.1).eval (serve faults) w with
      | mk r w' =>
          have hattempt := eval_attempt he
          have hw' : afterRollback faults w x.1 = w' := afterRollback_of_eval he
          have hnext : ∀ count', ∃ calls, calls <+: (x :: stale).map Prod.fst ∧
              ((timeoutEach stale count').eval (serve faults) w').2 =
                afterRollbacks faults w calls := by
            intro count'
            obtain ⟨calls, hcalls, h⟩ := ih count' w'
            refine ⟨x.1 :: calls, List.cons_prefix_cons.mpr ⟨rfl, hcalls⟩, h.trans ?_⟩
            exact congrArg (afterRollbacks faults · calls) hw'.symm
          unfold timeoutEach
          cases r with
          | ok u =>
              rw [Try.eval_bind_ok hattempt]
              exact hnext (count + 1)
          | error e =>
              cases e with
              | failed e =>
                  rw [Try.eval_bind_ok hattempt]
                  exact hnext count
              | dropped =>
                  rw [Try.eval_bind_error hattempt]
                  exact ⟨[x.1], List.cons_prefix_cons.mpr ⟨rfl, List.nil_prefix⟩, hw'.symm⟩

/-- A pass of `timeout_stale` is a sequence of rollback calls. -/
theorem timeoutStale_rollbacks (faults : Uuid → Nat → Option String) (olderThanSecs : Nat)
    (w : World) : ∃ calls,
      ((timeoutStale olderThanSecs).eval (serve faults) w).2 = afterRollbacks faults w calls := by
  obtain ⟨calls, -, h⟩ :=
    eval_timeoutEach faults
      (serve faults (.staleTransactions (olderThanSecs * 1000000000)) w).1 0 w
  exact ⟨calls, h⟩

/-- What `begin` has established of a state it builds. -/
structure Begun (tx : Uuid) (s : TxState) (w : World) : Prop where
  drawn : tx ∈ w.ids
  status : s.status = .active
  snapshot : s.branchSnapshotId.isSome → w.up .branch = true

theorem eval_await_ids (faults : Uuid → Nat → Option String) (tx : Uuid) (call : EngineCall)
    (w : World) : ∃ r w', (await tx call).eval (serve faults) w = (.ok r, w') ∧
      w'.ids = w.ids ∧ w'.up = w.up := by
  cases hf : w.fault faults tx 0 with
  | some e => exact ⟨_, _, eval_await_fault hf, rfl, rfl⟩
  | none => exact ⟨_, _, eval_await_ok hf, rfl, rfl⟩

theorem eval_beginCore {s s' : TxState} {w' : World}
    (he : (beginCore tx s).eval (serve faults) w = (.ok s', w')) (hdrawn : tx ∈ w.ids)
    (hstatus : s.status = .active) (hsnap : s.branchSnapshotId = none) : Begun tx s' w' := by
  unfold beginCore at he
  rw [Try.eval_bind_ok (eval_lifecycle _ _)] at he
  split at he
  · obtain ⟨r, w₁, hawait, hids, hup⟩ :=
      eval_await_ids faults tx (.executeRawWrite "BEGIN IMMEDIATE") w
    rw [Try.eval_bind_ok hawait] at he
    cases r with
    | error e => cases he
    | ok u =>
        obtain ⟨rfl, rfl⟩ := he
        refine ⟨hids ▸ hdrawn, hstatus, fun h => ?_⟩
        rw [show _ = none from hsnap] at h
        cases h
  · obtain ⟨rfl, rfl⟩ := he
    refine ⟨hdrawn, hstatus, fun h => ?_⟩
    rw [hsnap] at h
    cases h

/-- The world with the transaction on record. -/
def World.onRecord (w : World) (tx sessionId : Uuid) : World :=
  { w with coordinator := w.coordinator.insert tx ⟨sessionId, [], w.clock⟩ }

/-- The world with the transaction in the `active` map. -/
def World.listing (w : World) (tx : Uuid) (s : TxState) : World :=
  (w.setCell tx { w.cells tx with state := some s, listed := true }).setFree tx true

theorem listing_unlocked (w : World) (tx : Uuid) (s : TxState) :
    (w.listing tx s).unlocked tx = true := by
  show Function.update w.unlocked tx true tx = true
  rw [Function.update_self]

theorem listing_cell (w : World) (tx : Uuid) (s : TxState) :
    (w.listing tx s).cells tx = { w.cells tx with state := some s, listed := true } := by
  show (w.setCell tx _).cells tx = _
  rw [cells_setCell, if_pos rfl]

variable [Crates]

theorem eval_takeSnapshot (faults : Uuid → Nat → Option String) {s : TxState}
    (h : Begun tx s w) : ∃ s' w', (takeSnapshot tx s).eval (serve faults) w = (.ok s', w') ∧
      Begun tx s' w' := by
  unfold takeSnapshot
  rw [Try.eval_bind_ok (eval_lifecycle _ _)]
  split
  next hup =>
      obtain ⟨r, w₁, hawait, hids, hw₁⟩ := eval_await_ids faults tx
        (.createSnapshot ("tx-" ++ Crates.uuidToString tx)) w
      rw [Try.eval_bind_ok hawait]
      have hbranch : w₁.up .branch = true := hw₁ ▸ hup
      cases r with
      | error e => exact ⟨s, w₁, rfl, hids ▸ h.drawn, h.status, fun _ => hbranch⟩
      | ok snapId => exact ⟨_, w₁, rfl, hids ▸ h.drawn, h.status, fun _ => hbranch⟩
  next => exact ⟨s, w, rfl, h⟩

/-- A transaction whose `begin` took a snapshot. -/
theorem begin_snapshotted (faults : Uuid → Nat → Option String) (session : SessionContext)
    (w : World) {w' : World} {s : TxState} {snap : Uuid}
    (he : (begin session).eval (serve faults) w = (.ok tx, w'))
    (hs : (w'.cells tx).state = some s) (hsnap : s.branchSnapshotId = some snap) :
    Snapshotted tx s snap w' := by
  have hdraw : newV4.eval (serve faults) w =
      (.ok (ClawDB.World.fresh w.ids), w.draw (ClawDB.World.fresh w.ids)) := rfl
  unfold begin at he
  rw [Try.eval_bind_ok hdraw] at he
  have hnow : now.eval (serve faults) (w.draw (ClawDB.World.fresh w.ids)) =
      (.ok 0, w.draw (ClawDB.World.fresh w.ids)) := rfl
  rw [Try.eval_bind_ok hnow] at he
  generalize ClawDB.World.fresh w.ids = id at he
  cases hcore : (beginCore id (.new id session.sessionId session.agentId 0)).eval (serve faults)
      (w.draw id) with
  | mk r w₁ =>
      cases r with
      | error e =>
          rw [Try.eval_bind_error hcore] at he
          cases he
      | ok s₁ =>
          rw [Try.eval_bind_ok hcore] at he
          have hbegun := eval_beginCore hcore List.mem_cons_self rfl rfl
          obtain ⟨s₂, w₂, htake, hbegun⟩ := eval_takeSnapshot faults hbegun
          rw [Try.eval_bind_ok htake] at he
          have hlast : (do
              register id session.sessionId
              insert id s₂
              pure id : Call Uuid).eval (serve faults) w₂ =
                (.ok id, (w₂.onRecord id session.sessionId).listing id s₂) := rfl
          rw [hlast] at he
          obtain ⟨hid, rfl⟩ := Prod.mk.inj he
          obtain rfl := Except.ok.inj hid
          rw [listing_cell] at hs
          obtain rfl := Option.some.inj hs
          refine ⟨⟨hbegun.drawn, listing_unlocked _ _ _, by rw [listing_cell],
            by rw [listing_cell], ?_⟩, hsnap, hbegun.snapshot (by rw [hsnap]; rfl)⟩
          rw [hbegun.status]
          decide

end Origins

/-! ## Two rollbacks -/

section Witnesses

attribute [local instance] Crates.sample Texts.sample

/-- Transaction 1 is begun, on engines that are up. -/
def oneBegun (faults : Uuid → Nat → Option String) : World :=
  ((begin ⟨7, 8⟩).eval (serve faults) { up := fun _ => true }).2

/-- Its state then. -/
def oneState : TxState where
  id := 1
  sessionId := 7
  agentId := 8
  startedAt := (0 : Int)
  status := .active
  coreTxBegun := true
  vectorBuffer := []
  branchSnapshotId := some 0

/-- The fourth engine call, the restore after `ROLLBACK`, fails. -/
def restoreFails : Uuid → Nat → Option String
  | _, 3 => some "timeout"
  | _, _ => none

theorem rollbacks_restore_twice :
    NeverInVain (fun _ _ => none) (oneBegun fun _ _ => none) 1 0 [1, 1] := by
  refine (rollbacks_restore_iff (fun _ _ => none) (oneBegun fun _ _ => none) 1 oneState 0 ?_
    [1, 1]).mpr (.inr rfl)
  exact begin_snapshotted (fun _ _ => none) ⟨7, 8⟩ { up := fun _ => true } rfl rfl rfl

/-- The restore fails, and a second rollback returns `Ok` all the same. -/
theorem rollback_in_vain :
    ¬ ∀ faults (w : World) tx s snap, Snapshotted tx s snap w → ∀ calls,
      NeverInVain faults w tx snap calls := by
  intro hclaim
  have hbegun : Snapshotted 1 oneState 0 (oneBegun restoreFails) :=
    begin_snapshotted restoreFails ⟨7, 8⟩ { up := fun _ => true } rfl rfl rfl
  have hok : ((rollback 1).eval (serve restoreFails)
      (afterRollbacks restoreFails (oneBegun restoreFails) [1])).1 = .ok () := rfl
  obtain ⟨l, hl, hmem⟩ :=
    hclaim restoreFails (oneBegun restoreFails) 1 oneState 0 hbegun [1, 1] [1] [] rfl hok
  have hlog : ((afterRollbacks restoreFails (oneBegun restoreFails) [1, 1]).cells 1).engine =
      [(.executeRawWrite "BEGIN IMMEDIATE", true),
        (.createSnapshot ("tx-" ++ Crates.uuidToString 1), true),
        (.executeRawWrite "ROLLBACK", true), (.restoreSnapshot 0, false)] := rfl
  have hlast : (EngineCall.restoreSnapshot 0, true) ∈
      ((afterRollbacks restoreFails (oneBegun restoreFails) [1, 1]).cells 1).engine :=
    hl ▸ List.mem_append_right _ hmem
  rw [hlog] at hlast
  simp at hlast

end Witnesses

end ClawDB.Transaction
