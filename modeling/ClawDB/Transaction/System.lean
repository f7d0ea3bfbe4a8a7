/-
# `Transaction.System` — the manager at work

What the calls share, transaction by transaction, and what each operation does to it.  A
`Cell` is what belongs to one transaction: its state behind the mutex, or the context its
owner holds, whether it is in the `active` map, and what the engines, the log and the event
bus were asked on its behalf.  The coordinator is one map for all.

The engines are taken at their interface: a started component can be reached and one that
was not started cannot, as the lifecycle manager is immutable once it is shared; a call may
succeed, fail or be cancelled at any time.  A call that fails did nothing; one that is
cancelled may have done it.

`gate` and `answered` are the proof's own: the write set with which the transaction passed
`prepare`, and the calls on it that returned `Ok`, in order.
-/
import ClawDB.Transaction.Manager
import ClawDB.Lib.Mutex
import ClawDB.World

namespace ClawDB.Transaction

open Effect

/-! ## State -/

structure Cell where
  state : Option TxState := none
  ctx : Option TransactionContext := none
  listed : Bool := false
  gate : Option (List String) := none
  answered : List Answer := []
  engine : List (EngineCall × Bool) := []
  logged : List TransactionLogEntry := []
  emitted : List String := []

structure World where
  ids : List Uuid := []
  cells : Uuid → Cell := fun _ => {}
  unlocked : Uuid → Bool := fun _ => false
  coordinator : AList (fun _ : Uuid => TxRecord) := ∅
  up : Component → Bool
  log : List TransactionLogEntry := []
  clock : Nat := 0

namespace World

def setCell (w : World) (tx : Uuid) (c : Cell) : World :=
  { w with cells := Function.update w.cells tx c }

def setFree (w : World) (tx : Uuid) (b : Bool) : World :=
  { w with unlocked := Function.update w.unlocked tx b }

/-- A new id; what it stands for is its maker's own. -/
def draw (w : World) (id : Uuid) : World := { w.setFree id false with ids := id :: w.ids }

/-- The mutex of a transaction is free; so is that of one not yet drawn. -/
def Free (w : World) (tx : Uuid) : Prop := tx ∈ w.ids → w.unlocked tx = true

/-- The keys the coordinator has on record for a transaction. -/
def writes (w : World) (tx : Uuid) : List String :=
  ((w.coordinator.lookup tx).map TxRecord.writeSet).getD []

/-- The test of `prepare` against one other record. -/
def Conflicts (w : World) (tx : Uuid) (more : List String)
    (other : Sigma fun _ : Uuid => TxRecord) : Prop :=
  other.1 ≠ tx ∧ ∃ k ∈ w.writes tx ++ more, k ∈ other.2.writeSet

instance (w : World) (tx : Uuid) (more : List String)
    (other : Sigma fun _ : Uuid => TxRecord) : Decidable (w.Conflicts tx more other) :=
  inferInstanceAs (Decidable (_ ∧ _))

end World

/-- Did an engine do what it was asked?  After a cancelled call nobody knows. -/
def took {ε α : Type} : Option (Except ε α) → Bool → Prop
  | some (.ok _), b => b = true
  | some (.error _), b => b = false
  | none, _ => True

/-! ## Behaviour -/

def sem : (o : Op) → World → o.Ret → World → Prop
  | .get tx, w => fun found w' => found = (w.cells tx).listed ∧ w' = w
  | .insert tx state, w => fun _ w' =>
      w' = (w.setCell tx { w.cells tx with state := some state, listed := true }).setFree tx true
  | .remove tx, w => fun _ w' => w' = w.setCell tx { w.cells tx with listed := false }
  | .lock tx, w => fun acquired w' =>
      match acquired with
      | true => (tx ∈ w.ids ∧ w.unlocked tx = true) ∧ w' = w.setFree tx false
      | false => w' = w
  | .unlock tx answer, w => fun _ w' => w' = (w.setCell tx { w.cells tx with
      answered := (w.cells tx).answered ++ answer.toList }).setFree tx true
  | .load tx, w => fun state w' => (w.cells tx).state = some state ∧ w' = w
  | .store tx state, w => fun _ w' => w' = w.setCell tx { w.cells tx with state := some state }
  | .register tx sessionId, w => fun _ w' => ∃ now, w.clock ≤ now ∧ w' = { w with
      coordinator := w.coordinator.insert tx ⟨sessionId, [], now⟩, clock := now }
  | .extendWriteSet tx keys, w => fun _ w' =>
      match w.coordinator.lookup tx with
      | some record => w' = { w with
          coordinator := w.coordinator.insert tx
            { record with writeSet := record.writeSet ++ keys } }
      | none => w' = w
  | .prepare tx more, w => fun r w' =>
      match r with
      | .ok _ => (∀ e ∈ w.coordinator.entries, ¬w.Conflicts tx more e) ∧
          w' = w.setCell tx { w.cells tx with gate := some (w.writes tx ++ more) }
      | .error err => (∃ e ∈ w.coordinator.entries, w.Conflicts tx more e ∧
          err = .transactionConflict tx e.1) ∧ w' = w
  | .deregister tx, w => fun _ w' => w' = { w with coordinator := w.coordinator.erase tx }
  | .staleTransactions threshold, w => fun r w' => ∃ now, w.clock ≤ now ∧
      r.Perm ((w.coordinator.entries.filter fun e => threshold < now - e.2.startedAt).map
        fun e => (e.1, e.2.sessionId)) ∧ w' = { w with clock := now }
  | .component c, w => fun r w' => r = w.up c ∧ w' = w
  | .engine tx call, w => fun r w' => ∃ b, took r b ∧
      w' = w.setCell tx { w.cells tx with engine := (w.cells tx).engine ++ [(call, b)] }
  | .newV4, w => fun id w' => id ∉ w.ids ∧ w' = w.draw id
  | .now, w => fun _ w' => w' = w
  | .append tx entry, w => fun _ w' => w' = { w.setCell tx { w.cells tx with
      logged := (w.cells tx).logged ++ [entry] } with log := appendLog 8192 w.log entry }
  | .emit tx reason, w => fun _ w' =>
      w' = w.setCell tx { w.cells tx with emitted := (w.cells tx).emitted ++ [reason] }
  | .hand tx ctx, w => fun _ w' =>
      w' = (w.setCell tx { w.cells tx with ctx := some ctx }).setFree tx true
  | .loadCtx tx, w => fun ctx w' => (w.cells tx).ctx = some ctx ∧ w' = w
  | .storeCtx tx ctx, w => fun _ w' => w' = w.setCell tx { w.cells tx with ctx := some ctx }

/-- The calls of the manager, interleaved. -/
def server [Crates] [Texts] : Server Shared World Request Reply where
  handler := handler
  sem := sem
  accepts _ := True

/-! ## What belongs to a transaction -/

structure View where
  cell : Cell
  record : Option TxRecord
  drawn : Prop

def World.view (w : World) (tx : Uuid) : View :=
  ⟨w.cells tx, w.coordinator.lookup tx, tx ∈ w.ids⟩

def role : (o : Op) → o.Ret → Role Uuid
  | .get _ => fun _ => .quiet
  | .insert tx _ => fun _ => .give tx
  | .remove tx => fun _ => .act tx
  | .lock tx => fun acquired =>
      match acquired with
      | true => .take tx
      | false => .quiet
  | .unlock tx _ => fun _ => .give tx
  | .load tx => fun _ => .act tx
  | .store tx _ => fun _ => .act tx
  | .register tx _ => fun _ => .act tx
  | .extendWriteSet tx _ => fun _ => .act tx
  | .prepare tx _ => fun _ => .act tx
  | .deregister tx => fun _ => .act tx
  | .staleTransactions _ => fun _ => .quiet
  | .component _ => fun _ => .quiet
  | .engine tx _ => fun _ => .act tx
  | .newV4 => fun id => .take id
  | .now => fun _ => .quiet
  | .append tx _ => fun _ => .act tx
  | .emit tx _ => fun _ => .act tx
  | .hand tx _ => fun _ => .give tx
  | .loadCtx tx => fun _ => .act tx
  | .storeCtx tx _ => fun _ => .act tx

abbrev parts : Parts Shared World Uuid View where
  sem := sem
  view := World.view
  free := World.Free
  role := role

section Lawful

variable {w : World} {tx tx' : Uuid}

theorem view_setCell (c : Cell) : (w.setCell tx c).view tx = { w.view tx with cell := c } := by
  simp [World.view, World.setCell]

theorem view_setFree (b : Bool) : (w.setFree tx b).view tx' = w.view tx' := rfl

theorem same_setCell (c : Cell) (h : tx' ≠ tx) : parts.Same w (w.setCell tx c) tx' := by
  refine ⟨?_, Iff.rfl⟩
  simp [World.view, World.setCell, Function.update_of_ne h]

theorem same_setFree (b : Bool) (h : tx' ≠ tx) : parts.Same w (w.setFree tx b) tx' := by
  refine ⟨rfl, ?_⟩
  show (tx' ∈ w.ids → Function.update w.unlocked tx b tx' = true) ↔ _
  rw [Function.update_of_ne h]
  exact Iff.rfl

theorem view_insert (record : TxRecord) (now : Nat) :
    World.view { w with coordinator := w.coordinator.insert tx record, clock := now } tx =
      { w.view tx with record := some record } := by
  simp only [World.view, AList.lookup_insert]

theorem view_erase :
    World.view { w with coordinator := w.coordinator.erase tx } tx =
      { w.view tx with record := none } := by
  simp only [World.view, AList.lookup_erase]

theorem same_trans {w₁ w₂ w₃ : World} (h : parts.Same w₁ w₂ tx) (h' : parts.Same w₂ w₃ tx) :
    parts.Same w₁ w₃ tx :=
  ⟨h'.1.trans h.1, h'.2.trans h.2⟩

theorem same_insert {now : Nat} {record : TxRecord} (h : tx' ≠ tx) : parts.Same w { w with
    coordinator := w.coordinator.insert tx record, clock := now } tx' := by
  refine ⟨?_, Iff.rfl⟩
  simp only [World.view, AList.lookup_insert_ne h]

theorem same_erase (h : tx' ≠ tx) :
    parts.Same w { w with coordinator := w.coordinator.erase tx } tx' := by
  refine ⟨?_, Iff.rfl⟩
  simp only [World.view, AList.lookup_erase_ne h]

theorem same_draw (h : tx' ≠ tx) : parts.Same w (w.draw tx) tx' := by
  have hids : (tx' ∈ tx :: w.ids) = (tx' ∈ w.ids) := by simp [h]
  refine ⟨?_, ?_⟩
  · show (⟨w.cells tx', w.coordinator.lookup tx', tx' ∈ tx :: w.ids⟩ : View) = _
    rw [hids]
    rfl
  · show (tx' ∈ tx :: w.ids → Function.update w.unlocked tx false tx' = true) ↔ _
    rw [hids, Function.update_of_ne h]
    exact Iff.rfl

theorem locked_draw : ¬(w.draw tx).Free tx := by
  intro h
  have hlocked : Function.update w.unlocked tx false tx = true := h List.mem_cons_self
  rw [Function.update_self] at hlocked
  cases hlocked

/-- What an operation about a transaction leaves alone. -/
theorem sem_same {o : Op} {r : o.Ret} {w' : World} (h : sem o w r w')
    (hr : role o r = .act tx ∨ role o r = .give tx) (hne : tx' ≠ tx) : parts.Same w w' tx' := by
  cases o with
  | insert t state =>
      obtain rfl : t = tx := by simpa [role] using hr
      obtain rfl := h
      exact same_trans (same_setCell _ hne) (same_setFree true hne)
  | hand t ctx =>
      obtain rfl : t = tx := by simpa [role] using hr
      obtain rfl := h
      exact same_trans (same_setCell _ hne) (same_setFree true hne)
  | unlock t a =>
      obtain rfl : t = tx := by simpa [role] using hr
      obtain rfl := h
      exact same_trans (same_setCell _ hne) (same_setFree true hne)
  | lock t => cases r <;> simp [role] at hr
  | load t => obtain ⟨-, rfl⟩ := h; exact ⟨rfl, Iff.rfl⟩
  | loadCtx t => obtain ⟨-, rfl⟩ := h; exact ⟨rfl, Iff.rfl⟩
  | register t s =>
      obtain rfl : t = tx := by simpa [role] using hr
      obtain ⟨now, -, rfl⟩ := h
      exact same_insert hne
  | extendWriteSet t keys =>
      obtain rfl : t = tx := by simpa [role] using hr
      simp only [sem] at h
      split at h
      next record _ => rw [h]; exact same_insert hne
      next => rw [h]; exact ⟨rfl, Iff.rfl⟩
  | prepare t more =>
      obtain rfl : t = tx := by simpa [role] using hr
      cases r with
      | ok u => obtain ⟨-, rfl⟩ := h; exact same_setCell _ hne
      | error e => obtain ⟨-, rfl⟩ := h; exact ⟨rfl, Iff.rfl⟩
  | deregister t =>
      obtain rfl : t = tx := by simpa [role] using hr
      obtain rfl := h
      exact same_erase hne
  | engine t call =>
      obtain rfl : t = tx := by simpa [role] using hr
      obtain ⟨b, -, rfl⟩ := h
      exact same_setCell _ hne
  | append t entry =>
      obtain rfl : t = tx := by simpa [role] using hr
      obtain rfl := h
      exact same_setCell _ hne
  | get t => simp [role] at hr
  | staleTransactions n => simp [role] at hr
  | component c => simp [role] at hr
  | newV4 => simp [role] at hr
  | now => simp [role] at hr
  | remove t | store t s | emit t s | storeCtx t ctx =>
      obtain rfl : t = tx := by simpa [role] using hr
      obtain rfl := h
      exact same_setCell _ hne

/-- Nor does an operation that only acts on a transaction touch a mutex. -/
theorem sem_free {o : Op} {r : o.Ret} {w' : World} (h : sem o w r w')
    (hr : role o r = .act tx) : w'.Free = w.Free := by
  suffices w'.ids = w.ids ∧ w'.unlocked = w.unlocked by
    funext t
    unfold World.Free
    rw [this.1, this.2]
  cases o with
  | lock t => cases r <;> simp [role] at hr
  | load t => obtain ⟨-, rfl⟩ := h; exact ⟨rfl, rfl⟩
  | loadCtx t => obtain ⟨-, rfl⟩ := h; exact ⟨rfl, rfl⟩
  | register t s => obtain ⟨now, -, rfl⟩ := h; exact ⟨rfl, rfl⟩
  | extendWriteSet t keys =>
      simp only [sem] at h
      split at h <;> rw [h] <;> exact ⟨rfl, rfl⟩
  | prepare t more =>
      cases r <;> obtain ⟨-, rfl⟩ := h <;> exact ⟨rfl, rfl⟩
  | engine t call => obtain ⟨b, -, rfl⟩ := h; exact ⟨rfl, rfl⟩
  | insert t state => simp [role] at hr
  | hand t ctx => simp [role] at hr
  | unlock t a => simp [role] at hr
  | get t => simp [role] at hr
  | staleTransactions n => simp [role] at hr
  | component c => simp [role] at hr
  | newV4 => simp [role] at hr
  | now => simp [role] at hr
  | remove t | store t s | deregister t | append t entry | emit t s | storeCtx t ctx =>
      obtain rfl := h
      exact ⟨rfl, rfl⟩

theorem sem_quiet {o : Op} {r : o.Ret} {w' : World} (h : sem o w r w')
    (hr : role o r = .quiet) (tx : Uuid) : parts.Same w w' tx := by
  cases o with
  | get t => obtain ⟨-, rfl⟩ := h; exact ⟨rfl, Iff.rfl⟩
  | lock t =>
      cases r with
      | true => simp [role] at hr
      | false => obtain rfl := h; exact ⟨rfl, Iff.rfl⟩
  | staleTransactions n => obtain ⟨now, -, -, rfl⟩ := h; exact ⟨rfl, Iff.rfl⟩
  | component c => obtain ⟨-, rfl⟩ := h; exact ⟨rfl, Iff.rfl⟩
  | now => obtain rfl := h; exact ⟨rfl, Iff.rfl⟩
  | _ => simp [role] at hr

theorem sem_take {o : Op} {r : o.Ret} {w' : World} (h : sem o w r w')
    (hr : role o r = .take tx) :
    w.Free tx ∧ ¬w'.Free tx ∧ ∀ t, t ≠ tx → parts.Same w w' t := by
  cases o with
  | lock t =>
      cases r with
      | false => simp [role] at hr
      | true =>
          obtain rfl : t = tx := by simpa [role] using hr
          obtain ⟨⟨hids, hfree⟩, rfl⟩ := h
          refine ⟨fun _ => hfree, fun hf => ?_, fun t hne => same_setFree false hne⟩
          have hlocked := hf hids
          simp [World.setFree] at hlocked
  | newV4 =>
      obtain rfl : (r : Uuid) = tx := Role.take.inj hr
      obtain ⟨hfresh, rfl⟩ := h
      exact ⟨fun hids => absurd hids hfresh, locked_draw, fun t hne => same_draw hne⟩
  | _ => simp [role] at hr

theorem parts_lawful : parts.Lawful where
  quiet := sem_quiet
  take := sem_take
  act h hr := by
    refine ⟨?_, fun t hne => sem_same h (.inl hr) hne⟩
    rw [show parts.free _ = parts.free _ from sem_free h hr]
  give h hr t hne := sem_same h (.inr hr) hne

end Lawful

/-! ## One system with this behaviour

Ids are drawn by counting up, the clocks stand still and nothing is cancelled.  The `n`-th
engine call for a transaction fails with the text `faults tx n`, if there is one. -/

def EngineCall.reply : (call : EngineCall) → call.Ret
  | .createSnapshot _ => (0 : Uuid)
  | .executeRawWrite _ | .upsert _ | .deleteSnapshot _ | .restoreSnapshot _ => ()

def serve (faults : Uuid → Nat → Option String) : Prog.Handler Shared World
  | .get tx, w => ((w.cells tx).listed, w)
  | .insert tx state, w =>
      ((), (w.setCell tx { w.cells tx with state := some state, listed := true }).setFree tx true)
  | .remove tx, w => ((), w.setCell tx { w.cells tx with listed := false })
  | .lock tx, w =>
      if tx ∈ w.ids ∧ w.unlocked tx = true then (true, w.setFree tx false) else (false, w)
  | .unlock tx answer, w => ((), (w.setCell tx { w.cells tx with
      answered := (w.cells tx).answered ++ answer.toList }).setFree tx true)
  | .load tx, w => ((w.cells tx).state.getD (.new tx 0 0 0), w)
  | .store tx state, w => ((), w.setCell tx { w.cells tx with state := some state })
  | .register tx sessionId, w => ((), { w with
      coordinator := w.coordinator.insert tx ⟨sessionId, [], w.clock⟩ })
  | .extendWriteSet tx keys, w =>
      match w.coordinator.lookup tx with
      | some record => ((), { w with
          coordinator := w.coordinator.insert tx
            { record with writeSet := record.writeSet ++ keys } })
      | none => ((), w)
  | .prepare tx more, w =>
      match w.coordinator.entries.find? fun e => w.Conflicts tx more e with
      | some e => (.error (.transactionConflict tx e.1), w)
      | none => (.ok (), w.setCell tx { w.cells tx with gate := some (w.writes tx ++ more) })
  | .deregister tx, w => ((), { w with coordinator := w.coordinator.erase tx })
  | .staleTransactions threshold, w =>
      ((w.coordinator.entries.filter fun e => threshold < w.clock - e.2.startedAt).map
        fun e => (e.1, e.2.sessionId), w)
  | .component c, w => (w.up c, w)
  | .engine tx call, w =>
      let fault := faults tx (w.cells tx).engine.length
      (some (match fault with | some e => .error e | none => .ok call.reply),
        w.setCell tx { w.cells tx with
          engine := (w.cells tx).engine ++ [(call, fault.isNone)] })
  | .newV4, w => (ClawDB.World.fresh w.ids, w.draw (ClawDB.World.fresh w.ids))
  | .now, w => ((0 : DateTime), w)
  | .append tx entry, w => ((), { w.setCell tx { w.cells tx with
      logged := (w.cells tx).logged ++ [entry] } with log := appendLog 8192 w.log entry })
  | .emit tx reason, w =>
      ((), w.setCell tx { w.cells tx with emitted := (w.cells tx).emitted ++ [reason] })
  | .hand tx ctx, w => ((), (w.setCell tx { w.cells tx with ctx := some ctx }).setFree tx true)
  | .loadCtx tx, w => ((w.cells tx).ctx.getD (.new tx 0 .snapshot), w)
  | .storeCtx tx ctx, w => ((), w.setCell tx { w.cells tx with ctx := some ctx })

/-- What an operation waits for. -/
def ready : Op → World → Bool
  | .lock tx, w => tx ∈ w.ids ∧ w.unlocked tx = true
  | .load tx, w => (w.cells tx).state.isSome
  | .loadCtx tx, w => (w.cells tx).ctx.isSome
  | _, _ => true

theorem serve_refines (faults : Uuid → Nat → Option String) :
    Pool.RefinesWhen ready (serve faults) sem := by
  intro o w hready
  cases o with
  | lock tx =>
      have h : tx ∈ w.ids ∧ w.unlocked tx = true := of_decide_eq_true hready
      simp only [serve]
      rw [if_pos h]
      exact ⟨h, rfl⟩
  | load tx =>
      obtain ⟨s, hs⟩ := Option.isSome_iff_exists.mp hready
      refine ⟨?_, rfl⟩
      show _ = some ((w.cells tx).state.getD _)
      rw [hs]
      rfl
  | loadCtx tx =>
      obtain ⟨ctx, hctx⟩ := Option.isSome_iff_exists.mp hready
      refine ⟨?_, rfl⟩
      show _ = some ((w.cells tx).ctx.getD _)
      rw [hctx]
      rfl
  | register tx s => exact ⟨w.clock, Nat.le_refl _, rfl⟩
  | extendWriteSet tx keys =>
      simp only [sem, serve]
      cases w.coordinator.lookup tx <;> rfl
  | prepare tx more =>
      cases hf : w.coordinator.entries.find? (fun e => w.Conflicts tx more e) with
      | some e =>
          have he : serve faults (.prepare tx more) w =
              (.error (.transactionConflict tx e.1), w) := by
            simp only [serve, hf]
          have hconflict := List.find?_some hf
          rw [he]
          exact ⟨⟨e, List.mem_of_find?_eq_some hf, of_decide_eq_true hconflict, rfl⟩, rfl⟩
      | none =>
          have he : serve faults (.prepare tx more) w = (.ok (), w.setCell tx { w.cells tx with
              gate := some (w.writes tx ++ more) }) := by
            simp only [serve, hf]
          rw [he]
          refine ⟨fun e hmem hc => ?_, rfl⟩
          exact List.find?_eq_none.mp hf e hmem (decide_eq_true hc)
  | staleTransactions threshold => exact ⟨w.clock, Nat.le_refl _, List.Perm.refl _, rfl⟩
  | engine tx call =>
      cases hf : faults tx (w.cells tx).engine.length with
      | some e => exact ⟨false, by simp [serve, hf, took], by simp [serve, hf]⟩
      | none => exact ⟨true, by simp [serve, hf, took], by simp [serve, hf]⟩
  | newV4 => exact ⟨ClawDB.World.fresh_notMem _, rfl⟩
  | get tx => exact ⟨rfl, rfl⟩
  | component c => exact ⟨rfl, rfl⟩
  | _ => exact rfl

end ClawDB.Transaction
