/-
# `Transaction.Stale` — what a pass of `timeout_stale` clears

The coordinator says which transactions have been open for too long; the rollback of each looks
it up in the `active` map.  The two are filled by different calls: `begin` registers a
transaction and lists it, `begin_simple` only registers it.  A stale transaction that is not
listed is not found, its rollback fails, and it stays on record for good.

`timeoutStale_clears_iff` says when a pass that runs with nothing else in between leaves no
stale transaction behind and counts those it removed.
-/
import ClawDB.Lib.Trace
import ClawDB.Transaction.Retry
import ClawDB.Transaction.Runs

namespace ClawDB.Transaction

open Effect
open Effect.Prog (ExecTrace)

variable {tx t : Uuid} {α β : Type} {w w' w'' : World} {evs : List (Exchange Shared)}

/-! ## What a rollback leaves alone -/

/-- Between `w` and `w'` nothing changed but what belongs to `t`. -/
structure Aside (t : Uuid) (w w' : World) : Prop where
  cells : ∀ tx, tx ≠ t → w'.cells tx = w.cells tx
  unlocked : ∀ tx, tx ≠ t → w'.unlocked tx = w.unlocked tx
  record : ∀ tx, tx ≠ t → w'.coordinator.lookup tx = w.coordinator.lookup tx
  ids : w'.ids = w.ids
  clock : w'.clock = w.clock

namespace Aside

theorem refl (t : Uuid) (w : World) : Aside t w w :=
  ⟨fun _ _ => rfl, fun _ _ => rfl, fun _ _ => rfl, rfl, rfl⟩

theorem trans (h : Aside t w w') (h' : Aside t w' w'') : Aside t w w'' where
  cells tx hne := (h'.cells tx hne).trans (h.cells tx hne)
  unlocked tx hne := (h'.unlocked tx hne).trans (h.unlocked tx hne)
  record tx hne := (h'.record tx hne).trans (h.record tx hne)
  ids := h'.ids.trans h.ids
  clock := h'.clock.trans h.clock

theorem setCell (w : World) (c : Cell) : Aside t w (w.setCell t c) where
  cells _ hne := Function.update_of_ne hne ..
  unlocked _ _ := rfl
  record _ _ := rfl
  ids := rfl
  clock := rfl

theorem setFree (w : World) (b : Bool) : Aside t w (w.setFree t b) where
  cells _ _ := rfl
  unlocked _ hne := Function.update_of_ne hne ..
  record _ _ := rfl
  ids := rfl
  clock := rfl

theorem erase (w : World) : Aside t w { w with coordinator := w.coordinator.erase t } where
  cells _ _ := rfl
  unlocked _ _ := rfl
  record _ hne := AList.lookup_erase_ne hne
  ids := rfl
  clock := rfl

theorem view (h : Aside t w w') (hne : tx ≠ t) : w'.view tx = w.view tx := by
  unfold World.view
  rw [h.cells tx hne, h.record tx hne, h.ids]

theorem free (h : Aside t w w') (hne : tx ≠ t) : w'.Free tx ↔ w.Free tx := by
  unfold World.Free
  rw [h.unlocked tx hne, h.ids]

end Aside

theorem sem_aside {o : Op} {r : o.Ret} (ho : o.Of t) (h : sem o w r w') : Aside t w w' := by
  cases o with
  | get t' => obtain ⟨-, rfl⟩ := h; exact .refl t _
  | load t' => obtain ⟨-, rfl⟩ := h; exact .refl t _
  | component c => obtain ⟨-, rfl⟩ := h; exact .refl t _
  | lock t' =>
      obtain rfl : t' = t := ho
      cases r with
      | true => obtain ⟨-, rfl⟩ := h; exact .setFree w false
      | false => obtain rfl := h; exact .refl _ _
  | unlock t' a =>
      obtain rfl : t' = t := ho
      obtain rfl := h
      exact (Aside.setCell w _).trans (.setFree _ true)
  | deregister t' =>
      obtain rfl : t' = t := ho
      obtain rfl := h
      exact .erase w
  | engine t' call =>
      obtain rfl : t' = t := ho
      obtain ⟨b, -, rfl⟩ := h
      exact .setCell w _
  | store t' _ | remove t' =>
      obtain rfl : t' = t := ho
      obtain rfl := h
      exact .setCell w _
  | _ => exact absurd ho id

theorem traced_aside {p : Prog Shared α} {a : α} (hp : p.Within (Op.Of t))
    (h : ExecTrace sem p w evs a w') : Aside t w w' := by
  induction h with
  | pure a w => exact .refl t w
  | op hr _ ih => exact (sem_aside hp.1 hr).trans (ih (hp.2 _))

/-! ## How a rollback fails -/

/-- A snapshot could not be restored. -/
def RestoreFailed (evs : List (Exchange Shared)) : Prop :=
  ∃ tx snap err, ⟨.engine tx (.restoreSnapshot snap), some (.error err)⟩ ∈ evs

theorem RestoreFailed.left {evs' : List (Exchange Shared)} (h : RestoreFailed evs) :
    RestoreFailed (evs ++ evs') := by
  obtain ⟨tx, snap, err, hev⟩ := h
  exact ⟨tx, snap, err, List.mem_append_left _ hev⟩

theorem RestoreFailed.right {evs' : List (Exchange Shared)} (h : RestoreFailed evs') :
    RestoreFailed (evs ++ evs') := by
  obtain ⟨tx, snap, err, hev⟩ := h
  exact ⟨tx, snap, err, List.mem_append_right _ hev⟩

/-- The program returns an error only when a snapshot could not be restored. -/
def FailsByRestore (x : Call α) : Prop :=
  ∀ w evs e w', ExecTrace sem x.run w evs (.error (.failed e)) w' → RestoreFailed evs

/-- What an engine call is told, the trace has. -/
theorem mem_of_await {call : EngineCall} {r : Except String call.Ret}
    (h : ExecTrace sem (await tx call).run w evs (.ok r) w') : ⟨.engine tx call, some r⟩ ∈ evs := by
  rcases Try.traced_bind h with ⟨e, -, he⟩ | ⟨first, rest, told, w₁, rfl, hasked, hrest⟩
  · cases he
  · obtain ⟨told', hperformed, he⟩ := Try.traced_lift.mp hasked
    obtain rfl := Except.ok.inj he
    obtain ⟨rfl, -⟩ := Prog.traced_perform.mp hperformed
    cases told with
    | none =>
        obtain ⟨-, hr, -⟩ := Prog.traced_pure.mp hrest
        cases hr
    | some x =>
        obtain ⟨-, hr, -⟩ := Prog.traced_pure.mp hrest
        obtain rfl := Except.ok.inj hr
        exact List.mem_append_left _ List.mem_cons_self

namespace FailsByRestore

theorem pure (a : α) : FailsByRestore (Pure.pure a : Call α) := by
  intro w evs e w' h
  obtain ⟨-, hr, -⟩ := Prog.traced_pure.mp h
  cases hr

theorem dropped : FailsByRestore (throw .dropped : Call α) := by
  intro w evs e w' h
  obtain ⟨-, hr, -⟩ := Prog.traced_pure.mp h
  cases hr

theorem bind {x : Call α} {f : α → Call β} (hx : FailsByRestore x)
    (hf : ∀ a, FailsByRestore (f a)) : FailsByRestore (x >>= f) := by
  intro w evs e w' h
  rcases Try.traced_bind h with ⟨e', hfail, he⟩ | ⟨first, rest, a, w₁, rfl, -, hrest⟩
  · obtain rfl := Except.error.inj he
    exact hx _ _ _ _ hfail
  · exact (hf a _ _ _ _ hrest).right

theorem perform (o : Op) : FailsByRestore (Transaction.perform o) := by
  intro w evs e w' h
  obtain ⟨r, -, hr⟩ := Try.traced_lift.mp h
  cases hr

theorem await (call : EngineCall) : FailsByRestore (Transaction.await tx call) :=
  (perform _).bind fun r => by
    cases r with
    | none => exact dropped
    | some r => exact pure r

theorem setStatus (st : TxStatus) : FailsByRestore (Transaction.setStatus tx st) :=
  (perform _).bind fun _ => perform _

theorem rollbackCore : FailsByRestore (Transaction.rollbackCore tx) := by
  refine (perform _).bind fun s => ?_
  split
  · refine bind ((perform _).bind fun up => ?_) fun _ => perform _
    split
    · exact (await _).bind fun _ => pure ()
    · exact pure ()
  · exact pure ()

theorem discardBuffer : FailsByRestore (Transaction.discardBuffer tx) :=
  (perform _).bind fun _ => perform _

theorem restoreSnapshot : FailsByRestore (Transaction.restoreSnapshot tx) := by
  refine (perform _).bind fun s => ?_
  cases s.branchSnapshotId with
  | none => exact pure ()
  | some snapId =>
      refine (perform _).bind fun _ => (perform _).bind fun up => ?_
      split
      · intro w evs e w' h
        rcases Try.traced_bind h with ⟨e', hfail, he⟩ | ⟨first, rest, r, w₁, rfl, hawait, hrest⟩
        · obtain rfl := Except.error.inj he
          exact await _ _ _ _ _ hfail
        · cases r with
          | ok u => exact (pure () _ _ _ _ hrest).right
          | error err =>
              -- the engine reported that it did not restore the snapshot
              exact RestoreFailed.left ⟨tx, snapId, err, mem_of_await hawait⟩
      · exact pure ()

theorem doRollback : FailsByRestore (Transaction.doRollback tx) :=
  rollbackCore.bind fun _ => discardBuffer.bind fun _ => restoreSnapshot

end FailsByRestore

/-! ## One rollback -/

theorem traced_getHandle {r : Except Stop Unit} (h : ExecTrace sem (getHandle t).run w evs r w') :
    w' = w ∧ ((w.cells t).listed = true ∧ r = .ok () ∨
      (w.cells t).listed = false ∧ ∃ e, r = .error (.failed e)) := by
  rcases Try.traced_bind h with ⟨e, hfail, -⟩ | ⟨first, rest, found, w₁, rfl, hget, hrest⟩
  · obtain ⟨found, -, he⟩ := Try.traced_lift.mp hfail
    cases he
  · obtain ⟨found', hperformed, he⟩ := Try.traced_lift.mp hget
    obtain rfl := Except.ok.inj he
    obtain ⟨rfl, hfound, rfl⟩ := Prog.traced_perform.mp hperformed
    cases found with
    | true =>
        obtain ⟨-, hr, rfl⟩ := Prog.traced_pure.mp hrest
        exact ⟨rfl, .inl ⟨hfound.symm, hr⟩⟩
    | false =>
        obtain ⟨-, hr, rfl⟩ := Prog.traced_pure.mp hrest
        exact ⟨rfl, .inr ⟨hfound.symm, _, hr⟩⟩

/-- What runs under the guard runs once the mutex is free. -/
theorem traced_withGuard {a : Option Answer} {x : Call α} {r : Except Stop α}
    (h : ExecTrace sem (withGuard t a x).run w evs r w') : r = .error .dropped ∨
      ∃ inner w₁, w.Free t ∧ ExecTrace sem x.run (w.setFree t false) inner r w₁ ∧
        (∀ ev ∈ inner, ev ∈ evs) ∧ w'.coordinator = w₁.coordinator := by
  obtain ⟨first, rest, acquired, w₁, rfl, hlock, h⟩ := Prog.traced_bind.mp h
  obtain ⟨-, hacquired⟩ := Prog.traced_perform.mp hlock
  cases acquired with
  | false =>
      obtain ⟨-, hr, -⟩ := Prog.traced_pure.mp h
      exact .inl hr
  | true =>
      obtain ⟨⟨-, hfree⟩, rfl⟩ := hacquired
      obtain ⟨inner, last, r', w₂, rfl, hx, h⟩ := (Prog.traced_bind (p := x.run)).mp h
      obtain ⟨u, w₃, last, rfl, hunlock, h⟩ := Prog.traced_op.mp h
      obtain ⟨-, rfl, rfl⟩ := Prog.traced_pure.mp h
      obtain rfl := hunlock
      refine .inr ⟨inner, w₂, fun _ => hfree, hx, fun ev hev => ?_, rfl⟩
      exact List.mem_append_right _ (List.mem_append_left _ hev)

/-- A transaction that is listed, and at rest, has not come to its end. -/
theorem Rest.open_of_listed {v : View} {s : TxState} (h : Rest v)
    (hlisted : v.cell.listed = true) (hs : v.cell.state = some s) :
    ¬(s.status = .committed ∨ s.status = .rolledBack) := by
  cases h with
  | new _ hc _ => rw [hc] at hs; cases hs
  | idle h => rw [h.status.status_eq hs]; decide
  | committing h => rw [h.status_eq hs]; decide
  | rollingBack h => rw [h.status_eq hs]; decide
  | settled h => rw [h.listed] at hlisted; cases hlisted
  | simple h => rw [h.noState] at hs; cases hs

/-- The end of a rollback takes the transaction off the record. -/
theorem traced_rollbackLocked {r : Except Stop Unit} (hlisted : (w.cells t).listed = true)
    (hrest : Rest (w.view t)) (h : ExecTrace sem (rollbackLocked t).run w evs r w') :
    (r = .ok () → w'.coordinator.lookup t = none) ∧
      ∀ e, r = .error (.failed e) → RestoreFailed evs := by
  rcases Try.traced_bind h with ⟨e, hfail, -⟩ | ⟨first, rest, s, w₁, rfl, hload, htail⟩
  · obtain ⟨s, -, he⟩ := Try.traced_lift.mp hfail
    cases he
  · obtain ⟨s', hperformed, he⟩ := Try.traced_lift.mp hload
    obtain rfl := Except.ok.inj he
    obtain ⟨rfl, hs, rfl⟩ := Prog.traced_perform.mp hperformed
    rw [if_neg (hrest.open_of_listed hlisted hs)] at htail
    constructor
    · rintro rfl
      obtain ⟨_, _, _, w₂, -, -, htail⟩ := Try.traced_bind_ok htail
      obtain ⟨_, _, _, w₃, -, -, htail⟩ := Try.traced_bind_ok htail
      obtain ⟨_, _, _, w₄, -, -, htail⟩ := Try.traced_bind_ok htail
      obtain ⟨_, _, _, w₅, -, hderegister, hremove⟩ := Try.traced_bind_ok htail
      obtain ⟨_, hderegistered, -⟩ := Try.traced_lift.mp hderegister
      obtain ⟨-, rfl⟩ := Prog.traced_perform.mp hderegistered
      obtain ⟨_, hremoved, -⟩ := Try.traced_lift.mp hremove
      obtain ⟨-, rfl⟩ := Prog.traced_perform.mp hremoved
      exact AList.lookup_erase _ _
    · rintro e rfl
      have hfails : FailsByRestore (setStatus t .rollingBack >>= fun _ => doRollback t >>= fun _ =>
          setStatus t .rolledBack >>= fun _ => deregister t >>= fun _ => remove t) :=
        (FailsByRestore.setStatus _).bind fun _ => FailsByRestore.doRollback.bind fun _ =>
          (FailsByRestore.setStatus _).bind fun _ => (FailsByRestore.perform _).bind fun _ =>
            FailsByRestore.perform _
      exact (hfails _ _ _ _ htail).right

theorem traced_rollback_unlisted {r : Except Stop Unit} (hlisted : (w.cells t).listed = false)
    (h : ExecTrace sem (rollback t).run w evs r w') : w' = w ∧ ∃ e, r = .error (.failed e) := by
  rcases Try.traced_bind h with ⟨e, hfail, rfl⟩ | ⟨first, rest, u, w₁, rfl, hhandle, -⟩
  · obtain ⟨rfl, ⟨-, he⟩ | ⟨-, e', he⟩⟩ := traced_getHandle hfail
    · cases he
    · exact ⟨rfl, e', by rw [Except.error.inj he]⟩
  · obtain ⟨-, ⟨hfound, -⟩ | ⟨-, e, he⟩⟩ := traced_getHandle hhandle
    · rw [hlisted] at hfound
      cases hfound
    · cases he

theorem traced_rollback_listed {r : Except Stop Unit} (hlisted : (w.cells t).listed = true)
    (hrest : w.Free t → Rest (w.view t)) (h : ExecTrace sem (rollback t).run w evs r w') :
    (r = .ok () → w'.coordinator.lookup t = none) ∧
      ∀ e, r = .error (.failed e) → RestoreFailed evs := by
  rcases Try.traced_bind h with ⟨e, hfail, -⟩ | ⟨first, rest, u, w₁, rfl, hhandle, hlocked⟩
  · obtain ⟨-, ⟨-, he⟩ | ⟨hfound, -⟩⟩ := traced_getHandle hfail
    · cases he
    · rw [hlisted] at hfound
      cases hfound
  · obtain ⟨rfl, -⟩ := traced_getHandle hhandle
    rcases traced_withGuard hlocked with rfl | ⟨inner, w₂, hfree, hbody, hinner, hcoordinator⟩
    · exact ⟨nofun, nofun⟩
    · obtain ⟨hok, herror⟩ := traced_rollbackLocked (w := w₁.setFree t false) hlisted
        (hrest hfree) hbody
      refine ⟨fun hr => hcoordinator ▸ hok hr, fun e hr => ?_⟩
      obtain ⟨tx, snap, err, hev⟩ := herror e hr
      exact RestoreFailed.right ⟨tx, snap, err, hinner _ hev⟩

/-! ## A pass over the stale transactions -/

theorem traced_attempt {x : Call α} {r : Except TxError α}
    (h : ExecTrace sem (attempt x).run w evs (.ok r) w') :
    (∃ a, r = .ok a ∧ ExecTrace sem x.run w evs (.ok a) w') ∨
      ∃ e, r = .error e ∧ ExecTrace sem x.run w evs (.error (.failed e)) w' := by
  obtain ⟨first, rest, r', w₁, rfl, hx, h⟩ := (Prog.traced_bind (p := x.run)).mp h
  cases r' with
  | ok a =>
      obtain ⟨rfl, hr, rfl⟩ := Prog.traced_pure.mp h
      rw [List.append_nil]
      exact .inl ⟨a, Except.ok.inj hr, hx⟩
  | error e =>
      cases e with
      | failed e =>
          obtain ⟨rfl, hr, rfl⟩ := Prog.traced_pure.mp h
          rw [List.append_nil]
          exact .inr ⟨e, Except.ok.inj hr, hx⟩
      | dropped =>
          obtain ⟨-, hr, -⟩ := Prog.traced_pure.mp h
          cases hr

/-- Those of `l` that a pass rolls back. -/
def rolled (w : World) (l : List (Uuid × Uuid)) : List (Uuid × Uuid) :=
  l.filter fun x => (w.cells x.1).listed

theorem rolled_aside {l : List (Uuid × Uuid)} (h : Aside t w w') (ht : t ∉ l.map Prod.fst) :
    rolled w' l = rolled w l := by
  refine List.filter_congr fun x hx => ?_
  have hne : x.1 ≠ t := fun he => ht (he ▸ List.mem_map_of_mem hx)
  rw [h.cells x.1 hne]

/-- A pass takes the transactions that it finds listed off the record, and counts them; the
others stay. -/
theorem traced_timeoutEach {l : List (Uuid × Uuid)} {count out : UInt32}
    (hnodup : (l.map Prod.fst).Nodup) (hrest : ∀ x ∈ l, w.Free x.1 → Rest (w.view x.1))
    (h : ExecTrace sem (timeoutEach l count).run w evs (.ok out) w')
    (hrestore : ¬RestoreFailed evs) :
    out = count + UInt32.ofNat (rolled w l).length ∧ w'.clock = w.clock ∧
      (∀ tx ∈ (rolled w l).map Prod.fst, w'.coordinator.lookup tx = none) ∧
      ∀ tx, tx ∉ (rolled w l).map Prod.fst →
        w'.coordinator.lookup tx = w.coordinator.lookup tx := by
  induction l generalizing w evs count with
  | nil =>
      obtain ⟨-, hout, rfl⟩ := Prog.traced_pure.mp h
      refine ⟨?_, rfl, fun tx htx => (nomatch htx), fun tx _ => rfl⟩
      rw [Except.ok.inj hout]
      exact (UInt32.add_zero count).symm
  | cons x l ih =>
      obtain ⟨hx, hnodup⟩ := List.nodup_cons.mp hnodup
      obtain ⟨first, rest, r, w₁, rfl, hattempt, htail⟩ := Try.traced_bind_ok h
      have hfirst : ¬RestoreFailed first := fun hf => hrestore hf.left
      have hlater : ¬RestoreFailed rest := fun hf => hrestore hf.right
      cases hlisted : (w.cells x.1).listed with
      | false =>
          have hrolled : rolled w (x :: l) = rolled w l := List.filter_cons_of_neg (by
            rw [hlisted]
            exact Bool.false_ne_true)
          rw [hrolled]
          rcases traced_attempt hattempt with ⟨a, -, hx⟩ | ⟨e, rfl, hx⟩
          · obtain ⟨-, e, he⟩ := traced_rollback_unlisted hlisted hx
            cases he
          · obtain ⟨rfl, -⟩ := traced_rollback_unlisted hlisted hx
            exact ih hnodup (fun y hy => hrest y (List.mem_cons_of_mem _ hy)) htail hlater
      | true =>
          have hmine := hrest x List.mem_cons_self
          rcases traced_attempt hattempt with ⟨a, rfl, hdone⟩ | ⟨e, rfl, hfail⟩
          · have haside : Aside x.1 w w₁ := traced_aside Concerns.rollback hdone
            have hgone : w₁.coordinator.lookup x.1 = none :=
              (traced_rollback_listed hlisted hmine hdone).1 rfl
            have hrest₁ : ∀ y ∈ l, w₁.Free y.1 → Rest (w₁.view y.1) := by
              intro y hy hfree
              have hne : y.1 ≠ x.1 := fun he => hx (he ▸ List.mem_map_of_mem hy)
              rw [haside.view hne]
              exact hrest y (List.mem_cons_of_mem _ hy) ((haside.free hne).mp hfree)
            obtain ⟨hout, hclock, hgoes, hstays⟩ := ih hnodup hrest₁ htail hlater
            rw [rolled_aside haside hx] at hout hgoes hstays
            have hrolled : rolled w (x :: l) = x :: rolled w l := List.filter_cons_of_pos hlisted
            rw [hrolled, List.map_cons]
            refine ⟨?_, hclock.trans haside.clock, fun tx htx => ?_, fun tx htx => ?_⟩
            · rw [hout, List.length_cons, Nat.add_comm _ 1, UInt32.ofNat_add]
              exact UInt32.add_assoc ..
            · by_cases hlast : tx ∈ (rolled w l).map Prod.fst
              · exact hgoes tx hlast
              · obtain rfl := (List.mem_cons.mp htx).resolve_right hlast
                rw [hstays _ hlast]
                exact hgone
            · obtain ⟨hne, hlast⟩ := not_or.mp (mt List.mem_cons.mpr htx)
              rw [hstays tx hlast]
              exact haside.record tx hne
          · exact absurd ((traced_rollback_listed hlisted hmine hfail).2 e rfl) hfirst

/-! ## The whole call -/

/-- A record that is older than `threshold` by the coordinator's clock. -/
def Stale (threshold : Nat) (w : World) (e : Sigma fun _ : Uuid => TxRecord) : Prop :=
  threshold < w.clock - e.2.startedAt

instance (threshold : Nat) (w : World) (e : Sigma fun _ : Uuid => TxRecord) :
    Decidable (Stale threshold w e) :=
  inferInstanceAs (Decidable (_ < _))

/-- The records of `w` that are gone in `w'`. -/
def removed (w w' : World) : List (Sigma fun _ : Uuid => TxRecord) :=
  w.coordinator.entries.filter fun e => (w'.coordinator.lookup e.1).isNone

theorem mem_entries_iff {e : Sigma fun _ : Uuid => TxRecord} :
    e ∈ w.coordinator.entries ↔ w.coordinator.lookup e.1 = some e.2 :=
  AList.mem_lookup_iff.symm

section Pass

variable {threshold : Nat} {l : List (Uuid × Uuid)}

/-- What is scanned: the stale records, in any order. -/
def Scanned (threshold : Nat) (w : World) (l : List (Uuid × Uuid)) : Prop :=
  l.Perm ((w.coordinator.entries.filter fun e => Stale threshold w e).map
    fun e => (e.1, e.2.sessionId))

theorem Scanned.nodup (h : Scanned threshold w l) : (l.map Prod.fst).Nodup := by
  refine (h.map Prod.fst).nodup_iff.mpr ?_
  rw [List.map_map]
  exact (List.filter_sublist.map Sigma.fst).nodup w.coordinator.nodupKeys

/-- A record that is scanned and listed is rolled back. -/
theorem Scanned.mem_rolled (h : Scanned threshold w l) {e : Sigma fun _ : Uuid => TxRecord}
    (he : e ∈ w.coordinator.entries) : e.1 ∈ (rolled w l).map Prod.fst ↔
      Stale threshold w e ∧ (w.cells e.1).listed = true := by
  constructor
  · intro hmem
    obtain ⟨x, hx, hfst⟩ := List.mem_map.mp hmem
    obtain ⟨hxl, hlisted⟩ := List.mem_filter.mp hx
    obtain ⟨e', he', rfl⟩ := List.mem_map.mp (h.mem_iff.mp hxl)
    obtain ⟨hentry, hstale⟩ := List.mem_filter.mp he'
    obtain rfl : e' = e := w.coordinator.nodupKeys.eq_of_fst_eq hentry he hfst
    exact ⟨of_decide_eq_true hstale, hlisted⟩
  · rintro ⟨hstale, hlisted⟩
    have hscanned : (e.1, e.2.sessionId) ∈ l :=
      h.mem_iff.mpr (List.mem_map_of_mem (List.mem_filter.mpr ⟨he, decide_eq_true hstale⟩))
    exact List.mem_map.mpr ⟨_, List.mem_filter.mpr ⟨hscanned, hlisted⟩, rfl⟩

/-- The number of those that are rolled back. -/
theorem Scanned.length_rolled (h : Scanned threshold w l) : (rolled w l).length =
    (w.coordinator.entries.filter fun e =>
      Stale threshold w e ∧ (w.cells e.1).listed = true).length := by
  have hperm := h.filter fun x => (w.cells x.1).listed
  rw [show (rolled w l).length = _ from hperm.length_eq, List.filter_map, List.length_map,
    List.filter_filter]
  congr 1
  refine List.filter_congr fun e _ => ?_
  show ((w.cells e.1).listed && decide (Stale threshold w e)) = _
  rw [Bool.decide_and, Bool.decide_eq_true, Bool.and_comm]

/-- A pass clears what is stale, and counts what it removes, when all that is stale is listed
and there is no more of it than a `u32` counts. -/
theorem Scanned.clears_iff (hscan : Scanned threshold w l)
    (hrest : ∀ tx, w.Free tx → Rest (w.view tx)) {count : UInt32}
    (h : ExecTrace sem (timeoutEach l 0).run w evs (.ok count) w')
    (hrestore : ¬RestoreFailed evs) :
    ((∀ e ∈ w'.coordinator.entries, ¬Stale threshold w' e) ∧
      count.toNat = (removed w w').length) ↔
    (∀ e ∈ w.coordinator.entries, Stale threshold w' e → (w.cells e.1).listed = true) ∧
    (w.coordinator.entries.filter fun e => Stale threshold w' e).length < UInt32.size := by
  obtain ⟨hcount, hclock, hgoes, hstays⟩ :=
    traced_timeoutEach hscan.nodup (fun x _ => hrest x.1) h hrestore
  have hstale : ∀ e, Stale threshold w' e ↔ Stale threshold w e := by
    intro e
    unfold Stale
    rw [hclock]
  simp only [hstale]
  -- the records that are gone are those rolled back, and these the stale ones that are listed
  have hremoved : removed w w' = w.coordinator.entries.filter fun e =>
      Stale threshold w e ∧ (w.cells e.1).listed = true := by
    refine List.filter_congr fun e he => ?_
    rw [Bool.eq_iff_iff, decide_eq_true_iff, ← hscan.mem_rolled he, Option.isNone_iff_eq_none]
    refine ⟨fun hnone => ?_, hgoes e.1⟩
    by_contra hkept
    rw [hstays e.1 hkept, mem_entries_iff.mp he] at hnone
    cases hnone
  have hcounted : count.toNat = (removed w w').length % UInt32.size := by
    rw [hcount, hremoved, hscan.length_rolled, UInt32.zero_add]
    exact UInt32.toNat_ofNat
  have hcleared : (∀ e ∈ w'.coordinator.entries, ¬Stale threshold w e) ↔
      ∀ e ∈ w.coordinator.entries, Stale threshold w e → (w.cells e.1).listed = true := by
    constructor
    · intro hnone e he hold
      by_contra hlisted
      have hkept : e.1 ∉ (rolled w l).map Prod.fst := fun hmem =>
        hlisted ((hscan.mem_rolled he).mp hmem).2
      refine hnone e (mem_entries_iff.mpr ?_) hold
      rw [hstays e.1 hkept]
      exact mem_entries_iff.mp he
    · intro hlisted e he hold
      have hlookup : w'.coordinator.lookup e.1 = some e.2 := mem_entries_iff.mp he
      by_cases hmem : e.1 ∈ (rolled w l).map Prod.fst
      · rw [hgoes e.1 hmem] at hlookup
        cases hlookup
      · rw [hstays e.1 hmem] at hlookup
        have he' : e ∈ w.coordinator.entries := mem_entries_iff.mpr hlookup
        exact hmem ((hscan.mem_rolled he').mpr ⟨hold, hlisted e he' hold⟩)
  rw [hcleared, hcounted]
  refine and_congr_right fun hlisted => ?_
  have hall : (removed w w').length =
      (w.coordinator.entries.filter fun e => Stale threshold w e).length := by
    rw [hremoved]
    congr 1
    refine List.filter_congr fun e he => ?_
    exact decide_eq_decide.mpr (and_iff_left_of_imp (hlisted e he))
  rw [hall]
  exact Nat.mod_eq_iff_lt (by decide)

end Pass

/-- In every reachable state: after a pass with nothing else in between, in which every snapshot
could be restored, no stale transaction is on record and the count is that of the transactions
removed, just when all the stale ones were in the `active` map and a `u32` can count them. -/
theorem timeoutStale_clears_iff [Crates] [Texts] {c : System} (hc : Reachable c)
    {olderThanSecs : Nat} {count : UInt32}
    (h : ExecTrace sem (timeoutStale olderThanSecs).run c.world evs (.ok count) w')
    (hrestore : ¬RestoreFailed evs) :
    ((∀ e ∈ w'.coordinator.entries, ¬Stale (olderThanSecs * 1000000000) w' e) ∧
      count.toNat = (removed c.world w').length) ↔
    (∀ e ∈ c.world.coordinator.entries, Stale (olderThanSecs * 1000000000) w' e →
      (c.world.cells e.1).listed = true) ∧
    (c.world.coordinator.entries.filter fun e =>
      Stale (olderThanSecs * 1000000000) w' e).length < UInt32.size := by
  obtain ⟨first, rest, l, w₁, rfl, hscan, hpass⟩ := Try.traced_bind_ok h
  obtain ⟨l', hperformed, hl⟩ := Try.traced_lift.mp hscan
  obtain rfl := Except.ok.inj hl
  obtain ⟨-, now, -, hperm, rfl⟩ := Prog.traced_perform.mp hperformed
  -- the scan moves the clock and nothing else
  have hrest : ∀ tx, ({ c.world with clock := now } : World).Free tx →
      Rest (({ c.world with clock := now } : World).view tx) := hc.guarded.inv
  exact Scanned.clears_iff (w := { c.world with clock := now }) hperm hrest hpass
    fun hfailed => hrestore hfailed.right

/-! ## Which transactions are never listed -/

/-- What is in the `active` map has a state behind its mutex. -/
def ListedHasState (w : World) : Prop :=
  ∀ tx, (w.cells tx).listed = true → (w.cells tx).state.isSome

theorem ListedHasState.setCell {c : Cell} (h : ListedHasState w)
    (hc : c.listed = true → c.state.isSome) : ListedHasState (w.setCell t c) := by
  intro tx
  show (Function.update w.cells t c tx).listed = true → (Function.update w.cells t c tx).state.isSome
  by_cases htx : tx = t
  · subst htx
    rw [Function.update_self]
    exact hc
  · rw [Function.update_of_ne htx]
    exact h tx

theorem sem_listedHasState {o : Op} {r : o.Ret} (hsem : sem o w r w') (h : ListedHasState w) :
    ListedHasState w' := by
  cases o with
  | insert t' s => obtain rfl := hsem; exact h.setCell fun _ => rfl
  | store t' s => obtain rfl := hsem; exact h.setCell fun _ => rfl
  | remove t' => obtain rfl := hsem; exact h.setCell fun hl => nomatch hl
  | hand t' ctx => obtain rfl := hsem; exact h.setCell (h t')
  | unlock t' a => obtain rfl := hsem; exact h.setCell (h t')
  | append t' entry => obtain rfl := hsem; exact h.setCell (h t')
  | emit t' reason => obtain rfl := hsem; exact h.setCell (h t')
  | storeCtx t' ctx => obtain rfl := hsem; exact h.setCell (h t')
  | engine t' call => obtain ⟨b, -, rfl⟩ := hsem; exact h.setCell (h t')
  | prepare t' more =>
      cases r with
      | ok u => obtain ⟨-, rfl⟩ := hsem; exact h.setCell (h t')
      | error e => obtain ⟨-, rfl⟩ := hsem; exact h
  | lock t' =>
      cases r with
      | true => obtain ⟨-, rfl⟩ := hsem; exact h
      | false => obtain rfl := hsem; exact h
  | extendWriteSet t' keys =>
      simp only [sem] at hsem
      split at hsem
      next record _ => rw [hsem]; exact h
      next => rw [hsem]; exact h
  | register t' s => obtain ⟨now, -, rfl⟩ := hsem; exact h
  | staleTransactions n => obtain ⟨now, -, -, rfl⟩ := hsem; exact h
  | newV4 => obtain ⟨-, rfl⟩ := hsem; exact h
  | deregister t' => obtain rfl := hsem; exact h
  | now => obtain rfl := hsem; exact h
  | get t' => obtain ⟨-, rfl⟩ := hsem; exact h
  | load t' => obtain ⟨-, rfl⟩ := hsem; exact h
  | loadCtx t' => obtain ⟨-, rfl⟩ := hsem; exact h
  | component c => obtain ⟨-, rfl⟩ := hsem; exact h

/-- A transaction begun with `begin_simple` is never in the `active` map, so that a pass which
finds it stale leaves it on record. -/
theorem context_unlisted [Crates] [Texts] {c : System} (hc : Reachable c)
    {ctx : TransactionContext} (hctx : (c.world.cells tx).ctx = some ctx)
    (hfree : c.world.Free tx) : (c.world.cells tx).listed = false := by
  have hstate : ListedHasState c.world := by
    refine Pool.Reachable.components (fun w hw tx hlisted => ?_) sem_listedHasState hc
    rw [hw.cells tx] at hlisted
    cases hlisted
  have hsimple : Simple (c.world.view tx) := (hc.guarded.inv tx hfree).simple_of_ctx hctx
  cases hlisted : (c.world.cells tx).listed with
  | false => rfl
  | true =>
      have hsome := hstate tx hlisted
      rw [show (c.world.cells tx).state = none from hsimple.noState] at hsome
      cases hsome

/-! ## Two passes -/

section Witnesses

attribute [local instance] Crates.sample Texts.sample

/-- A request on a manager with no engines. -/
def asked (req : Request) : System := serial ⟨{ up := fun _ => false }, [], []⟩ [req]

theorem asked_reachable (req : Request) : Reachable (asked req) :=
  Reachable.later (.init ⟨rfl, fun _ => rfl, rfl⟩) (serial_later _ _)

/-- The same 31 seconds later. -/
def World.aged (w : World) : World := { w with clock := 31000000000 }

/-- What a pass over transaction 1 comes to. -/
def timedOut (w : World) : Except Stop UInt32 × World :=
  (timeoutEach [(1, 7)] 0).run.run (serve fun _ _ => none) w.aged

/-- A pass with a threshold of 30 seconds that finds transaction 1. -/
theorem timeoutStale_one {w : World} {n : UInt32} (hclock : w.clock = 0)
    (hentries : w.coordinator.entries = [⟨1, ⟨7, [], 0⟩⟩])
    (hsteady : (timeoutEach [(1, 7)] 0).run.steady ready (serve fun _ _ => none) w.aged = true)
    (hcount : (timedOut w).1 = .ok n) : ∃ evs, ¬RestoreFailed evs ∧
      ExecTrace sem (timeoutStale 30).run w evs (.ok n) (timedOut w).2 := by
  have hpass := Prog.traced_steady (serve_refines fun _ _ => none) hsteady
  unfold timedOut at hcount
  rw [hcount] at hpass
  refine ⟨⟨.staleTransactions (30 * 1000000000), [(1, 7)]⟩ :: _, ?_, .op ⟨31000000000, ?_, ?_, rfl⟩
    hpass⟩
  · rintro ⟨tx, snap, err, hev⟩
    rcases List.mem_cons.mp hev with hev | hev
    · cases hev
    · obtain ⟨w', hreply⟩ := Prog.reply_of_mem_events hev
      cases hreply
  · rw [hclock]
    exact Nat.zero_le _
  · rw [hentries]
    decide

/-- A transaction begun with `begin` is timed out. -/
theorem timeoutStale_clears_begun :
    (∀ e ∈ (timedOut (asked (.begin ⟨7, 8⟩)).world).2.coordinator.entries,
      ¬Stale (30 * 1000000000) (timedOut (asked (.begin ⟨7, 8⟩)).world).2 e) ∧
    (1 : UInt32).toNat = (removed (asked (.begin ⟨7, 8⟩)).world
      (timedOut (asked (.begin ⟨7, 8⟩)).world).2).length := by
  obtain ⟨evs, hrestore, h⟩ := timeoutStale_one (w := (asked (.begin ⟨7, 8⟩)).world) (n := 1)
    rfl rfl rfl rfl
  exact (timeoutStale_clears_iff (asked_reachable _) h hrestore).mpr ⟨by decide +kernel,
    by decide +kernel⟩

/-- A transaction begun with `begin_simple` is never timed out: it is on record and not in the
`active` map. -/
theorem simple_stays : ¬∀ {c : System}, Reachable c → ∀ olderThanSecs evs count w',
    ExecTrace sem (timeoutStale olderThanSecs).run c.world evs (.ok count) w' →
      ¬RestoreFailed evs →
        (∀ e ∈ w'.coordinator.entries, ¬Stale (olderThanSecs * 1000000000) w' e) ∧
          count.toNat = (removed c.world w').length := by
  intro hclaim
  obtain ⟨evs, hrestore, h⟩ := timeoutStale_one
    (w := (asked (.beginSimple 7 .snapshot)).world) (n := 0) rfl rfl rfl rfl
  obtain ⟨hnone, -⟩ := hclaim (asked_reachable _) 30 evs 0 _ h hrestore
  exact hnone ⟨1, ⟨7, [], 0⟩⟩ (mem_entries_iff.mpr rfl) (by decide +kernel)

end Witnesses

end ClawDB.Transaction
