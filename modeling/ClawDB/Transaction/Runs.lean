/-
# `Transaction.Runs` — runs of the manager

What follows, for every interleaving of calls, from each call keeping to the lifecycle by
itself.

* A transaction is settled once: one commit or rollback returns `Ok`, and after it the
  transaction does not change, whoever still holds a handle.
* While it is open and nobody holds its mutex, the coordinator has on record what its buffer
  holds.
* Nothing passes `prepare` whose writes meet what another transaction has on record then; so
  two transactions that both have a key on record, and have not passed, do not both commit.
-/
import ClawDB.Transaction.Lifecycle

namespace ClawDB.Transaction

open Effect

/-! ## Answers -/

/-- The answers that settle a transaction. -/
def Answer.settles (a : Answer) : Bool := a ≠ .buffer

theorem closed_of_settles {v : View} {a : Answer} (ha : a ∈ v.cell.answered)
    (hs : a.settles = true) : v.Closed := by
  cases a with
  | commit => exact .inl ha
  | rollback => exact .inr ha
  | buffer => cases hs

theorem filter_settles_of_open {v : View} (h : ¬v.Closed) :
    v.cell.answered.filter Answer.settles = [] := by
  rw [List.filter_eq_nil_iff]
  exact fun a ha hs => h (closed_of_settles ha hs)

theorem Move.closed {tx : Uuid} {w w' : World} (h : Move tx w w') (hc : (w.view tx).Closed) :
    w'.view tx = w.view tx := by
  cases h with
  | still h => exact h
  | keeps h => exact absurd hc h.opened
  | passes hopen _ _ _ _ _ => exact absurd hc hopen

theorem Move.answered {tx : Uuid} {w w' : World} (h : Move tx w w') :
    (w'.cells tx).answered = (w.cells tx).answered ∨
      ¬(w.view tx).Closed ∧ ∃ a, (w'.cells tx).answered = (w.cells tx).answered ++ [a] := by
  cases h with
  | still h => exact .inl (congrArg (fun v => v.cell.answered) h)
  | keeps h => exact h.answers.imp id fun ha => ⟨h.opened, ha⟩
  | passes _ _ _ h _ _ => exact .inl (congrArg (fun v => v.cell.answered) h)

/-! ## Replies -/

/-- The transaction a request is about, and the answer that `Ok` is to it. -/
def Request.asks : Request → Option (Uuid × Answer)
  | .commit tx => some (tx, .commit)
  | .rollback tx => some (tx, .rollback)
  | .bufferVectorUpsert tx _ => some (tx, .buffer)
  | _ => none

/-- A request on a transaction that returned `Ok`. -/
def Succeeds (req : Request) (rep : Reply) : Prop :=
  req.asks.isSome ∧ ∃ u, rep = .done (.ok u)

/-- The operation such a reply follows. -/
def Request.last (req : Request) : Op :=
  match req.asks with
  | some (tx, a) => .unlock tx (some a)
  | none => .now

/-- The answer a request on `tx` got, if it got one. -/
def answerOn {M : Type} (tx : Uuid) (e : Ended Request Reply M) : Option Answer :=
  match e.req.asks, e.rep with
  | some (t, a), some (.done (.ok _)) => if t = tx then some a else none
  | _, _ => none

theorem succeeds_of_answerOn {M : Type} {tx : Uuid} {e : Ended Request Reply M} {a : Answer}
    (h : answerOn tx e = some a) :
    e.req.asks = some (tx, a) ∧ ∃ rep, e.rep = some rep ∧ Succeeds e.req rep := by
  unfold answerOn at h
  split at h
  next t b u hasks hrep =>
      split at h
      next ht =>
          obtain rfl := Option.some.inj h
          subst ht
          exact ⟨hasks, _, hrep, by rw [hasks]; rfl, u, rfl⟩
      next => cases h
  next => cases h

/-- What a guarded body returns, it returns as the guard is dropped. -/
theorem endsWith_withGuard {ok : Except Stop Unit → Prop} {tx : Uuid} {a : Answer}
    (hok : ∀ r, ok r → ∃ u, r = .ok u) (x : Call Unit) (before : Option Op) :
    Pool.EndsWith (F := Shared) ok (.unlock tx (some a)) before
      (getHandle tx >>= fun _ => withGuard tx (some a) x).run := by
  rw [Try.run_bind]
  refine Pool.EndsWith.bind (F := Shared) (fun r before => ?_) before
  cases r with
  | error e =>
      intro h
      obtain ⟨u, hu⟩ := hok _ h
      cases hu
  | ok u =>
      intro acquired
      cases acquired with
      | false =>
          intro h
          obtain ⟨u, hu⟩ := hok _ h
          cases hu
      | true =>
          show Pool.EndsWith (F := Shared) ok _ _ (x.run >>= _)
          refine Pool.EndsWith.bind (fun r before => ?_) _
          intro _ h
          obtain ⟨u, rfl⟩ := hok _ h
          rfl

theorem sem_answered {o : Op} {r : o.Ret} {w w' : World} {tx : Uuid} {a : Answer}
    (ho : o = .unlock tx (some a)) (h : sem o w r w') :
    (w'.cells tx).answered = (w.cells tx).answered ++ [a] := by
  subst ho
  obtain rfl := h
  show (Function.update w.cells tx _ tx).answered = _
  rw [Function.update_self]
  rfl

/-! ## Passing the gate -/

/-- A transaction passes the gate with all it has written, and none of it on record for
another. -/
theorem Move.passing {tx : Uuid} {w w' : World} {ws : List String} (h : Move tx w w')
    (hbefore : (w.view tx).cell.gate = none) (hafter : (w'.view tx).cell.gate = some ws) :
    ws = (w.view tx).writeSet ∧ (∀ k ∈ (w.view tx).recorded, k ∈ ws) ∧
      ∀ tx', tx' ≠ tx → ∀ k ∈ (w.view tx').recorded, k ∉ ws := by
  cases h with
  | still h => rw [h, hbefore] at hafter; cases hafter
  | keeps h => rw [h.gate, hbefore] at hafter; cases hafter
  | passes _ _ _ h hrec hothers =>
      rw [h] at hafter
      obtain rfl := Option.some.inj hafter
      exact ⟨rfl, hrec, hothers⟩

/-- A key is on record for a transaction that has not passed. -/
def Waits (k : String) (v : View) : Prop := v.cell.gate = none ∧ k ∈ v.recorded

/-- On the way back without having passed. -/
def Lost (v : View) : Prop := v.cell.gate = none ∧ v.Aborting

theorem Move.lost {tx : Uuid} {w w' : World} (h : Move tx w w') (hl : Lost (w.view tx)) :
    Lost (w'.view tx) := by
  cases h with
  | still h => rw [h]; exact hl
  | keeps h => exact ⟨h.gate.trans hl.1, h.aborting hl.1 hl.2⟩
  | passes _ _ hn _ _ _ => exact absurd hl.2 hn

/-- While another transaction has the key on record too, a transaction that waits goes on
waiting, or is rolled back. -/
theorem Move.waits {tx tx' : Uuid} {w w' : World} {k : String} (h : Move tx w w')
    (hne : tx' ≠ tx) (hmine : Waits k (w.view tx)) (hother : k ∈ (w.view tx').recorded) :
    Waits k (w'.view tx) ∨ Lost (w'.view tx) := by
  cases h with
  | still h => rw [h]; exact .inl hmine
  | keeps h =>
      have hgate := h.gate.trans hmine.1
      exact (h.recorded hmine.1).imp (fun hk => ⟨hgate, hk k hmine.2⟩) fun ha => ⟨hgate, ha⟩
  | passes _ _ _ _ hrec hothers => exact absurd (hrec k hmine.2) (hothers tx' hne k hother)

/-- Two transactions with a key in common on record: at most one gets past the other. -/
def Rivals (tx tx' : Uuid) (k : String) (w : World) : Prop :=
  (Waits k (w.view tx) ∧ Waits k (w.view tx')) ∨ Lost (w.view tx) ∨ Lost (w.view tx')

theorem rivals_move {tx tx' : Uuid} {k : String} (hne : tx ≠ tx') {w w' : World}
    (hmove : ∀ t, Move t w w') (h : Rivals tx tx' k w) : Rivals tx tx' k w' := by
  rcases h with ⟨hw, hw'⟩ | h | h
  · rcases (hmove tx).waits hne.symm hw hw'.2 with h | h
    · rcases (hmove tx').waits hne hw' hw.2 with h' | h'
      · exact .inl ⟨h, h'⟩
      · exact .inr (.inr h')
    · exact .inr (.inl h)
  · exact .inr (.inl ((hmove tx).lost h))
  · exact .inr (.inr ((hmove tx').lost h))

/-! ## Runs -/

section Runs

variable [Crates] [Texts]

/-- The manager at work: what is shared, and the calls in progress. -/
abbrev System := Pool Shared World Request Reply (Option Uuid)

abbrev Step : System → System → Prop := Pool.Step server (Discipline.holder parts)

/-- Any number of steps. -/
abbrev Later : System → System → Prop := Relation.ReflTransGen Step

/-- No transaction yet; which components are started is any. -/
structure World.Started (w : World) : Prop where
  ids : w.ids = []
  cells : ∀ tx, w.cells tx = {}
  coordinator : w.coordinator = ∅

abbrev Reachable : System → Prop := Pool.Reachable server (Discipline.holder parts) World.Started

theorem Reachable.guarded {c : System} (hc : Reachable c) : discipline.Guarded c := by
  refine Discipline.reachable_guarded lifecycle_obeyed (fun w hw tx _ => ?_) hc
  refine .new ?_ (hw.cells tx) ?_
  · show ¬tx ∈ w.ids
    rw [hw.ids]
    exact List.not_mem_nil
  · show w.coordinator.lookup tx = none
    rw [hw.coordinator]
    exact AList.lookup_empty tx

theorem Reachable.later {c c' : System} (hc : Reachable c) (h : Later c c') : Reachable c' := by
  induction h with
  | refl => exact hc
  | tail _ hs ih => exact .step ih hs

theorem Reachable.move {c c' : System} (hc : Reachable c) (h : Step c c') (tx : Uuid) :
    Move tx c.world c'.world :=
  (Discipline.guarded_step lifecycle_obeyed hc.guarded h).2 tx

/-- What a run keeps that starts in a reachable system. -/
theorem Reachable.stays {I : World → Prop} {c c' : System} (hc : Reachable c)
    (hI : ∀ w w', (∀ tx, Move tx w w') → I w → I w') (h : Later c c') (hi : I c.world) :
    I c'.world :=
  Discipline.stays_true lifecycle_obeyed hI hc.guarded h hi

/-- What holds at the start, and every move keeps. -/
theorem Reachable.always {I : World → Prop} {c : System} (hc : Reachable c)
    (hstart : ∀ w, w.Started → I w) (hI : ∀ w w', (∀ tx, Move tx w w') → I w → I w') :
    I c.world := by
  induction hc with
  | init hw => exact hstart _ hw
  | step hc hs ih => exact hI _ _ (Reachable.move hc hs) ih

/-- A transaction is settled at most once. -/
theorem settles_once {c : System} (hc : Reachable c) (tx : Uuid) :
    ((c.world.cells tx).answered.filter Answer.settles).length ≤ 1 := by
  refine hc.always (I := fun w => ((w.cells tx).answered.filter Answer.settles).length ≤ 1) ?_ ?_
  · intro w hw
    rw [hw.cells tx]
    exact Nat.zero_le 1
  · intro w w' hmove hw
    rcases (hmove tx).answered with he | ⟨hopen, a, he⟩
    · rw [he]; exact hw
    · have hnil : (w.cells tx).answered.filter Answer.settles = [] :=
        filter_settles_of_open (v := w.view tx) hopen
      rw [he, List.filter_append, hnil, List.nil_append]
      exact List.length_filter_le _ _

/-- A settled transaction is frozen. -/
theorem settled_frozen {c c' : System} (hc : Reachable c) {tx : Uuid}
    (hclosed : (c.world.view tx).Closed) (h : Later c c') :
    c'.world.view tx = c.world.view tx := by
  refine hc.stays (I := fun w => w.view tx = c.world.view tx) ?_ h rfl
  intro w w' hmove hw
  rw [← hw] at hclosed ⊢
  exact (hmove tx).closed hclosed

theorem handler_endsWith (req : Request) :
    Pool.EndsWith (Succeeds req) req.last none (handler req) := by
  have hdone : ∀ {req : Request} {r : Except Stop Unit}, Succeeds req (.done r) →
      ∃ u, r = .ok u := by
    rintro req r ⟨-, u, hu⟩
    exact ⟨u, Reply.done.inj hu⟩
  cases req with
  | commit tx => exact (endsWith_withGuard (fun _ => hdone) _ _).map
  | rollback tx => exact (endsWith_withGuard (fun _ => hdone) _ _).map
  | bufferVectorUpsert tx op => exact (endsWith_withGuard (fun _ => hdone) _ _).map
  | _ => exact Pool.EndsWith.of_never (fun _ h => nomatch h.1) _ _

/-! ## What replies say -/

/-- The answers the clients have seen on a transaction. -/
def seen (tx : Uuid) (c : System) : List Answer := c.ended.filterMap (answerOn tx)

/-- A step shows a client at most the answer that it gives. -/
theorem step_seen {c c' : System} (hc : ∀ th ∈ c.running,
      Pool.EndsWith (Succeeds th.req) th.req.last none th.prog) (h : Step c c') (tx : Uuid) :
    seen tx c' = seen tx c ∨ ∃ a, seen tx c' = seen tx c ++ [a] ∧
      (c'.world.cells tx).answered = (c.world.cells tx).answered ++ [a] := by
  obtain ⟨-, l, hl, hlen, hrep⟩ := Pool.step_replies (fun req _ => handler_endsWith req) hc h
  have hseen : seen tx c' = seen tx c ++ l.filterMap (answerOn tx) := by
    unfold seen
    rw [hl, List.filterMap_append]
  cases l with
  | nil => exact .inl (by rw [hseen, List.filterMap_nil, List.append_nil])
  | cons e rest =>
      obtain rfl : rest = [] :=
        List.length_eq_zero_iff.mp (Nat.le_zero.mp (Nat.le_of_succ_le_succ hlen))
      cases ha : answerOn tx e with
      | none =>
          refine .inl ?_
          rw [hseen, List.filterMap_cons_none ha, List.filterMap_nil, List.append_nil]
      | some a =>
          obtain ⟨hasks, rep, hr, hok⟩ := succeeds_of_answerOn ha
          obtain ⟨r, hsem⟩ := hrep e List.mem_cons_self rep hr hok
          have hsem : sem e.req.last c.world r c'.world := hsem
          have hlast : e.req.last = .unlock tx (some a) := by
            unfold Request.last
            rw [hasks]
          refine .inr ⟨a, ?_, sem_answered hlast hsem⟩
          rw [hseen, List.filterMap_cons_some ha, List.filterMap_nil]

theorem Reachable.endsWith {c : System} (hc : Reachable c) : ∀ th ∈ c.running,
    Pool.EndsWith (Succeeds th.req) th.req.last none th.prog := by
  induction hc with
  | init _ => intro th hth; cases hth
  | step _ hs ih => exact (Pool.step_replies (fun req _ => handler_endsWith req) ih hs).1

/-- What clients have seen is what was answered, some of it inside `timeout_stale`. -/
theorem seen_sublist {c : System} (hc : Reachable c) (tx : Uuid) :
    (seen tx c).Sublist (c.world.cells tx).answered := by
  induction hc with
  | init _ => exact List.nil_sublist _
  | @step c c' hc hs ih =>
      have hgrow : (c.world.cells tx).answered.Sublist (c'.world.cells tx).answered := by
        rcases (Reachable.move hc hs tx).answered with he | ⟨-, a, he⟩
        · rw [he]
        · rw [he]; exact List.sublist_append_left _ _
      rcases step_seen (Reachable.endsWith hc) hs tx with he | ⟨a, he, ha⟩
      · rw [he]; exact ih.trans hgrow
      · rw [he, ha]; exact ih.append (List.Sublist.refl [a])

/-- On a settled transaction no further call returns `Ok`. -/
theorem seen_frozen {c c' : System} (hc : Reachable c) {tx : Uuid}
    (hclosed : (c.world.view tx).Closed) (h : Later c c') : seen tx c' = seen tx c := by
  induction h with
  | refl => rfl
  | @tail b d hb hs ih =>
      have hview : b.world.view tx = c.world.view tx := settled_frozen hc hclosed hb
      have hreach : Reachable b := hc.later hb
      rcases step_seen (Reachable.endsWith hreach) hs tx with he | ⟨a, -, ha⟩
      · rw [he, ih]
      · have hview' : d.world.view tx = b.world.view tx :=
          (Reachable.move hreach hs tx).closed (hview ▸ hclosed)
        have hsame : (d.world.cells tx).answered = (b.world.cells tx).answered :=
          congrArg (fun v => v.cell.answered) hview'
        rw [hsame] at ha
        simp at ha

/-! ## The write set on record -/

/-- While a transaction is open and its mutex free, its buffer is what is on record. -/
theorem recorded_of_free {c : System} (hc : Reachable c) {tx : Uuid} {s : TxState}
    (hs : (c.world.cells tx).state = some s) (hactive : s.status = .active)
    (hfree : c.world.Free tx) : ∃ r, c.world.coordinator.lookup tx = some r ∧
      r.writeSet = s.vectorBuffer.map VectorUpsertOp.id := by
  have hrest : Rest (c.world.view tx) := hc.guarded.inv tx hfree
  obtain ⟨r, hr, hw⟩ := (hrest.idle_of_active hs hactive).recorded
  refine ⟨r, hr, ?_⟩
  rw [hw]
  unfold View.buffered
  rw [show (c.world.view tx).cell.state = some s from hs]
  rfl

/-- A transaction is settled once, frozen from then on, and on record while it is open. -/
theorem settled_once {c : System} (hc : Reachable c) (tx : Uuid) :
    ((seen tx c).filter Answer.settles).length ≤ 1 ∧
    ((c.world.cells tx).answered.filter Answer.settles).length ≤ 1 ∧
    (seen tx c).Sublist (c.world.cells tx).answered ∧
    ((c.world.view tx).Closed → ∀ c', Later c c' →
      c'.world.view tx = c.world.view tx ∧ seen tx c' = seen tx c) ∧
    ∀ s, (c.world.cells tx).state = some s → s.status = .active → c.world.Free tx →
      ∃ r, c.world.coordinator.lookup tx = some r ∧
        r.writeSet = s.vectorBuffer.map VectorUpsertOp.id := by
  have hsub : (seen tx c).Sublist (c.world.cells tx).answered := seen_sublist hc tx
  refine ⟨?_, settles_once hc tx, hsub, ?_, ?_⟩
  · exact Nat.le_trans (hsub.filter Answer.settles).length_le (settles_once hc tx)
  · exact fun hclosed c' h => ⟨settled_frozen hc hclosed h, seen_frozen hc hclosed h⟩
  · exact fun s hs hactive hfree => recorded_of_free hc hs hactive hfree

/-! ## The gate -/

/-- Only what has passed is committed. -/
theorem committed_passed {c : System} (hc : Reachable c) {tx : Uuid}
    (h : (c.world.view tx).Committed) : (c.world.view tx).cell.gate.isSome := by
  revert h
  refine hc.always (I := fun w => (w.view tx).Committed → (w.view tx).cell.gate.isSome) ?_ ?_
  · rintro w hw (⟨s, hs, -⟩ | ⟨ctx, hctx, -⟩)
    · rw [show (w.view tx).cell = {} from hw.cells tx] at hs; cases hs
    · rw [show (w.view tx).cell = {} from hw.cells tx] at hctx; cases hctx
  · intro w w' hmove ih hcommitted
    cases hmove tx with
    | still h => rw [h] at hcommitted ⊢; exact ih hcommitted
    | keeps h =>
        rw [h.gate]
        exact (h.committed hcommitted).elim ih id
    | passes _ _ _ h _ _ => rw [h]; rfl

/-- Two transactions with a key in common on record, neither of which has passed the gate,
do not both commit. -/
theorem not_both_commit {c c' : System} (hc : Reachable c) {tx tx' : Uuid} {k : String}
    (hne : tx ≠ tx') (h : Waits k (c.world.view tx)) (h' : Waits k (c.world.view tx'))
    (hlater : Later c c') :
    ¬((c'.world.view tx).Committed ∧ (c'.world.view tx').Committed) := by
  rintro ⟨hcommitted, hcommitted'⟩
  have hreach : Reachable c' := hc.later hlater
  have hgate : ∀ {v : View}, v.cell.gate = none → v.cell.gate.isSome → False := by
    intro v hn hs
    rw [hn] at hs
    cases hs
  have hrivals : Rivals tx tx' k c'.world :=
    hc.stays (fun _ _ hmove => rivals_move hne hmove) hlater (.inl ⟨h, h'⟩)
  rcases hrivals with ⟨h, -⟩ | h | h
  · exact hgate h.1 (committed_passed hreach hcommitted)
  · exact hgate h.1 (committed_passed hreach hcommitted)
  · exact hgate h.1 (committed_passed hreach hcommitted')

/-- What the gate keeps apart. -/
theorem conflicting_writes_excluded {c : System} (hc : Reachable c) :
    (∀ c' tx ws, Step c c' → (c.world.cells tx).gate = none →
      (c'.world.cells tx).gate = some ws →
        ws = (c.world.view tx).writeSet ∧
          ∀ tx', tx' ≠ tx → ∀ k ∈ (c.world.view tx').recorded, k ∉ ws) ∧
    (∀ tx, (c.world.view tx).Committed → (c.world.cells tx).gate.isSome) ∧
    ∀ tx tx' k, tx ≠ tx' → Waits k (c.world.view tx) → Waits k (c.world.view tx') →
      ∀ c', Later c c' →
        ¬((c'.world.view tx).Committed ∧ (c'.world.view tx').Committed) := by
  refine ⟨?_, fun tx => committed_passed hc, ?_⟩
  · intro c' tx ws hs hbefore hafter
    obtain ⟨he, -, hothers⟩ := (Reachable.move hc hs tx).passing hbefore hafter
    exact ⟨he, hothers⟩
  · exact fun tx tx' k hne h h' c' => not_both_commit hc hne h h'

end Runs

/-! ## Two runs -/

section Witnesses

attribute [local instance] Crates.sample Texts.sample

/-- All components started, and no transaction yet. -/
def startWorld : World := { up := fun _ => true }

/-- One request after another, on engines that do not fail. -/
def serial (c : System) (reqs : List Request) : System :=
  Pool.turns server (Discipline.holder parts) ready (serve fun _ _ => none) c
    (Pool.oneByOne 40 reqs)

theorem startWorld_started : startWorld.Started := ⟨rfl, fun _ => rfl, rfl⟩

theorem serial_later (c : System) (reqs : List Request) : Later c (serial c reqs) :=
  Pool.turns_later (serve_refines _) (fun _ => trivial) _ c

theorem serial_reachable (reqs : List Request) : Reachable (serial ⟨startWorld, [], []⟩ reqs) :=
  Reachable.later (.init startWorld_started) (serial_later _ reqs)

def writeK : VectorUpsertOp := ⟨"memories", "k", "text", .null, none⟩

/-- Transactions 1 and 2 are begun, and 1 writes. -/
def oneWrote : System := serial ⟨startWorld, [], []⟩
  [.begin ⟨7, 8⟩, .begin ⟨7, 8⟩, .bufferVectorUpsert 1 writeK]

/-- After that 1 commits, and is rolled back in vain. -/
def oneSettled : System := serial oneWrote [.commit 1, .rollback 1]

theorem settled_once_committed :
    seen 1 oneSettled = [.buffer, .commit] ∧
      seen 1 (serial oneSettled [.rollback 1, .bufferVectorUpsert 1 writeK]) =
        [.buffer, .commit] := by
  have hreach : Reachable oneSettled := (serial_reachable _).later (serial_later _ _)
  obtain ⟨-, -, -, hfrozen, -⟩ := settled_once hreach 1
  have hclosed : (oneSettled.world.view 1).Closed := .inl (by decide +kernel)
  have hseen : seen 1 oneSettled = [.buffer, .commit] := by decide +kernel
  exact ⟨hseen, (hfrozen hclosed _ (serial_later _ _)).2.trans hseen⟩

/-- Both have written the key when 1 is to commit. -/
def bothWrote : System := serial oneWrote [.bufferVectorUpsert 2 writeK]

theorem conflicting_writes_excluded_both :
    ¬(((serial bothWrote [.commit 1, .commit 2, .rollback 2, .commit 1]).world.view 1).Committed ∧
      ((serial bothWrote
        [.commit 1, .commit 2, .rollback 2, .commit 1]).world.view 2).Committed) := by
  have hreach : Reachable bothWrote := (serial_reachable _).later (serial_later _ _)
  have hone : Waits "k" (bothWrote.world.view 1) := ⟨by decide +kernel, by decide +kernel⟩
  have htwo : Waits "k" (bothWrote.world.view 2) := ⟨by decide +kernel, by decide +kernel⟩
  obtain ⟨-, -, hapart⟩ := conflicting_writes_excluded hreach
  exact hapart 1 2 "k" (by decide) hone htwo _ (serial_later _ _)

theorem active_of_status {w : World} {tx : Uuid}
    (h : (w.cells tx).state.map TxState.status = some .active) : (w.view tx).Active :=
  Option.map_eq_some_iff.mp h

theorem committed_of_status {w : World} {tx : Uuid}
    (h : (w.cells tx).state.map TxState.status = some .committed) : (w.view tx).Committed :=
  .inl (Option.map_eq_some_iff.mp h)

/-- A key written after the other transaction has passed the gate is not seen by it: both
commit, although both were begun before either did. -/
theorem late_writer_commits :
    ¬ ∀ c, Reachable c → ∀ tx tx', tx ≠ tx' →
      (c.world.view tx).Active → (c.world.view tx').Active → ∀ c', Later c c' →
        (c'.world.view tx).Committed → (c'.world.view tx').Committed →
          ∀ ws ws', (c'.world.cells tx).gate = some ws → (c'.world.cells tx').gate = some ws' →
            ∀ k ∈ ws, k ∉ ws' := by
  intro hclaim
  refine hclaim oneWrote (serial_reachable _) 1 2 (by decide) (active_of_status (by decide +kernel))
    (active_of_status (by decide +kernel))
    (serial oneWrote [.commit 1, .bufferVectorUpsert 2 writeK, .commit 2]) (serial_later _ _)
    (committed_of_status (by decide +kernel)) (committed_of_status (by decide +kernel)) ["k"] ["k"]
    (by decide +kernel) (by decide +kernel) "k" (by decide) (by decide)

end Witnesses

end ClawDB.Transaction
