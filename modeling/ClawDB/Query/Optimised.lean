/-
# `Query.Optimised` — an optimised plan runs as the plan does

`optimise` only rearranges steps (`optimise_keeps_leaves`).  Here is what that is worth: over
services that read joined texts one after the other, and hold the same components throughout,
the executor cannot tell an optimised plan from the plan it was made of, result by result and
state by state (`optimise_same`).

That is about executions in which no step has to be tried again.  A group is tried again as a
whole, and so are joined reads, so what a transient error leaves does depend on the grouping.

The proof goes by `runOnce`, which runs every step once and drops the rows of a failure: brackets
do not show in it (`executeAll_leaves`), and two reads may be joined in it (`runOnce_join`).
-/
import ClawDB.Lib.Same
import ClawDB.Query.Executor

namespace ClawDB.Planning

open Effect Prog
open Json (Value)
open Session (SessionContext)
open QueryOptimizer

/-! ## The services -/

section Services

variable {σ : Type}

/-- The components that were started are the same all along. -/
def Steady (ready : Component → Bool) (R : Rel Services σ) : Prop :=
  ∀ c s r s', R (.component c) s r s' ↔ r = ready c ∧ s' = s

/-- Two texts joined are read one after the other, up to the first that fails. -/
structure ReadsJoined (R : Rel Services σ) : Prop where
  ok : ∀ a b s rows s', R (.executeRawRead (a ++ "; " ++ b) []) s (.ok rows) s' ↔
    ∃ rows₁ s₁ rows₂, R (.executeRawRead a []) s (.ok rows₁) s₁ ∧
      R (.executeRawRead b []) s₁ (.ok rows₂) s' ∧ rows = rows₁ ++ rows₂
  error : ∀ a b s message s', R (.executeRawRead (a ++ "; " ++ b) []) s (.error message) s' ↔
    R (.executeRawRead a []) s (.error message) s' ∨
      ∃ rows₁ s₁, R (.executeRawRead a []) s (.ok rows₁) s₁ ∧
        R (.executeRawRead b []) s₁ (.error message) s'

def Op.isSleep : Op → Bool
  | .sleep _ => true
  | _ => false

/-- The services, as an execution sees them that never waits to try a step again. -/
abbrev Untroubled (R : Rel Services σ) : Rel Services σ := R.without fun o => o.isSleep = true

variable {R : Rel Services σ} {ready : Component → Bool}

theorem Steady.untroubled (h : Steady ready R) : Steady ready (Untroubled R) := by
  intro c s r s'
  exact (Rel.without_iff Bool.false_ne_true).trans (h c s r s')

theorem untroubled_read {sql : String} {s s' : σ} {r : Except String (List Value)} :
    Untroubled R (.executeRawRead sql []) s r s' ↔ R (.executeRawRead sql []) s r s' :=
  Rel.without_iff Bool.false_ne_true

theorem ReadsJoined.untroubled (h : ReadsJoined R) : ReadsJoined (Untroubled R) where
  ok a b s rows s' := by simpa only [untroubled_read] using h.ok a b s rows s'
  error a b s message s' := by simpa only [untroubled_read] using h.error a b s message s'

end Services

section

variable [Environs] [Crates] {session : SessionContext}

/-! ## Brackets -/

/-- What follows steps that ended so. -/
def andThen (rest : Rows → Task Outcome) : Outcome → Task Outcome
  | (.ok (), accumulated) => rest accumulated
  | (.error e, accumulated) => .pure (.error e, accumulated)

omit [Environs] [Crates] in
theorem andThen_pure : andThen (fun accumulated => .pure (.ok (), accumulated)) = Prog.pure := by
  funext out
  obtain ⟨r, accumulated⟩ := out
  cases r <;> rfl

theorem executeAll_cons (step : QueryStep) (steps : List QueryStep) (accumulated : Rows) :
    executeAll session (step :: steps) accumulated =
      executeStep session step accumulated >>= andThen (executeAll session steps) := by
  rw [executeAll]
  refine congrArg _ (funext fun out => ?_)
  obtain ⟨r, accumulated⟩ := out
  cases r <;> rfl

theorem executeAll_append (steps steps' : List QueryStep) (accumulated : Rows) :
    executeAll session (steps ++ steps') accumulated =
      executeAll session steps accumulated >>= andThen (executeAll session steps') := by
  induction steps generalizing accumulated with
  | nil => rfl
  | cons step steps ih =>
      rw [List.cons_append, executeAll_cons, executeAll_cons, bind_assoc]
      refine congrArg _ (funext fun out => ?_)
      obtain ⟨r, accumulated⟩ := out
      cases r with
      | ok u => exact ih accumulated
      | error e => rfl

theorem executeAll_leaf (step : QueryStep) (accumulated : Rows) :
    executeAll session [step] accumulated = executeStep session step accumulated := by
  rw [executeAll_cons]
  show _ >>= andThen (fun accumulated => .pure (.ok (), accumulated)) = _
  rw [andThen_pure]
  exact bind_pure' _

mutual

/-- A step runs as its leaves do, one after the other. -/
theorem executeStep_leaves : ∀ (step : QueryStep) (accumulated : Rows),
    executeAll session step.leaves accumulated = executeStep session step accumulated
  | .parallel steps, accumulated => executeAll_leaves steps accumulated
  | .sequential steps, accumulated => executeAll_leaves steps accumulated
  | .coreRead _, accumulated | .coreWrite _, accumulated | .vectorSearch .., accumulated
  | .vectorUpsert _, accumulated | .syncPush, accumulated | .syncPull, accumulated
  | .branchOp _, accumulated | .reflectJob _, accumulated | .guardCheck _, accumulated =>
      executeAll_leaf _ accumulated

theorem executeAll_leaves : ∀ (steps : List QueryStep) (accumulated : Rows),
    executeAll session (leafSequence steps) accumulated = executeAll session steps accumulated
  | [], _ => rfl
  | step :: steps, accumulated => by
      rw [leafSequence_cons, executeAll_append, executeAll_cons, executeStep_leaves step]
      refine congrArg _ (funext fun out => ?_)
      obtain ⟨r, accumulated⟩ := out
      cases r with
      | ok u => exact executeAll_leaves steps accumulated
      | error e => rfl

end

/-! ## Every step once -/

/-- What `execute` keeps of an outcome: the rows of a failure are dropped. -/
def Outcome.result : Outcome → Except QueryError Rows
  | (.ok (), accumulated) => .ok accumulated
  | (.error e, _) => .error e

def runOnce (session : SessionContext) (steps : List QueryStep) (accumulated : Rows) :
    Task (Except QueryError Rows) :=
  Outcome.result <$> executeAll session steps accumulated

/-- The rest, unless there was an error. -/
def thenRun (rest : Rows → Task (Except QueryError Rows)) :
    Except QueryError Rows → Task (Except QueryError Rows)
  | .ok accumulated => rest accumulated
  | .error e => .pure (.error e)

theorem runOnce_append (steps steps' : List QueryStep) (accumulated : Rows) :
    runOnce session (steps ++ steps') accumulated =
      runOnce session steps accumulated >>= thenRun (runOnce session steps') := by
  unfold runOnce
  rw [executeAll_append, map_bind, ← bind_pure_comp, bind_assoc]
  refine congrArg _ (funext fun out => ?_)
  obtain ⟨r, accumulated⟩ := out
  cases r <;> rfl

theorem runOnce_cons (step : QueryStep) (steps : List QueryStep) (accumulated : Rows) :
    runOnce session (step :: steps) accumulated =
      runOnce session [step] accumulated >>= thenRun (runOnce session steps) :=
  runOnce_append [step] steps accumulated

/-- The end of `execute`'s loop: an error is published. -/
def finish : Except QueryError Rows → Task (Except QueryError Rows)
  | .ok accumulated => .pure (.ok accumulated)
  | .error e => call (.publish (.componentHealthChanged (Environs.component e) false)) >>=
      fun _ => .pure (.error e)

variable {σ : Type} {R : Rel Services σ} {s s' : σ} {r : Except QueryError Rows}

/-- An error that the loop does not try again. -/
def Final (r : Except QueryError Rows) : Prop :=
  ∀ e, r = .error e → Environs.isTransient e = false

theorem exec_attemptStep {step : QueryStep} {accumulated : Rows} {out : Outcome} :
    Exec (Untroubled R) (attemptStep session step accumulated) s out s' ↔
      Exec (Untroubled R) (executeStep session step accumulated) s out s' ∧
        Final out.result := by
  refine (exec_retryWith_once ?_).trans ?_
  · intro ms s u s' h
    exact (exec_perform.mp h).1 rfl
  · refine and_congr_right fun _ => ?_
    obtain ⟨r, accumulated⟩ := out
    cases r with
    | ok u => exact ⟨fun _ _ h => (nomatch h), fun _ _ h => (nomatch h)⟩
    | error e =>
        refine ⟨fun h e' he => ?_, fun h e' he => ?_⟩
        · exact h e' (congrArg _ (Except.error.inj he))
        · exact h e' (congrArg _ (Except.error.inj he))

/-- The loop over the steps runs each of them once, and publishes the error, if there is one. -/
theorem exec_runSteps {steps : List QueryStep} {accumulated : Rows} :
    Exec (Untroubled R) (runSteps session steps accumulated) s r s' ↔
      ∃ r₁ s₁, Exec (Untroubled R) (runOnce session steps accumulated) s r₁ s₁ ∧ Final r₁ ∧
        Exec (Untroubled R) (finish r₁) s₁ r s' := by
  induction steps generalizing accumulated s with
  | nil =>
      unfold runSteps runOnce executeAll
      constructor
      · intro h
        exact ⟨.ok accumulated, s, .pure .., fun _ h => (nomatch h), h⟩
      · rintro ⟨r₁, s₁, h, -, hfinish⟩
        obtain ⟨rfl, rfl⟩ := exec_pure.mp h
        exact hfinish
  | cons step steps ih =>
      have hstep : ∀ out s₁, Exec (Untroubled R) (executeStep session step accumulated) s out s₁ →
          Exec (Untroubled R) (runOnce session [step] accumulated) s out.result s₁ := by
        intro out s₁ h
        unfold runOnce
        rw [executeAll_leaf]
        exact exec_map.mpr ⟨out, h, rfl⟩
      rw [runOnce_cons]
      unfold runSteps
      rw [exec_bind]
      constructor
      · rintro ⟨out, s₁, hattempt, hrest⟩
        obtain ⟨hexec, hfinal⟩ := exec_attemptStep.mp hattempt
        have honce := hstep out s₁ hexec
        obtain ⟨r₁, accumulated₁⟩ := out
        cases r₁ with
        | ok u =>
            obtain ⟨r₂, s₂, hrun, hfinal', hfinish⟩ := ih.mp hrest
            exact ⟨r₂, s₂, exec_bind.mpr ⟨_, s₁, honce, hrun⟩, hfinal', hfinish⟩
        | error e =>
            exact ⟨.error e, s₁, exec_bind.mpr ⟨_, s₁, honce, .pure ..⟩, hfinal, hrest⟩
      · rintro ⟨r₂, s₂, hrun, hfinal, hfinish⟩
        obtain ⟨r₁, s₁, honce, hrest⟩ := exec_bind.mp hrun
        unfold runOnce at honce
        rw [executeAll_leaf] at honce
        obtain ⟨out, hexec, rfl⟩ := exec_map.mp honce
        obtain ⟨r₁, accumulated₁⟩ := out
        cases r₁ with
        | ok u =>
            exact ⟨_, s₁, exec_attemptStep.mpr ⟨hexec, fun _ h => (nomatch h)⟩,
              ih.mpr ⟨r₂, s₂, hrest, hfinal, hfinish⟩⟩
        | error e =>
            obtain ⟨rfl, rfl⟩ := exec_pure.mp hrest
            exact ⟨_, s₂, exec_attemptStep.mpr ⟨hexec, hfinal⟩, hfinish⟩

/-! ## Joined reads -/

/-- What a read comes to. -/
theorem exec_read {ready : Component → Bool} (hready : Steady ready R) {sql : String}
    {accumulated : Rows} :
    Exec R (runOnce session [.coreRead sql] accumulated) s r s' ↔
      (ready .core = false ∧ r = .error (.componentNotReady "core") ∧ s' = s) ∨
        (ready .core = true ∧ ∃ reply, R (.executeRawRead sql []) s reply s' ∧
          r = (settle .core accumulated reply).result) := by
  have hleaf : executeStep session (.coreRead sql) accumulated =
      leaf .core (call (.executeRawRead sql [])) accumulated := rfl
  unfold runOnce
  rw [executeAll_leaf, hleaf, exec_map]
  unfold leaf
  constructor
  · rintro ⟨out, h, rfl⟩
    obtain ⟨up, s₁, hup, hrest⟩ := exec_bind.mp h
    obtain ⟨rfl, rfl⟩ := (hready _ _ _ _).mp (exec_perform.mp hup)
    cases hcore : ready .core with
    | false =>
        rw [hcore] at hrest
        obtain ⟨rfl, rfl⟩ := exec_pure.mp hrest
        exact .inl ⟨rfl, rfl, rfl⟩
    | true =>
        rw [hcore] at hrest
        obtain ⟨reply, hreply, rfl⟩ := exec_map.mp hrest
        exact .inr ⟨rfl, reply, exec_perform.mp hreply, rfl⟩
  · have hup : Exec R (call (.component .core)) s (ready .core) s :=
      exec_perform.mpr ((hready _ _ _ _).mpr ⟨rfl, rfl⟩)
    rintro (⟨hcore, rfl, rfl⟩ | ⟨hcore, reply, hreply, rfl⟩)
    · rw [hcore] at hup
      exact ⟨_, exec_bind.mpr ⟨_, _, hup, .pure ..⟩, rfl⟩
    · rw [hcore] at hup
      refine ⟨_, exec_bind.mpr ⟨_, _, hup, ?_⟩, rfl⟩
      exact exec_map.mpr ⟨reply, exec_perform.mpr hreply, rfl⟩

/-- Two reads, or one of both texts. -/
theorem runOnce_reads {ready : Component → Bool} (hready : Steady ready R)
    (hjoined : ReadsJoined R) (a b : String) (accumulated : Rows) :
    Same R (runOnce session [.coreRead (a ++ "; " ++ b)] accumulated)
      (runOnce session [.coreRead a, .coreRead b] accumulated) := by
  intro s r s'
  rw [exec_read hready, runOnce_cons, exec_bind]
  constructor
  · rintro (⟨hcore, rfl, rfl⟩ | ⟨hcore, reply, hreply, rfl⟩)
    · exact ⟨_, _, (exec_read hready).mpr (.inl ⟨hcore, rfl, rfl⟩), .pure ..⟩
    · cases reply with
      | ok rows =>
          obtain ⟨rows₁, s₁, rows₂, ha, hb, rfl⟩ := (hjoined.ok ..).mp hreply
          refine ⟨_, s₁, (exec_read hready).mpr (.inr ⟨hcore, _, ha, rfl⟩), ?_⟩
          refine (exec_read hready).mpr (.inr ⟨hcore, _, hb, ?_⟩)
          simp [settle, Outcome.result]
      | error message =>
          rcases (hjoined.error ..).mp hreply with ha | ⟨rows₁, s₁, ha, hb⟩
          · exact ⟨_, s', (exec_read hready).mpr (.inr ⟨hcore, _, ha, rfl⟩), .pure ..⟩
          · exact ⟨_, s₁, (exec_read hready).mpr (.inr ⟨hcore, _, ha, rfl⟩),
              (exec_read hready).mpr (.inr ⟨hcore, _, hb, rfl⟩)⟩
  · rintro ⟨r₁, s₁, ha, hrest⟩
    rcases (exec_read hready).mp ha with ⟨hcore, rfl, rfl⟩ | ⟨hcore, reply, hreply, rfl⟩
    · obtain ⟨rfl, rfl⟩ := exec_pure.mp hrest
      exact .inl ⟨hcore, rfl, rfl⟩
    · cases reply with
      | error message =>
          obtain ⟨rfl, rfl⟩ := exec_pure.mp hrest
          exact .inr ⟨hcore, .error message, (hjoined.error ..).mpr (.inl hreply), rfl⟩
      | ok rows₁ =>
          rcases (exec_read hready).mp hrest with ⟨hno, -, -⟩ | ⟨-, reply₂, hreply₂, rfl⟩
          · exact nomatch hno.symm.trans hcore
          · cases reply₂ with
            | ok rows₂ =>
                refine .inr ⟨hcore, .ok (rows₁ ++ rows₂), (hjoined.ok ..).mpr
                  ⟨rows₁, s₁, rows₂, hreply, hreply₂, rfl⟩, ?_⟩
                simp [settle, Outcome.result]
            | error message =>
                exact .inr ⟨hcore, .error message, (hjoined.error ..).mpr
                  (.inr ⟨rows₁, s₁, hreply, hreply₂⟩), rfl⟩

omit [Environs] [Crates] in
theorem same_thenRun {p q : Task (Except QueryError Rows)}
    {f g : Rows → Task (Except QueryError Rows)} (h : Same R p q)
    (hf : ∀ accumulated, Same R (f accumulated) (g accumulated)) :
    Same R (p >>= thenRun f) (q >>= thenRun g) := by
  refine h.bind fun r => ?_
  cases r with
  | ok accumulated => exact hf accumulated
  | error e => exact .refl _

theorem runOnce_merged {ready : Component → Bool} (hready : Steady ready R)
    (hjoined : ReadsJoined R) (steps : List QueryStep) (accumulated : Rows) :
    Same R (runOnce session (merged steps) accumulated) (runOnce session steps accumulated) := by
  fun_induction merged steps generalizing accumulated with
  | case1 a b rest ih =>
      refine (ih accumulated).trans ?_
      have hone : [QueryStep.coreRead (a ++ "; " ++ b)] ++ rest =
        .coreRead (a ++ "; " ++ b) :: rest := rfl
      have htwo : [QueryStep.coreRead a, .coreRead b] ++ rest =
        .coreRead a :: .coreRead b :: rest := rfl
      rw [← hone, ← htwo, runOnce_append, runOnce_append]
      exact same_thenRun (runOnce_reads hready hjoined a b accumulated) fun _ => .refl _
  | case2 step rest hother ih =>
      rw [runOnce_cons, runOnce_cons step rest]
      exact same_thenRun (.refl _) ih
  | case3 => exact .refl _

/-- Brackets show neither in one run of every step. -/
theorem runOnce_optimise {ready : Component → Bool} (hready : Steady ready R)
    (hjoined : ReadsJoined R) (plan : QueryPlan) (accumulated : Rows) :
    Same R (runOnce session (optimise plan).steps accumulated)
      (runOnce session plan.steps accumulated) := by
  have hbrackets : executeAll session (optimise plan).steps accumulated =
      executeAll session (merged plan.steps) accumulated := by
    rw [optimise_steps, ← executeAll_leaves, leafSequence_promoted, executeAll_leaves, merged_eq]
  refine Same.trans ?_ (runOnce_merged hready hjoined plan.steps accumulated)
  unfold runOnce
  rw [hbrackets]
  exact .refl _

end

/-! ## Optimised plans -/

/-- Over services that read joined texts one after the other and hold the same components
throughout, an optimised plan has the executions of the plan, in which nothing is tried again:
each ends in the same result and the same state. -/
theorem optimise_same [Environs] [Crates] {σ : Type} {R : Rel Services σ}
    {ready : Component → Bool} (hready : Steady ready R) (hjoined : ReadsJoined R)
    (plan : QueryPlan) (session : SessionContext) :
    Same (Untroubled R) (execute (optimise plan) session) (execute plan session) := by
  have honce : ∀ accumulated, Same (Untroubled R)
      (runOnce session (optimise plan).steps accumulated)
      (runOnce session plan.steps accumulated) :=
    runOnce_optimise hready.untroubled hjoined.untroubled plan
  unfold execute
  refine Same.bind (fun s r s' => ?_) fun r => ?_
  · rw [exec_runSteps, exec_runSteps]
    exact exists_congr fun r₁ => exists_congr fun s₁ => and_congr_left' (honce [] s r₁ s₁)
  · cases r <;> exact .refl _

/-! ## A database of one row -/

/-- Every statement of a text returns the row of the only table; nothing else is there. -/
def oneRow : Handler Services Unit
  | .component c, s => (decide (c = .core), s)
  | .executeRawRead sql _, s => (.ok (List.replicate (sql.toList.count ';' + 1) .null), s)
  | .elapsed, s => ((0 : Nat), s)
  | .newV4, s => ((0 : Uuid), s)
  | .publish _, s | .sleep _, s => ((), s)
  | .executeRawWrite .., s | .upsert .., s => (.error "read only", s)
  | .checkAccess .., s => (.error "no guard", s)
  | .getMemories .., s | .searchContent .., s | .searchMemoriesByTag .., s => (.ok [], s)
  | .insertMemory .., s => (.error "read only", s)
  | .search .., s | .hybridSearch .., s => (.error "no index", s)
  | .pushNow, s | .pullNow, s => (.error "no hub", s)
  | .createBranch .., s | .triggerReflection .., s => (.error "no service", s)
  | .merge .., s => (.error "no branches", s)
  | .diff .., s => (.error "no branches", s)

theorem oneRow_steady : Steady (fun c => decide (c = .core)) oneRow.rel :=
  fun _ _ _ _ => Iff.rfl

theorem oneRow_joined : ReadsJoined oneRow.rel where
  ok a b s rows s' := by
    have hcount : (a ++ "; " ++ b).toList.count ';' + 1 =
        (a.toList.count ';' + 1) + (b.toList.count ';' + 1) := by
      simp [String.toList_append, List.count_append]
      omega
    constructor
    · rintro ⟨hrows, rfl⟩
      refine ⟨_, s', _, ⟨rfl, rfl⟩, ⟨rfl, rfl⟩, ?_⟩
      rw [Except.ok.inj hrows, hcount, List.replicate_add]
    · rintro ⟨rows₁, s₁, rows₂, ⟨ha, rfl⟩, ⟨hb, rfl⟩, rfl⟩
      refine ⟨?_, rfl⟩
      rw [Except.ok.inj ha, Except.ok.inj hb, ← List.replicate_add, ← hcount]
      rfl
  error a b s message s' := by
    constructor
    · rintro ⟨h, -⟩
      cases h
    · rintro (⟨h, -⟩ | ⟨_, _, -, h, -⟩) <;> cases h

section Witness

attribute [local instance] Crates.sample Environs.sample

def twoReads : QueryPlan :=
  ⟨7, .raw "SELECT 1" [] "memory", [.coreRead "SELECT 1", .coreRead "SELECT 2"], none, true⟩

def reader : SessionContext := ⟨1, 2, "t", "reader", [], "test", 0⟩

/-- The optimised plan is one read, and returns the two rows. -/
theorem optimise_same_reads :
    (optimise twoReads).steps = [.coreRead "SELECT 1; SELECT 2"] ∧
      Exec (Untroubled oneRow.rel) (execute (optimise twoReads) reader) ()
        (.ok (.executed twoReads [.null, .null] 0)) () := by
  refine ⟨?_, (optimise_same oneRow_steady oneRow_joined twoReads reader _ _ _).mpr ?_⟩
  · simp only [optimise_steps, twoReads, joinRuns, readRun, afterRun, promoted]
    rfl
  · have hsteady :
        (execute twoReads reader).steady (fun (o : Op) _ => !o.isSleep) oneRow () = true := rfl
    have hready : ∀ (o : Op) s, (!o.isSleep) = true →
        Untroubled oneRow.rel o s (oneRow o s).1 (oneRow o s).2 :=
      fun o s ho => ⟨by simpa using ho, rfl, rfl⟩
    exact (traced_steady (F := Services) hready hsteady).exec

end Witness

end ClawDB.Planning
