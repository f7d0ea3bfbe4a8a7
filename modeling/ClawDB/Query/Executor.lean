/-
# `Query.Executor` — running a plan, step by step

`query/executor.rs`, over the subsystems as operations: `lifecycle.core()` and its siblings ask
whether a component was started, every awaited call replies or fails.  The vector of rows that
`execute_step` is lent is passed along and comes back, also with an error.

A leaf asks for its component and then makes at most one call.  `executeStep` runs a group from
left to right and stops at the first error, and the loop in `execute` runs a whole top-level
step again after a passing error, with the rows of the failed attempt still there.

`performed` reads off a list of events which leaves took effect, with the rows each returned; a
guard check and a branch operation have no effect.
-/
import ClawDB.Lib.Retry
import ClawDB.Query.Optimizer
import ClawDB.Session.Store

namespace ClawDB.Planning

open Effect Prog
open Json (Value)
open Session (SessionContext)

/-! ## The subsystems -/

inductive Component where
  | guard
  | core
  | vector
  | sync
  | branch
  | reflect
deriving DecidableEq

def Component.name : Component → String
  | .guard => "guard"
  | .core => "core"
  | .vector => "vector"
  | .sync => "sync"
  | .branch => "branch"
  | .reflect => "reflect"

/-- `claw_guard::AccessDecision`: `other` stands for the decisions nothing here names. -/
inductive AccessDecision where
  | allow
  | deny (reason : String)
  | other
deriving DecidableEq

inductive QueryError where
  | componentNotReady (component : String)
  | denied (reason : String)
  | queryExecutionFailed (step reason : String)
  | failed (component : Component) (message : String)
  | serialization (message : String)
deriving DecidableEq

/-- The events the query subsystem publishes. -/
inductive BusEvent where
  | componentHealthChanged (component : String) (healthy : Bool)
  | guardDenied (agentId : Uuid) (action resource reason : String)
  | memoryAdded (agentId memoryId : Uuid) (memoryType : String)
  | searchExecuted (agentId : Uuid) (queryPreview : String) (resultCount latencyMs : Nat)
  | syncCompleted (agentId : Uuid) (pushed pulled : Value)

/-- What is shown of a merge. -/
structure MergeStats where
  applied : Value
  conflicts : Value

/-- What is shown of a diff. -/
structure DiffStats where
  added : Value
  removed : Value
  modified : Value
  divergenceScore : Value

inductive Op where
  | component (c : Component)
  | checkAccess (token action resource : String) (ids : List String) (taskType : String)
  | executeRawRead (sql : String) (params : List Value)
  | executeRawWrite (sql : String) (params : List Value)
  | insertMemory (agentId content memoryType : String) (metadata : Value) (tags : List String)
  | getMemories (agentId : String) (ids : List String)
  | searchContent (agentId text : String)
  | searchMemoriesByTag (agentId : String) (tags : List String)
  | search (collection text : String) (topK : Nat) (filter : Option Value)
  | hybridSearch (collection text : String) (topK : Nat) (filter : Option Value) (alpha : F32)
  | upsert (collection id text : String) (metadata : Value)
  | pushNow
  | pullNow
  | createBranch (parent name : String) (description : Option String)
  | merge (source target strategy : String)
  | diff (branchA branchB : String)
  | triggerReflection (agentId : Uuid) (jobType : String) (dryRun : Bool)
  | publish (event : BusEvent)
  | sleep (ms : Nat)
  | elapsed
  | newV4

def Op.Ret : Op → Type
  | .component _ => Bool
  | .checkAccess .. => Except String AccessDecision
  | .executeRawRead .. | .getMemories .. | .searchContent .. | .searchMemoriesByTag .. =>
      Except String (List Value)
  | .executeRawWrite .. | .upsert .. => Except String Unit
  | .insertMemory .. => Except String (String × Value)
  | .search .. | .hybridSearch .. => Except String (List SearchResult)
  | .pushNow | .pullNow => Except String Value
  | .createBranch .. | .triggerReflection .. => Except String (Except String Value)
  | .merge .. => Except String MergeStats
  | .diff .. => Except String DiffStats
  | .publish _ | .sleep _ => Unit
  | .elapsed => Nat
  | .newV4 => Uuid

abbrev Services : Effect.Sig := ⟨Op, Op.Ret⟩

abbrev Task := Prog Services

abbrev call (o : Op) : Task o.Ret := perform (F := Services) o

/-- What the query subsystem takes from elsewhere: two methods of the crate's error type, and
how a search result is serialised (`none` where that fails). -/
class Environs where
  isTransient : QueryError → Bool
  component : QueryError → String
  toValue : SearchResult → Option Value

/-- Errors of the components are transient; a result is not serialised. -/
@[reducible] def Environs.sample : Environs where
  isTransient
    | .failed _ _ => true
    | _ => false
  component
    | .componentNotReady component => component
    | .failed c _ => c.name
    | _ => "guard"
  toValue _ := none

abbrev Rows := List Value

inductive QueryResultData where
  | memoryEntries (entries : Rows)
  | searchResults (results : Rows)
  | branchInfo (info : Value)
  | syncResult (stats : Value)
  | reflectResult (outcome : Value)
  | unit

def QueryResultData.rows : QueryResultData → Rows
  | .memoryEntries rows | .searchResults rows => rows
  | _ => []

structure QueryResult where
  queryId : Uuid
  data : QueryResultData
  latencyMs : Nat
  guardApplied : Bool
  fromCache : Bool

/-! ## `QueryExecutor` -/

/-- How a step ended, with the rows accumulated so far. -/
abbrev Outcome := Except QueryError Unit × Rows

/-- A call without rows. -/
abbrev effect {α : Type} (p : Task (Except String α)) : Task (Except String Rows) :=
  (fun r => r.map fun _ => []) <$> p

def settle (c : Component) (accumulated : Rows) : Except String Rows → Outcome
  | .ok rows => (.ok (), accumulated ++ rows)
  | .error message => (.error (.failed c message), accumulated)

/-- `let x = self.lifecycle.c()?; x.call(..).await?`, and the rows go to the others. -/
def leaf (c : Component) (body : Task (Except String Rows)) (accumulated : Rows) : Task Outcome :=
  call (.component c) >>= fun
    | true => settle c accumulated <$> body
    | false => .pure (.error (.componentNotReady c.name), accumulated)

section

variable [Environs]

/-- `serde_json::to_value(r).unwrap_or(Value::Null)` -/
def resultRow (r : SearchResult) : Value := (Environs.toValue r).getD .null

section Definitions

variable [Crates]

mutual

def executeStep (session : SessionContext) : QueryStep → Rows → Task Outcome
  | .guardCheck action => leaf .guard
      (effect (call (.checkAccess session.token action "memory" [] session.taskType)))
  | .coreRead sql => leaf .core (call (.executeRawRead sql []))
  | .coreWrite sql => leaf .core (effect (call (.executeRawWrite sql [])))
  | .vectorSearch collection topK => leaf .vector
      ((fun r => r.map fun results => results.map resultRow) <$>
        call (.search collection "" topK none))
  | .vectorUpsert collection => leaf .vector
      (call .newV4 >>= fun id =>
        effect (call (.upsert collection (Crates.uuidToString id) "" .null)))
  | .syncPush => leaf .sync (effect (call .pushNow))
  | .syncPull => leaf .sync (effect (call .pullNow))
  | .branchOp _ => leaf .branch (.pure (.ok []))
  | .reflectJob jobType => leaf .reflect (effect (call (.triggerReflection 0 jobType false)))
  | .parallel steps => executeAll session steps
  | .sequential steps => executeAll session steps

/-- `for s in steps { self.execute_step(s, ..).await?; }` -/
def executeAll (session : SessionContext) : List QueryStep → Rows → Task Outcome
  | [], accumulated => .pure (.ok (), accumulated)
  | step :: steps, accumulated => executeStep session step accumulated >>= fun
      | (.ok (), accumulated) => executeAll session steps accumulated
      | (.error e, accumulated) => .pure (.error e, accumulated)

end

/-- The inner loop of `execute`: two more attempts, 100 ms apart, after a passing error. -/
def attemptStep (session : SessionContext) (step : QueryStep) (accumulated : Rows) :
    Task Outcome :=
  retryWith (executeStep session step) (fun ms => call (.sleep ms)) Environs.isTransient
    [100, 100] accumulated

/-- The loop over the top-level steps; the error that ends it is published. -/
def runSteps (session : SessionContext) : List QueryStep → Rows → Task (Except QueryError Rows)
  | [], accumulated => .pure (.ok accumulated)
  | step :: steps, accumulated => attemptStep session step accumulated >>= fun
      | (.ok (), accumulated) => runSteps session steps accumulated
      | (.error e, _) =>
          call (.publish (.componentHealthChanged (Environs.component e) false)) >>= fun _ =>
            .pure (.error e)

def resultData (query : Query) (accumulated : Rows) : QueryResultData :=
  if accumulated.isEmpty then
    match query with
    | .sync .. | .reflect .. | .remember .. => .unit
    | _ => .memoryEntries []
  else .memoryEntries accumulated

def QueryResult.executed (plan : QueryPlan) (accumulated : Rows) (latencyMs : Nat) :
    QueryResult where
  queryId := plan.id
  data := resultData plan.query accumulated
  latencyMs := latencyMs
  guardApplied := plan.guardApplied
  fromCache := false

/-- Executes `plan` for `session`, returning an aggregated `QueryResult`. -/
def execute (plan : QueryPlan) (session : SessionContext) : Task (Except QueryError QueryResult) :=
  runSteps session plan.steps [] >>= fun
    | .ok accumulated => call .elapsed >>= fun latencyMs =>
        .pure (.ok (.executed plan accumulated latencyMs))
    | .error e => .pure (.error e)

end Definitions

/-! ## What took effect -/

/-- The leaf a call that succeeded was made for, and the rows it returned. -/
def effectOf : (o : Op) → o.Ret → Option (QueryStep × Rows)
  | .executeRawRead sql _, .ok rows => some (.coreRead sql, rows)
  | .executeRawWrite sql _, .ok _ => some (.coreWrite sql, [])
  | .search collection _ topK _, .ok results =>
      some (.vectorSearch collection topK, results.map resultRow)
  | .upsert collection _ _ _, .ok _ => some (.vectorUpsert collection, [])
  | .pushNow, .ok _ => some (.syncPush, [])
  | .pullNow, .ok _ => some (.syncPull, [])
  | .triggerReflection _ jobType _, .ok _ => some (.reflectJob jobType, [])
  | _, _ => none

/-- The leaves that took effect, in order, each with the rows it returned. -/
def performed (evs : List (Exchange Services)) : List (QueryStep × Rows) :=
  evs.filterMap fun ev => effectOf ev.1 ev.2

/-- The leaves with an effect. -/
def QueryStep.acts : QueryStep → Bool
  | .guardCheck _ | .branchOp _ | .parallel _ | .sequential _ => false
  | _ => true

@[simp] theorem performed_nil : performed [] = [] := rfl

@[simp] theorem performed_append (evs evs' : List (Exchange Services)) :
    performed (evs ++ evs') = performed evs ++ performed evs' :=
  List.filterMap_append

/-- What a leaf that ended so has performed. -/
def QueryStep.returned (step : QueryStep) : Except String Rows → List (QueryStep × Rows)
  | .ok rows => if step.acts then [(step, rows)] else []
  | .error _ => []

/-! ### Leaves -/

variable {σ : Type} {R : Rel Services σ} {s s' : σ} {evs : List (Exchange Services)}

/-- The rows of a reply. -/
def rowsOf : Except String Rows → Rows
  | .ok rows => rows
  | .error _ => []

/-- A reply fits a leaf: what has been performed is the leaf, with the rows of the reply. -/
def Fits (step : QueryStep) (evs : List (Exchange Services)) (r : Except String Rows) : Prop :=
  performed evs = step.returned r ∧ rowsOf r = (step.returned r).flatMap Prod.snd

theorem fits_rows {step : QueryStep} {r : Except String Rows} (hacts : step.acts = true)
    (hok : ∀ rows, r = .ok rows → performed evs = [(step, rows)])
    (herror : ∀ message, r = .error message → performed evs = []) : Fits step evs r := by
  cases r with
  | ok rows =>
      have hreturned : step.returned (.ok rows) = [(step, rows)] := if_pos hacts
      refine ⟨(hok rows rfl).trans hreturned.symm, ?_⟩
      rw [hreturned]
      exact (List.append_nil _).symm
  | error message => exact ⟨herror message rfl, rfl⟩

/-- The body of a leaf makes the leaf's call, and no other with an effect. -/
def Body (R : Rel Services σ) (step : QueryStep) (body : Task (Except String Rows)) : Prop :=
  ∀ s evs r s', ExecTrace R body s evs r s' → Fits step evs r

theorem Body.of_call {step : QueryStep} {o : Op} {f : o.Ret → Except String Rows}
    (h : ∀ r, Fits step [⟨o, r⟩] (f r)) : Body R step (f <$> call o) := by
  intro s evs r s' ht
  obtain ⟨r, hr, rfl⟩ := traced_map.mp ht
  obtain ⟨rfl, -⟩ := traced_perform.mp hr
  exact h r

/-- The id a body draws does not matter. -/
theorem Body.of_draw {step : QueryStep} {body : Uuid → Task (Except String Rows)}
    (h : ∀ id, Body R step (body id)) : Body R step (call .newV4 >>= body) := by
  intro s evs r s' ht
  obtain ⟨first, rest, id, s₁, rfl, hdraw, hrest⟩ := traced_bind.mp ht
  obtain ⟨rfl, -⟩ := traced_perform.mp hdraw
  have hfits : Fits step rest r := h id _ _ _ _ hrest
  exact hfits

/-- What a step that ended so has done: its rows are with the others, and if it returned `Ok`,
its leaves have taken effect, one after the other. -/
structure Did (leaves : List QueryStep) (accumulated : Rows) (evs : List (Exchange Services))
    (out : Outcome) : Prop where
  rows : out.2 = accumulated ++ (performed evs).flatMap Prod.snd
  leaves : out.1 = .ok () → (performed evs).map Prod.fst = leaves.filter QueryStep.acts

theorem Did.of_fits {step : QueryStep} {c : Component} {accumulated : Rows}
    {r : Except String Rows} (h : Fits step evs r) :
    Did [step] accumulated evs (settle c accumulated r) := by
  obtain ⟨hp, hrows⟩ := h
  cases r with
  | error message =>
      refine ⟨?_, fun hok => nomatch hok⟩
      rw [hp, ← hrows]
      exact (List.append_nil _).symm
  | ok rows =>
      refine ⟨?_, fun _ => ?_⟩
      · rw [hp, ← hrows]
        rfl
      · rw [hp]
        show (if step.acts then [(step, rows)] else []).map Prod.fst = _
        cases ha : step.acts <;> simp [ha]

theorem Did.of_leaf {step : QueryStep} {c : Component} {body : Task (Except String Rows)}
    {accumulated : Rows} {out : Outcome} (h : ExecTrace R (leaf c body accumulated) s evs out s')
    (hbody : Body R step body) : Did [step] accumulated evs out := by
  obtain ⟨first, rest, up, s₁, rfl, hup, hrest⟩ := traced_bind.mp h
  obtain ⟨rfl, -⟩ := traced_perform.mp hup
  cases up with
  | false =>
      obtain ⟨rfl, rfl, -⟩ := traced_pure.mp hrest
      exact ⟨(List.append_nil _).symm, fun hok => nomatch hok⟩
  | true =>
      obtain ⟨r, hr, rfl⟩ := traced_map.mp hrest
      have hdid : Did [step] accumulated rest (settle c accumulated r) :=
        .of_fits (hbody _ _ _ _ hr)
      exact ⟨hdid.rows, hdid.leaves⟩

/-- One part after another. -/
theorem Did.append {leaves leaves' : List QueryStep} {accumulated : Rows}
    {first rest : List (Exchange Services)} {mid out : Outcome}
    (h : Did leaves accumulated first mid) (hmid : mid.1 = .ok ())
    (h' : Did leaves' mid.2 rest out) :
    Did (leaves ++ leaves') accumulated (first ++ rest) out where
  rows := by rw [h'.rows, h.rows]; simp
  leaves hok := by rw [performed_append, List.map_append, h.leaves hmid, h'.leaves hok]; simp

variable [Crates]

mutual

/-- Spec of `execute_step`. -/
theorem traced_executeStep {session : SessionContext} {s s' : σ} {evs : List (Exchange Services)}
    {out : Outcome} : ∀ (step : QueryStep) {accumulated : Rows},
      ExecTrace R (executeStep session step accumulated) s evs out s' →
        Did step.leaves accumulated evs out
  | .guardCheck _, _, h => .of_leaf h (.of_call fun r => by cases r <;> exact ⟨rfl, rfl⟩)
  | .coreRead _, _, h => .of_leaf h fun _ _ _ _ ht => by
      obtain ⟨rfl, -⟩ := traced_perform.mp ht
      exact fits_rows rfl (by rintro rows rfl; rfl) (by rintro message rfl; rfl)
  | .coreWrite _, _, h => .of_leaf h (.of_call fun r => by cases r <;> exact ⟨rfl, rfl⟩)
  | .vectorSearch .., _, h => .of_leaf h <| .of_call fun r => by
      cases r with
      | ok results => exact fits_rows rfl (by rintro rows ⟨⟩; rfl) (by rintro message ⟨⟩)
      | error _ => exact ⟨rfl, rfl⟩
  | .vectorUpsert _, _, h =>
      .of_leaf h (.of_draw fun _ => .of_call fun r => by cases r <;> exact ⟨rfl, rfl⟩)
  | .syncPush, _, h => .of_leaf h (.of_call fun r => by cases r <;> exact ⟨rfl, rfl⟩)
  | .syncPull, _, h => .of_leaf h (.of_call fun r => by cases r <;> exact ⟨rfl, rfl⟩)
  | .branchOp _, _, h => .of_leaf h fun _ _ _ _ ht => by
      obtain ⟨rfl, rfl, -⟩ := traced_pure.mp ht
      exact ⟨rfl, rfl⟩
  | .reflectJob _, _, h => .of_leaf h (.of_call fun r => by cases r <;> exact ⟨rfl, rfl⟩)
  | .parallel steps, _, h => traced_executeAll steps h
  | .sequential steps, _, h => traced_executeAll steps h

theorem traced_executeAll {session : SessionContext} {s s' : σ} {evs : List (Exchange Services)}
    {out : Outcome} : ∀ (steps : List QueryStep) {accumulated : Rows},
      ExecTrace R (executeAll session steps accumulated) s evs out s' →
        Did (leafSequence steps) accumulated evs out
  | [], _, h => by
      obtain ⟨rfl, rfl, -⟩ := traced_pure.mp h
      exact ⟨by simp, fun _ => rfl⟩
  | step :: steps, accumulated, h => by
      obtain ⟨first, rest, ⟨r, mid⟩, s₁, rfl, hstep, h⟩ := traced_bind.mp h
      have hfirst := traced_executeStep step hstep
      cases r with
      | ok u => exact hfirst.append rfl (traced_executeAll steps h)
      | error e =>
          obtain ⟨rfl, rfl, -⟩ := traced_pure.mp h
          refine ⟨?_, fun hok => nomatch hok⟩
          rw [List.append_nil]
          exact hfirst.rows

end

/-! ## Attempts -/

omit [Crates] in
theorem performed_pause {ms : Nat} {pause : List (Exchange Services)} {u : Unit}
    (h : ExecTrace R (call (.sleep ms)) s pause u s') : performed pause = [] := by
  obtain ⟨rfl, -⟩ := traced_perform.mp h
  rfl

/-- What the loop did with one step: the attempts that were made again, and the last one. -/
structure Tries where
  failed : List (List (Exchange Services))
  last : List (Exchange Services)

def Tries.performed (t : Tries) : List (QueryStep × Rows) :=
  t.failed.flatMap Planning.performed ++ Planning.performed t.last

variable (R) in
/-- A run of the loop over the steps that ends well, attempt by attempt. -/
inductive Ran (session : SessionContext) :
    List QueryStep → Rows → σ → List (Exchange Services) → List Tries → Rows → σ → Prop where
  | nil {accumulated s} : Ran session [] accumulated s [] [] accumulated s
  | cons {step steps accumulated s evs t mid s₁ rest history out s'} :
      Tried R (executeStep session step) (fun ms => call (.sleep ms)) Environs.isTransient
        [100, 100] accumulated s evs t.failed t.last (.ok (), mid) s₁ →
      Ran session steps mid s₁ rest history out s' →
      Ran session (step :: steps) accumulated s (evs ++ rest) (t :: history) out s'

variable {session : SessionContext}

/-- The attempts of one step leave their rows, and what they have performed. -/
theorem tried_performed {step : QueryStep} {delays : List Nat} {accumulated : Rows}
    {failed : List (List (Exchange Services))} {last : List (Exchange Services)} {out : Outcome}
    (h : Tried R (executeStep session step) (fun ms => call (.sleep ms)) Environs.isTransient
      delays accumulated s evs failed last out s') :
    performed evs = Tries.performed ⟨failed, last⟩ ∧
      out.2 = accumulated ++ (performed evs).flatMap Prod.snd ∧
      (out.1 = .ok () → (performed last).map Prod.fst = step.leaves.filter QueryStep.acts) := by
  induction h with
  | last ht =>
      have hdid := traced_executeStep step ht
      exact ⟨rfl, hdid.rows, hdid.leaves⟩
  | @again delay delays l l₁ s s₁ s₂ s' evs pause rest failed last e r ht _ hwait _ ih =>
      obtain ⟨hrest, hrows, hleaves⟩ := ih
      have hdid := traced_executeStep step ht
      have hl₁ : l₁ = l ++ (performed evs).flatMap Prod.snd := hdid.rows
      refine ⟨?_, ?_, hleaves⟩
      · rw [performed_append, performed_append, performed_pause hwait, hrest]
        simp [Tries.performed]
      · rw [hrows, hl₁, performed_append, performed_append, performed_pause hwait]
        simp

theorem traced_runSteps {steps : List QueryStep} {accumulated rows : Rows}
    (h : ExecTrace R (runSteps session steps accumulated) s evs (.ok rows) s') :
    ∃ history, Ran R session steps accumulated s evs history rows s' := by
  induction steps generalizing accumulated s evs with
  | nil =>
      obtain ⟨rfl, hr, rfl⟩ := traced_pure.mp h
      obtain rfl := Except.ok.inj hr
      exact ⟨[], .nil⟩
  | cons step steps ih =>
      obtain ⟨first, rest, ⟨r, mid⟩, s₁, rfl, hstep, hrest⟩ := traced_bind.mp h
      cases r with
      | ok u =>
          obtain ⟨failed, last, htried⟩ := traced_retryWith hstep
          obtain ⟨history, hran⟩ := ih hrest
          exact ⟨⟨failed, last⟩ :: history, .cons (t := ⟨failed, last⟩) htried hran⟩
      | error e =>
          obtain ⟨_, _, _, _, -, -, herror⟩ := traced_bind.mp hrest
          obtain ⟨-, hr, -⟩ := traced_pure.mp herror
          cases hr

/-- What a run that ended well has performed: the leaves of the plan in its last attempts, and
what the attempts before them had performed when they failed. -/
theorem Ran.performed {steps : List QueryStep} {accumulated rows : Rows} {history : List Tries}
    (h : Ran R session steps accumulated s evs history rows s') :
    Planning.performed evs = history.flatMap Tries.performed ∧
      rows = accumulated ++ (Planning.performed evs).flatMap Prod.snd ∧
      history.flatMap (fun t => (Planning.performed t.last).map Prod.fst) =
        (leafSequence steps).filter QueryStep.acts := by
  induction h with
  | nil => simp
  | @cons step steps accumulated s evs t mid s₁ rest history out s' htried _ ih =>
      obtain ⟨hevs, hmid, hleaves⟩ := tried_performed htried
      obtain ⟨hrest, hrows, hothers⟩ := ih
      have hmid : mid = accumulated ++ (Planning.performed evs).flatMap Prod.snd := hmid
      refine ⟨?_, ?_, ?_⟩
      · rw [performed_append, hevs, hrest]
        rfl
      · rw [hrows, hmid, performed_append]
        simp
      · rw [List.flatMap_cons, hleaves rfl, hothers, leafSequence_cons, List.filter_append]

/-! ## Once for each leaf -/

omit [Environs] [Crates] in
theorem rows_resultData (query : Query) (accumulated : Rows) :
    (resultData query accumulated).rows = accumulated := by
  cases accumulated with
  | nil => cases query <;> rfl
  | cons row rows => rfl

/-- Every leaf of the plan with an effect took effect exactly once, and the rows of the result
are those the leaves returned then, in leaf order. -/
def OncePerLeaf (plan : QueryPlan) (evs : List (Exchange Services)) (result : QueryResult) : Prop :=
  ∃ returned : List (QueryStep × Rows),
    returned.map Prod.fst = (leafSequence plan.steps).filter QueryStep.acts ∧
      (performed evs).Perm returned ∧ result.data.rows = returned.flatMap Prod.snd

/-- What failed attempts have performed. -/
def wasted (history : List Tries) : List (QueryStep × Rows) :=
  history.flatMap fun t => t.failed.flatMap performed

omit [Crates] in
theorem length_tries (history : List Tries) : (history.flatMap Tries.performed).length =
    (wasted history).length +
      (history.flatMap fun t => (performed t.last).map Prod.fst).length := by
  induction history with
  | nil => rfl
  | cons t history ih =>
      simp only [wasted, List.flatMap_cons, List.length_append, Tries.performed,
        List.length_map] at ih ⊢
      omega

omit [Crates] in
theorem wasted_eq_nil {history : List Tries} :
    wasted history = [] ↔ ∀ t ∈ history, ∀ attempt ∈ t.failed, performed attempt = [] := by
  simp [wasted, List.flatMap_eq_nil_iff]

omit [Crates] in
theorem leaves_of_none_wasted {history : List Tries} (h : wasted history = []) :
    (history.flatMap Tries.performed).map Prod.fst =
      history.flatMap fun t => (performed t.last).map Prod.fst := by
  have hnone := wasted_eq_nil.mp h
  rw [List.map_flatMap]
  refine List.flatMap_congr fun t ht => ?_
  have hfailed : t.failed.flatMap performed = [] :=
    List.flatMap_eq_nil_iff.mpr (hnone t ht)
  rw [Tries.performed, hfailed, List.nil_append]

theorem traced_execute {plan : QueryPlan} {result : QueryResult}
    (h : ExecTrace R (execute plan session) s evs (.ok result) s') :
    ∃ history rows s₁ run, Ran R session plan.steps [] s run history rows s₁ ∧
      run <+: evs ∧ performed evs = performed run ∧ result.data.rows = rows := by
  obtain ⟨run, rest, r, s₁, rfl, hrun, hrest⟩ := traced_bind.mp h
  cases r with
  | error e =>
      obtain ⟨-, hr, -⟩ := traced_pure.mp hrest
      cases hr
  | ok rows =>
      obtain ⟨history, hran⟩ := traced_runSteps hrun
      obtain ⟨first, last, ms, s₂, rfl, hms, hresult⟩ := traced_bind.mp hrest
      obtain ⟨rfl, -⟩ := traced_perform.mp hms
      obtain ⟨rfl, hr, rfl⟩ := traced_pure.mp hresult
      obtain rfl := Except.ok.inj hr
      refine ⟨history, rows, s₁, run, hran, List.prefix_append _ _, ?_, rows_resultData _ _⟩
      rw [performed_append]
      exact List.append_nil _

/-- A run that returns `Ok` has made each leaf take effect once exactly if no attempt that
failed, and was made again, had made a leaf take effect before it failed.  The attempts are those
the run begins with, and nothing takes effect after them. -/
theorem once_per_leaf_iff {plan : QueryPlan} {result : QueryResult}
    (h : ExecTrace R (execute plan session) s evs (.ok result) s') :
    ∃ history rows s₁ run, Ran R session plan.steps [] s run history rows s₁ ∧
      run <+: evs ∧ performed evs = performed run ∧ (OncePerLeaf plan evs result ↔
        ∀ t ∈ history, ∀ attempt ∈ t.failed, performed attempt = []) := by
  obtain ⟨history, rows, s₁, run, hran, hprefix, hevs, hrows⟩ := traced_execute h
  refine ⟨history, rows, s₁, run, hran, hprefix, hevs, ?_⟩
  obtain ⟨hrun, haccumulated, hleaves⟩ := hran.performed
  rw [← wasted_eq_nil]
  constructor
  · rintro ⟨returned, hreturned, hperm, -⟩
    have hlen : (performed evs).length = returned.length := hperm.length_eq
    have hlen' : returned.length = ((leafSequence plan.steps).filter QueryStep.acts).length := by
      rw [← hreturned, List.length_map]
    rw [hevs, hrun, length_tries, hleaves] at hlen
    exact List.length_eq_zero_iff.mp (by omega)
  · intro hnone
    refine ⟨performed evs, ?_, List.Perm.refl _, ?_⟩
    · rw [hevs, hrun, leaves_of_none_wasted hnone, hleaves]
    · rw [hrows, haccumulated, hevs]
      rfl

end

/-! ## A failing upsert -/

section Witnesses

attribute [local instance] Crates.sample Environs.sample

/-- Components that do what they are asked. -/
def oblige : (o : Op) → o.Ret
  | .component _ => true
  | .checkAccess .. => .ok .allow
  | .executeRawRead .. | .getMemories .. | .searchContent .. | .searchMemoriesByTag .. => .ok []
  | .executeRawWrite .. | .upsert .. => .ok ()
  | .insertMemory .. => .ok ("", .null)
  | .search .. | .hybridSearch .. => .ok []
  | .pushNow | .pullNow => .ok .null
  | .createBranch .. | .triggerReflection .. => .ok (.ok .null)
  | .merge .. => .ok ⟨.null, .null⟩
  | .diff .. => .ok ⟨.null, .null, .null, .null⟩
  | .publish _ | .sleep _ => ()
  | .elapsed => (0 : Nat)
  | .newV4 => (0 : Uuid)

/-- Such components, whose next upserts, as many as the state says, fail. -/
def flaky : Handler Services Nat
  | .upsert .., n + 1 => (.error "timed out", n)
  | o, n => (oblige o, n)

def assistant : SessionContext := ⟨1, 2, "t", "assistant", ["*"], "default", 3600⟩

def note : QueryPlan := MemoryPlanner.plan 7 (.remember 2 "x" "semantic" .null [])

def noteEvents (failures : Nat) : List (Exchange Services) :=
  (execute note assistant).events flaky failures

theorem note_runs (failures : Nat) (h : failures ≤ 2) :
    ExecTrace flaky.rel (execute note assistant) failures (noteEvents failures)
      (.ok (.executed note [] 0)) 0 := by
  have ht := traced_events flaky (execute note assistant) failures
  match failures, h with
  | 0, _ => exact ht
  | 1, _ => exact ht
  | 2, _ => exact ht

/-- The upsert fails once with a passing error: the memory is written twice. -/
theorem note_written_twice :
    ExecTrace flaky.rel (execute note assistant) 1 (noteEvents 1) (.ok (.executed note [] 0)) 0 ∧
      ¬OncePerLeaf note (noteEvents 1) (.executed note [] 0) := by
  refine ⟨note_runs 1 (by decide), ?_⟩
  rintro ⟨returned, hreturned, hperm, -⟩
  have hlen : 3 = returned.length := hperm.length_eq
  have hlen' : returned.length = 2 := by
    rw [← List.length_map (f := Prod.fst), hreturned]
    rfl
  omega

/-- Nothing fails: each leaf takes effect once. -/
theorem once_per_leaf_note :
    ∃ history rows s₁ run, Ran flaky.rel assistant note.steps [] 0 run history rows s₁ ∧
      run <+: noteEvents 0 ∧ performed (noteEvents 0) = performed run ∧
      (OncePerLeaf note (noteEvents 0) (.executed note [] 0) ↔
        ∀ t ∈ history, ∀ attempt ∈ t.failed, performed attempt = []) :=
  once_per_leaf_iff (note_runs 0 (by decide))

end Witnesses

end ClawDB.Planning
