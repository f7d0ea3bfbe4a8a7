/-
# `Query.Router` — one guard decision, read in two places

`query/router.rs` asks the guard once and turns a denial into an error before anything else is
asked of a component.  The executor asks the guard at every `GuardCheck` step and looks only at
whether the call itself failed: a denial, which comes back as `Ok`, is a check passed.

`Refuses` is what a denial should lead to, said of the events of a run and its result; a leaf
is begun by the question for its component.
-/
import ClawDB.Query.Executor

namespace ClawDB.Planning

open Effect Prog
open Json (Value)
open Session (SessionContext)

/-! ## `QueryRouter` -/

abbrev Route := Try Services QueryError

/-- `self.lifecycle.c()?` -/
def lifecycle (c : Component) : Route Unit :=
  ExceptT.mk (call (.component c) >>= fun
    | true => .pure (.ok ())
    | false => .pure (.error (.componentNotReady c.name)))

/-- `x.call(..).await?` -/
def ask {α : Type} (c : Component) (p : Task (Except String α)) : Route α := Try.of p (.failed c)

def publish (event : BusEvent) : Route Unit := Try.lift (call (.publish event))

section Definitions

variable [Crates]

def routeRemember : Query → Route QueryResultData
  | .remember agentId content memoryType metadata tags => do
      lifecycle .core
      let (memoryId, importance) ← ask .core (call
        (.insertMemory (Crates.uuidToString agentId) content memoryType metadata tags))
      lifecycle .vector
      -- the outcome of the upsert is dropped
      let _ ← Try.lift (call (.upsert "memories" memoryId content metadata))
      publish (.memoryAdded agentId ((Crates.parseStr memoryId).getD 0) memoryType)
      pure (.memoryEntries
        [.object [("importance_score", importance), ("memory_id", .string memoryId)]])
  | _ => throw (.queryExecutionFailed "remember" "unexpected query variant")

def routeSemanticSearch : Query → Route QueryResultData
  | .search agentId text _ topK filter alpha => do
      lifecycle .vector
      let results ← ask .vector (call (.hybridSearch "memories" text topK filter alpha))
      lifecycle .core
      let memories ← ask .core (call (.getMemories (Crates.uuidToString agentId)
        (results.map fun r => Crates.uuidToString r.id)))
      publish (.searchExecuted agentId (String.ofList (text.toList.take 80)) memories.length 0)
      pure (.searchResults memories)
  | _ => throw (.queryExecutionFailed "semantic_search" "unexpected query variant")

def routeKeywordSearch : Query → Route QueryResultData
  | .search agentId text _ _ _ _ => do
      lifecycle .core
      let results ← ask .core (call (.searchContent (Crates.uuidToString agentId) text))
      let tagResults ← ask .core
        (call (.searchMemoriesByTag (Crates.uuidToString agentId) [text]))
      pure (.searchResults (results ++ tagResults))
  | _ => throw (.queryExecutionFailed "keyword_search" "unexpected query variant")

def routeRecall : Query → Route QueryResultData
  | .recall agentId memoryIds => do
      lifecycle .core
      let memories ← ask .core (call (.getMemories (Crates.uuidToString agentId)
        (memoryIds.map Crates.uuidToString)))
      pure (.memoryEntries memories)
  | _ => throw (.queryExecutionFailed "recall" "unexpected query variant")

def routeBranchOp : Query → Route QueryResultData
  | .branch _ parent name description => do
      lifecycle .branch
      let info ← ask .branch (call (.createBranch parent name description))
      .branchInfo <$> Try.of (.pure info) .serialization
  | _ => throw (.queryExecutionFailed "branch_op" "unexpected query variant")

def routeMerge : Query → Route QueryResultData
  | .merge _ source target strategy => do
      lifecycle .branch
      let stats ← ask .branch (call (.merge source target strategy))
      pure (.branchInfo
        (.object [("applied", stats.applied), ("conflicts", stats.conflicts)]))
  | _ => throw (.queryExecutionFailed "merge" "unexpected query variant")

def routeDiff : Query → Route QueryResultData
  | .diff _ branchA branchB => do
      lifecycle .branch
      let stats ← ask .branch (call (.diff branchA branchB))
      pure (.branchInfo (.object [("added", stats.added),
        ("divergence_score", stats.divergenceScore), ("modified", stats.modified),
        ("removed", stats.removed)]))
  | _ => throw (.queryExecutionFailed "diff" "unexpected query variant")

def routeSync : Query → Route QueryResultData
  | .sync agentId => do
      lifecycle .sync
      let pushed ← ask .sync (call .pushNow)
      let pulled ← ask .sync (call .pullNow)
      publish (.syncCompleted agentId pushed pulled)
      pure (.syncResult (.object [("pulled", pulled), ("pushed", pushed)]))
  | _ => throw (.queryExecutionFailed "sync" "unexpected query variant")

def routeReflect : Query → Route QueryResultData
  | .reflect agentId jobType dryRun => do
      lifecycle .reflect
      let outcome ← ask .reflect (call (.triggerReflection agentId jobType dryRun))
      .reflectResult <$> Try.of (.pure outcome) .serialization
  | _ => throw (.queryExecutionFailed "reflect" "unexpected query variant")

def routeQuery (query : Query) : Route QueryResultData :=
  match query with
  | .remember .. => routeRemember query
  | .search _ _ semantic _ _ _ =>
      if semantic then routeSemanticSearch query else routeKeywordSearch query
  | .recall .. => routeRecall query
  | .branch .. => routeBranchOp query
  | .merge .. => routeMerge query
  | .diff .. => routeDiff query
  | .sync .. => routeSync query
  | .reflect .. => routeReflect query
  | .raw sql params _ => do
      lifecycle .core
      .memoryEntries <$> ask .core (call (.executeRawRead sql params))

/-- What follows a decision that is not a denial. -/
def carryOut (query : Query) (decision : AccessDecision) : Route QueryResult := do
  let data ← routeQuery query
  let queryId ← Try.lift (call .newV4)
  let latencyMs ← Try.lift (call .elapsed)
  pure ⟨queryId, data, latencyMs, decide (decision ≠ .allow), false⟩

/-- What follows a denial. -/
def refuse (query : Query) (reason : String) : Route QueryResult := do
  publish (.guardDenied query.agentId query.targetComponent "memory" reason)
  throw (.denied reason)

def follow (query : Query) : AccessDecision → Route QueryResult
  | .deny reason => refuse query reason
  | decision => carryOut query decision

/-- Routes `query` for the given `session`. -/
def route (query : Query) (session : SessionContext) : Route QueryResult := do
  lifecycle .guard
  let decision ← ask .guard
    (call (.checkAccess session.token query.targetComponent "memory" [] session.taskType))
  follow query decision

end Definitions

/-! ## What a denial should lead to -/

/-- The reply is a denial. -/
def denied : (o : Op) → o.Ret → Bool
  | .checkAccess .., .ok (.deny _) => true
  | _, _ => false

/-- A leaf begins here. -/
def starts : Op → Bool
  | .component _ => true
  | _ => false

/-- After every denial the run ends with an error, and no leaf is begun. -/
def Refuses {α : Type} (evs : List (Exchange Services)) (r : Except QueryError α) : Prop :=
  ∀ pre ev post, evs = pre ++ ev :: post → denied ev.1 ev.2 = true →
    (∃ e, r = .error e) ∧ ∀ ev' ∈ post, starts ev'.1 = false

/-- What the executor does after a denial: it returns `Ok`, or begins another leaf. -/
def Ignores {α : Type} (evs : List (Exchange Services)) (r : Except QueryError α) : Prop :=
  ∀ pre ev post, evs = pre ++ ev :: post → denied ev.1 ev.2 = true →
    (∃ a, r = .ok a) ∨ ∃ ev' ∈ post, starts ev'.1 = true

section Ignores

variable {α β : Type} {evs rest : List (Exchange Services)} {r : Except QueryError α}
  {r' : Except QueryError β}

theorem not_denied {pre post : List (Exchange Services)} {ev : Exchange Services}
    (h : ∀ ev ∈ evs, denied ev.1 ev.2 = false) (hsplit : evs = pre ++ ev :: post) :
    denied ev.1 ev.2 ≠ true := by
  rw [h ev (hsplit ▸ List.mem_append_cons_self)]
  exact Bool.false_ne_true

theorem Refuses.of_none (h : ∀ ev ∈ evs, denied ev.1 ev.2 = false) : Refuses evs r := by
  intro pre ev post hsplit hden
  exact absurd hden (not_denied h hsplit)

theorem Ignores.of_none (h : ∀ ev ∈ evs, denied ev.1 ev.2 = false) : Ignores evs r := by
  intro pre ev post hsplit hden
  exact absurd hden (not_denied h hsplit)

/-- A run that ignores denials refuses those that did not occur. -/
theorem Ignores.refuses_iff (h : Ignores evs r) :
    Refuses evs r ↔ ∀ ev ∈ evs, denied ev.1 ev.2 = false := by
  constructor
  · intro hr ev hev
    obtain ⟨pre, post, hsplit⟩ := List.append_of_mem hev
    by_contra hden
    have hden : denied ev.1 ev.2 = true := by simpa using hden
    obtain ⟨⟨e, herror⟩, hnone⟩ := hr pre ev post hsplit hden
    rcases h pre ev post hsplit hden with ⟨a, hok⟩ | ⟨ev', hev', hstarts⟩
    · rw [herror] at hok
      cases hok
    · rw [hnone ev' hev'] at hstarts
      cases hstarts
  · exact Refuses.of_none

theorem Refuses.append_none (hnone : ∀ ev ∈ evs, denied ev.1 ev.2 = false)
    (h : Refuses rest r) : Refuses (evs ++ rest) r := by
  intro pre ev post hsplit hden
  rcases split_append hsplit with ⟨mid, rfl, -⟩ | ⟨mid, rfl, hrest⟩
  · rw [hnone ev List.mem_append_cons_self] at hden
    cases hden
  · exact h mid ev post hrest hden

/-- A run that ends with an error and begins no leaf. -/
theorem Refuses.of_error {e : QueryError} (hr : r = .error e)
    (hnone : ∀ ev ∈ evs, starts ev.1 = false) : Refuses evs r := by
  intro pre ev post hsplit _
  refine ⟨⟨e, hr⟩, fun ev' hev' => hnone ev' ?_⟩
  rw [hsplit]
  exact List.mem_append_right _ (List.mem_cons_of_mem _ hev')

/-- The result may be another one, if it is `Ok` where the first one is. -/
theorem Ignores.result (h : Ignores evs r) (hok : (∃ a, r = .ok a) → ∃ b, r' = .ok b) :
    Ignores evs r' :=
  fun pre ev post hsplit hden => (h pre ev post hsplit hden).imp hok id

theorem Ignores.of_ok {b : β} : Ignores evs (.ok b : Except QueryError β) :=
  fun _ _ _ _ _ => .inl ⟨b, rfl⟩

/-- Events without a denial, after an error. -/
theorem Ignores.append_none {e : QueryError} (h : Ignores evs (.error e : Except QueryError α))
    (hnone : ∀ ev ∈ rest, denied ev.1 ev.2 = false) : Ignores (evs ++ rest) r' := by
  intro pre ev post hsplit hden
  rcases split_append hsplit with ⟨mid, hevs, rfl⟩ | ⟨mid, rfl, hrest⟩
  · rcases h pre ev mid hevs hden with ⟨a, hok⟩ | ⟨ev', hev', hstarts⟩
    · cases hok
    · exact .inr ⟨ev', List.mem_append_left _ hev', hstarts⟩
  · exact absurd hden (not_denied hnone hrest)

/-- A part of the executor ignores denials, and goes on or begins a leaf. -/
structure Heedless {α : Type} (evs : List (Exchange Services)) (r : Except QueryError α) :
    Prop where
  ignores : Ignores evs r
  next : (∃ a, r = .ok a) ∨ ∃ ev ∈ evs, starts ev.1 = true

/-- What comes after an ignored denial either begins a leaf or ends well. -/
theorem Heedless.append (h : Heedless evs r) (h' : Heedless rest r') :
    Heedless (evs ++ rest) r' where
  next := h'.next.imp id fun ⟨ev, hev, hs⟩ => ⟨ev, List.mem_append_right _ hev, hs⟩
  ignores := by
    intro pre ev post hsplit hden
    rcases split_append hsplit with ⟨mid, hevs, rfl⟩ | ⟨mid, rfl, hrest⟩
    · rcases h.ignores pre ev mid hevs hden with _ | ⟨ev', hev', hstarts⟩
      · exact h'.next.imp id fun ⟨ev', hev', hs⟩ => ⟨ev', List.mem_append_right _ hev', hs⟩
      · exact .inr ⟨ev', List.mem_append_left _ hev', hstarts⟩
    · exact h'.ignores mid ev post hrest hden

end Ignores

/-! ## The executor -/

section Executor

variable {σ : Type} {R : Rel Services σ} {s s' : σ} {evs : List (Exchange Services)}

/-- A body that is answered with a denial ends well. -/
def Lenient (R : Rel Services σ) (body : Task (Except String Rows)) : Prop :=
  ∀ s evs r s', ExecTrace R body s evs r s' →
    ∀ ev ∈ evs, denied ev.1 ev.2 = true → ∃ rows, r = .ok rows

theorem Lenient.of_call {o : Op} {f : o.Ret → Except String Rows}
    (h : ∀ r, denied o r = true → ∃ rows, f r = .ok rows) : Lenient R (f <$> call o) := by
  intro s evs r s' ht ev hev hden
  obtain ⟨r, hr, rfl⟩ := traced_map.mp ht
  obtain ⟨rfl, -⟩ := traced_perform.mp hr
  obtain rfl := List.mem_singleton.mp hev
  exact h r hden

theorem Heedless.of_leaf {c : Component} {body : Task (Except String Rows)} {accumulated : Rows}
    {out : Outcome} (h : ExecTrace R (leaf c body accumulated) s evs out s')
    (hbody : Lenient R body) : Heedless evs out.1 := by
  obtain ⟨first, rest, up, s₁, rfl, hup, hrest⟩ := traced_bind.mp h
  obtain ⟨rfl, -⟩ := traced_perform.mp hup
  refine ⟨?_, .inr ⟨_, List.mem_cons_self, rfl⟩⟩
  cases up with
  | false =>
      obtain ⟨rfl, rfl, -⟩ := traced_pure.mp hrest
      refine Ignores.of_none fun ev hev => ?_
      obtain rfl := List.mem_singleton.mp hev
      rfl
  | true =>
      obtain ⟨r, hr, rfl⟩ := traced_map.mp hrest
      intro pre ev post hsplit hden
      have hev : ev ∈ [(⟨.component c, true⟩ : Exchange Services)] ++ rest :=
        hsplit ▸ List.mem_append_cons_self
      rcases List.mem_cons.mp hev with rfl | hev
      · cases hden
      · obtain ⟨rows, rfl⟩ := hbody _ _ _ _ hr ev hev hden
        exact .inl ⟨(), rfl⟩

theorem Lenient.of_harmless {body : Task (Except String Rows)}
    (h : body.Within fun o => ∀ r, denied o r = false) : Lenient R body := by
  intro s evs r s' ht ev hev hden
  rw [ht.within h ev hev] at hden
  cases hden

variable [Environs] [Crates]

mutual

theorem heedless_executeStep {session : SessionContext} {s s' : σ} {evs : List (Exchange Services)}
    {out : Outcome} : ∀ (step : QueryStep) {accumulated : Rows},
      ExecTrace R (executeStep session step accumulated) s evs out s' → Heedless evs out.1
  | .guardCheck _, _, h => .of_leaf h <| .of_call fun r hden => by
      cases r with
      | ok decision => exact ⟨[], rfl⟩
      | error message => cases hden
  | .coreRead _, _, h => .of_leaf h (.of_harmless ⟨fun _ => rfl, fun _ => trivial⟩)
  | .coreWrite _, _, h => .of_leaf h (.of_harmless ⟨fun _ => rfl, fun _ => trivial⟩)
  | .vectorSearch .., _, h => .of_leaf h (.of_harmless ⟨fun _ => rfl, fun _ => trivial⟩)
  | .vectorUpsert _, _, h =>
      .of_leaf h (.of_harmless ⟨fun _ => rfl, fun _ => ⟨fun _ => rfl, fun _ => trivial⟩⟩)
  | .syncPush, _, h => .of_leaf h (.of_harmless ⟨fun _ => rfl, fun _ => trivial⟩)
  | .syncPull, _, h => .of_leaf h (.of_harmless ⟨fun _ => rfl, fun _ => trivial⟩)
  | .branchOp _, _, h => .of_leaf h (.of_harmless trivial)
  | .reflectJob _, _, h => .of_leaf h (.of_harmless ⟨fun _ => rfl, fun _ => trivial⟩)
  | .parallel steps, _, h => heedless_executeAll steps h
  | .sequential steps, _, h => heedless_executeAll steps h

theorem heedless_executeAll {session : SessionContext} {s s' : σ} {evs : List (Exchange Services)}
    {out : Outcome} : ∀ (steps : List QueryStep) {accumulated : Rows},
      ExecTrace R (executeAll session steps accumulated) s evs out s' → Heedless evs out.1
  | [], _, h => by
      obtain ⟨rfl, rfl, -⟩ := traced_pure.mp h
      exact ⟨.of_ok, .inl ⟨(), rfl⟩⟩
  | step :: steps, _, h => by
      obtain ⟨first, rest, ⟨r, mid⟩, s₁, rfl, hstep, hrest⟩ := traced_bind.mp h
      have hfirst := heedless_executeStep step hstep
      cases r with
      | ok u => exact hfirst.append (heedless_executeAll steps hrest)
      | error e =>
          obtain ⟨rfl, rfl, -⟩ := traced_pure.mp hrest
          rw [List.append_nil]
          exact hfirst

end

theorem heedless_tried {session : SessionContext} {step : QueryStep} {delays : List Nat}
    {accumulated : Rows} {failed : List (List (Exchange Services))}
    {last : List (Exchange Services)} {out : Outcome}
    (h : Tried R (executeStep session step) (fun ms => call (.sleep ms)) Environs.isTransient
      delays accumulated s evs failed last out s') : Heedless evs out.1 := by
  induction h with
  | last ht => exact heedless_executeStep step ht
  | again ht _ hwait _ ih =>
      obtain ⟨rfl, -⟩ := traced_perform.mp hwait
      rw [List.append_assoc]
      refine (heedless_executeStep step ht).append (Heedless.append (r := .ok ()) ?_ ih)
      exact ⟨.of_ok, .inl ⟨(), rfl⟩⟩

theorem heedless_runSteps {session : SessionContext} {steps : List QueryStep}
    {accumulated : Rows} {r : Except QueryError Rows}
    (h : ExecTrace R (runSteps session steps accumulated) s evs r s') : Heedless evs r := by
  induction steps generalizing accumulated s evs with
  | nil =>
      obtain ⟨rfl, rfl, -⟩ := traced_pure.mp h
      exact ⟨.of_ok, .inl ⟨_, rfl⟩⟩
  | cons step steps ih =>
      obtain ⟨first, rest, ⟨out, mid⟩, s₁, rfl, hstep, hrest⟩ := traced_bind.mp h
      obtain ⟨failed, last, htried⟩ := traced_retryWith hstep
      have hfirst : Heedless first out := heedless_tried htried
      cases out with
      | ok u => exact hfirst.append (ih hrest)
      | error e =>
          obtain ⟨published, more, _, s₂, rfl, hpublish, hend⟩ := traced_bind.mp hrest
          obtain ⟨rfl, -⟩ := traced_perform.mp hpublish
          obtain ⟨rfl, rfl, -⟩ := traced_pure.mp hend
          refine ⟨hfirst.ignores.append_none fun ev hev => ?_, .inr ?_⟩
          · obtain rfl := List.mem_singleton.mp hev
            rfl
          · rcases hfirst.next with ⟨a, hok⟩ | ⟨ev, hev, hs⟩
            · cases hok
            · exact ⟨ev, List.mem_append_left _ hev, hs⟩

theorem ignores_execute {plan : QueryPlan} {session : SessionContext}
    {r : Except QueryError QueryResult}
    (h : ExecTrace R (execute plan session) s evs r s') : Ignores evs r := by
  obtain ⟨run, rest, out, s₁, rfl, hrun, hrest⟩ := traced_bind.mp h
  have hrun' := heedless_runSteps hrun
  cases out with
  | error e =>
      obtain ⟨rfl, rfl, -⟩ := traced_pure.mp hrest
      rw [List.append_nil]
      exact hrun'.ignores.result fun ⟨_, hok⟩ => nomatch hok
  | ok rows =>
      obtain ⟨_, _, _, _, rfl, -, hend⟩ := traced_bind.mp hrest
      obtain ⟨-, rfl, -⟩ := traced_pure.mp hend
      exact .of_ok

/-- A run of an optimised plan does what it should after each denial exactly if no check is
answered with a denial. -/
theorem denial_refused_iff {id : Uuid} {query : Query} {session : SessionContext}
    {r : Except QueryError QueryResult}
    (h : ExecTrace R (execute (QueryOptimizer.optimise (MemoryPlanner.plan id query)) session)
      s evs r s') :
    Refuses evs r ↔ ∀ ev ∈ evs, denied ev.1 ev.2 = false :=
  (ignores_execute h).refuses_iff

end Executor

/-! ## The router -/

section Router

variable {σ : Type} {R : Rel Services σ} {s s' : σ} {evs : List (Exchange Services)}

/-- The operation cannot be answered with a denial. -/
def Harmless (o : Op) : Prop := ∀ r, denied o r = false

theorem harmless_call {o : Op} (h : Harmless o) : (call o).Within Harmless :=
  ⟨h, fun _ => trivial⟩

theorem harmless_lifecycle (c : Component) : (lifecycle c).run.Within Harmless :=
  ⟨fun _ => rfl, fun up => by cases up <;> trivial⟩

theorem harmless_ask {α : Type} {c : Component} {p : Task (Except String α)}
    (h : p.Within Harmless) : (ask c p).run.Within Harmless :=
  Try.within_of h

theorem harmless_publish (event : BusEvent) : (publish event).run.Within Harmless :=
  Try.within_lift (harmless_call fun _ => rfl)

theorem harmless_pure {α : Type} (a : α) : (pure a : Route α).run.Within Harmless := trivial

/-- After a denial the router publishes it and returns an error. -/
theorem traced_refuse {query : Query} {reason : String} {r : Except QueryError QueryResult}
    (h : ExecTrace R (refuse query reason).run s evs r s') :
    evs = [⟨.publish (.guardDenied query.agentId query.targetComponent "memory" reason), ()⟩] ∧
      r = .error (.denied reason) := by
  obtain ⟨r', s₁, rest, rfl, -, hrest⟩ := traced_op.mp h
  obtain ⟨rfl, rfl, -⟩ := traced_pure.mp hrest
  exact ⟨rfl, rfl⟩

variable [Crates]

theorem harmless_routeQuery (query : Query) : (routeQuery query).run.Within Harmless := by
  cases query with
  | remember agentId content memoryType metadata tags =>
      refine Try.within_bind (harmless_lifecycle _) fun _ => ?_
      refine Try.within_bind (harmless_ask (harmless_call fun _ => rfl)) fun _ => ?_
      refine Try.within_bind (harmless_lifecycle _) fun _ => ?_
      refine Try.within_bind (Try.within_lift (harmless_call fun _ => rfl)) fun _ => ?_
      exact Try.within_bind (harmless_publish _) fun _ => harmless_pure _
  | search agentId text semantic topK filter alpha =>
      cases semantic with
      | true =>
          refine Try.within_bind (harmless_lifecycle _) fun _ => ?_
          refine Try.within_bind (harmless_ask (harmless_call fun _ => rfl)) fun _ => ?_
          refine Try.within_bind (harmless_lifecycle _) fun _ => ?_
          refine Try.within_bind (harmless_ask (harmless_call fun _ => rfl)) fun _ => ?_
          exact Try.within_bind (harmless_publish _) fun _ => harmless_pure _
      | false =>
          refine Try.within_bind (harmless_lifecycle _) fun _ => ?_
          refine Try.within_bind (harmless_ask (harmless_call fun _ => rfl)) fun _ => ?_
          refine Try.within_bind (harmless_ask (harmless_call fun _ => rfl)) fun _ => ?_
          exact harmless_pure _
  | «recall» agentId memoryIds =>
      refine Try.within_bind (harmless_lifecycle _) fun _ => ?_
      exact Try.within_bind (harmless_ask (harmless_call fun _ => rfl)) fun _ => harmless_pure _
  | branch agentId parent name description =>
      refine Try.within_bind (harmless_lifecycle _) fun _ => ?_
      refine Try.within_bind (harmless_ask (harmless_call fun _ => rfl)) fun info => ?_
      cases info <;> trivial
  | merge agentId source target strategy =>
      refine Try.within_bind (harmless_lifecycle _) fun _ => ?_
      exact Try.within_bind (harmless_ask (harmless_call fun _ => rfl)) fun _ => harmless_pure _
  | diff agentId branchA branchB =>
      refine Try.within_bind (harmless_lifecycle _) fun _ => ?_
      exact Try.within_bind (harmless_ask (harmless_call fun _ => rfl)) fun _ => harmless_pure _
  | sync agentId =>
      refine Try.within_bind (harmless_lifecycle _) fun _ => ?_
      refine Try.within_bind (harmless_ask (harmless_call fun _ => rfl)) fun _ => ?_
      refine Try.within_bind (harmless_ask (harmless_call fun _ => rfl)) fun _ => ?_
      exact Try.within_bind (harmless_publish _) fun _ => harmless_pure _
  | reflect agentId jobType dryRun =>
      refine Try.within_bind (harmless_lifecycle _) fun _ => ?_
      refine Try.within_bind (harmless_ask (harmless_call fun _ => rfl)) fun outcome => ?_
      cases outcome <;> trivial
  | raw sql params entityType =>
      refine Try.within_bind (harmless_lifecycle _) fun _ => ?_
      exact Try.within_bind (harmless_ask (harmless_call fun _ => rfl)) fun _ => harmless_pure _

theorem harmless_carryOut (query : Query) (decision : AccessDecision) :
    (carryOut query decision).run.Within Harmless := by
  refine Try.within_bind (harmless_routeQuery query) fun _ => ?_
  refine Try.within_bind (Try.within_lift (harmless_call fun _ => rfl)) fun _ => ?_
  exact Try.within_bind (Try.within_lift (harmless_call fun _ => rfl)) fun _ => harmless_pure _

/-- The router does what it should after a denial. -/
theorem route_refuses {query : Query} {session : SessionContext}
    {r : Except QueryError QueryResult}
    (h : ExecTrace R (route query session).run s evs r s') : Refuses evs r := by
  rcases Try.traced_bind h with ⟨e, hup, -⟩ | ⟨first, rest, _, s₁, rfl, hup, hrest⟩
  · exact .of_none fun ev hev => hup.within (harmless_lifecycle _) ev hev ev.2
  refine .append_none (fun ev hev => hup.within (harmless_lifecycle _) ev hev ev.2) ?_
  rcases Try.traced_bind hrest with
    ⟨e, hcheck, rfl⟩ | ⟨check, after, decision, s₂, rfl, hcheck, hafter⟩
  · obtain ⟨reply, hreply, hend⟩ := Try.traced_of.mp hcheck
    obtain ⟨rfl, -⟩ := traced_perform.mp hreply
    refine .of_none fun ev hev => ?_
    obtain rfl := List.mem_singleton.mp hev
    cases reply with
    | ok decision => cases hend
    | error message => rfl
  · obtain ⟨reply, hreply, hend⟩ := Try.traced_of.mp hcheck
    obtain ⟨rfl, -⟩ := traced_perform.mp hreply
    cases reply with
    | error message => cases hend
    | ok found =>
        obtain rfl := Except.ok.inj hend
        cases decision with
        | deny reason =>
            obtain ⟨rfl, rfl⟩ := traced_refuse hafter
            refine .of_error rfl fun ev hev => ?_
            rcases List.mem_cons.mp hev with rfl | hev
            · rfl
            · obtain rfl := List.mem_singleton.mp hev
              rfl
        | allow =>
            refine .of_none fun ev hev => ?_
            rcases List.mem_cons.mp hev with rfl | hev
            · rfl
            · exact hafter.within (harmless_carryOut _ _) ev hev ev.2
        | other =>
            refine .of_none fun ev hev => ?_
            rcases List.mem_cons.mp hev with rfl | hev
            · rfl
            · exact hafter.within (harmless_carryOut _ _) ev hev ev.2

end Router

/-! ## A denial, ignored -/

section Witnesses

attribute [local instance] Crates.sample Environs.sample

/-- Components that do what they are asked, and a guard that denies everything. -/
def denying : Handler Services Unit
  | .checkAccess .., u => (.ok (.deny "no"), u)
  | o, u => (oblige o, u)

def snoop : Query := .raw "SELECT 1" [] "memory"

theorem optimise_snoop :
    QueryOptimizer.optimise (MemoryPlanner.plan 7 snoop) = MemoryPlanner.plan 7 snoop :=
  QueryOptimizer.optimise_of_apart ⟨fun h => (nomatch h.1), trivial⟩
    ⟨fun h => (nomatch h.1), trivial⟩

def snoopEvents : List (Exchange Services) :=
  (execute (MemoryPlanner.plan 7 snoop) assistant).events denying ()

def snoopResult : QueryResult := .executed (MemoryPlanner.plan 7 snoop) [] 0

theorem snoop_runs :
    ExecTrace denying.rel (execute (QueryOptimizer.optimise (MemoryPlanner.plan 7 snoop)) assistant)
      () snoopEvents (.ok snoopResult) () := by
  rw [optimise_snoop]
  exact traced_events denying (execute (MemoryPlanner.plan 7 snoop) assistant) ()

/-- The guard denies the query, and the executor reads the rows and returns `Ok`. -/
theorem snoop_denied_and_read :
    ExecTrace denying.rel (execute (QueryOptimizer.optimise (MemoryPlanner.plan 7 snoop)) assistant)
        () snoopEvents (.ok snoopResult) () ∧
      ¬Refuses snoopEvents (.ok snoopResult : Except QueryError QueryResult) := by
  refine ⟨snoop_runs, fun h => ?_⟩
  obtain ⟨⟨e, herror⟩, -⟩ := h [⟨.component .guard, true⟩]
    ⟨.checkAccess "t" "raw_sql" "memory" [] "default", .ok (.deny "no")⟩ _ rfl rfl
  cases herror

theorem denial_refused_snoop :
    Refuses snoopEvents (.ok snoopResult : Except QueryError QueryResult) ↔
      ∀ ev ∈ snoopEvents, denied ev.1 ev.2 = false :=
  denial_refused_iff snoop_runs

end Witnesses

end ClawDB.Planning
