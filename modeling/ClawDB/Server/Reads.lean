/-
# `Server.Reads` — what a `GET` leaves behind

Nineteen routes are asked with `GET`.  Between them they perform the operations of `Op.reads` and
no others: lookups, the counters and notices that go with them, and the limiter of `GET`
requests, which is not the one that the other requests are counted against.

`get_requests_read` says what follows for runs, whatever the components do, as long as lookups
change nothing.  Take the `GET` requests out of a run of the server, both front ends included,
and what is left is a run of the other requests, to the same components and with the same
replies.  And where nothing but `GET` requests is served, each gets a reply it could have got
alone.
-/
import ClawDB.Lib.Quiet
import ClawDB.Lib.Trace
import ClawDB.Memories
import ClawDB.Server.Conforms
import ClawDB.Server.Router

namespace ClawDB

open Effect Prog

/-! ## Reading -/

/-- The operations that look something up, and what is told of them to the process. -/
def Op.reads : Op → Bool
  | .guard (.validateSession _) | .guard .countSessions => true
  | .core (.getMemory _) | .core (.listMemories _) | .core (.ftsSearch _) | .core .stats => true
  | .vector (.searchTextInWorkspace ..) | .vector .stats => true
  | .branch (.get _) | .branch .list | .branch (.getByName _) | .branch .trunk
  | .branch (.diff ..) => true
  | .sync .status => true
  | .reflect (.getFacts _) | .reflect (.listJobs ..) | .reflect (.getJob _)
  | .reflect (.getPreferences _) | .reflect (.getContradictions _) => true
  | .host (.count _) | .host (.emit _) | .host (.checkKey .httpRead _)
  | .host .renderMetrics => true
  | _ => false

/-- A program that reads only. -/
abbrev Reading {α : Type} (p : Act α) : Prop := p.Within fun o : Op => o.reads = true

namespace SessionCall

/-- The methods that look something up. -/
def reads : SessionCall → Bool
  | search _ | searchWithOptions .. | «recall» _ | recallOne _ | listMemories _ | getBranch _
  | listBranches | getBranchByName _ | trunkBranch | diff .. | syncStatus | reflectGetFacts _
  | reflectListJobs .. | reflectGetJob _ | reflectGetPreferences _
  | reflectGetContradictions _ => true
  | _ => false

end SessionCall

theorem reading_authorize {α : Type} {session : ClawDBSession} {accepted : List String}
    {f : Unit → Eng α} (h : Reading (f ()).run) :
    Reading (ClawDBEngine.authorize session accepted >>= f).run :=
  within_authorize rfl rfl (fun _ _ _ => rfl) h

/-- A call on a component that is a lookup. -/
theorem reading_of {ε α : Type} {p : Act (Except ε α)} {e : ε → ClawDBError} (h : Reading p) :
    Reading (Try.of p e : Eng α).run :=
  Try.within_of h

theorem reading_lift {α : Type} {p : Act α} (h : Reading p) : Reading (Try.lift p : Eng α).run :=
  Try.within_lift h

theorem reading_getMemories (ids : List Uuid) : Reading (ClawDBEngine.getMemories ids).run := by
  induction ids with
  | nil => trivial
  | cons id ids ih =>
      exact Try.within_bind (reading_of ⟨rfl, fun _ => trivial⟩) fun r =>
        Try.within_bind ih fun rs => trivial

section Engine

variable [Crates] (db : ClawDBEngine) (session : ClawDBSession)

theorem reading_hits (query : String) (topK : Nat) (semantic : Bool)
    (filter : Option Json.Value) : Reading (db.hits session query topK semantic filter).run := by
  unfold ClawDBEngine.hits
  split
  · exact Try.within_bind (reading_of ⟨rfl, fun _ => trivial⟩) fun _ => trivial
  · exact Try.within_bind (reading_of ⟨rfl, fun _ => trivial⟩) fun _ => trivial

/-- A search counts itself and its hits, and tells of them. -/
theorem reading_searchWithOptions (query : String) (topK : Nat) (semantic : Bool)
    (filter : Option Json.Value) :
    Reading (db.searchWithOptions session query topK semantic filter).run :=
  reading_authorize <|
    Try.within_bind (reading_hits db session query topK semantic filter) fun _ =>
    Try.within_bind (reading_lift ⟨rfl, fun _ => trivial⟩) fun _ =>
    Try.within_bind (reading_lift ⟨rfl, fun _ => trivial⟩) fun _ =>
    Try.within_bind (reading_lift ⟨rfl, fun _ => trivial⟩) fun _ => trivial

omit [Crates] in
theorem reading_viaReflect {α : Type} {accepted : List String} {call : Eng α}
    (h : Reading call.run) : Reading (db.viaReflect session accepted call).run := by
  refine reading_authorize ?_
  split
  · exact h
  · trivial

theorem reading_perform {c : SessionCall} (h : c.reads = true) :
    Reading (c.perform db session).run := by
  cases c
  case search | searchWithOptions => exact reading_searchWithOptions db session ..
  case «recall» ids => exact reading_authorize (reading_getMemories ids)
  case recallOne | listMemories | getBranch | listBranches | getBranchByName | trunkBranch
      | diff => exact reading_authorize (reading_of ⟨rfl, fun _ => trivial⟩)
  case syncStatus => exact reading_authorize (reading_lift ⟨rfl, fun _ => trivial⟩)
  case reflectGetFacts | reflectListJobs | reflectGetJob | reflectGetPreferences
      | reflectGetContradictions =>
    exact reading_viaReflect db session (reading_of ⟨rfl, fun _ => trivial⟩)
  all_goals cases h

omit [Crates] in
theorem reading_health : Reading db.health.run := by
  have hprobe : Reading db.probeVector.run := by
    unfold ClawDBEngine.probeVector
    split
    · exact Try.within_bind (reading_lift ⟨rfl, fun _ => trivial⟩) fun _ => trivial
    · trivial
  have hsync : Reading db.syncHealthy.run := by
    unfold ClawDBEngine.syncHealthy
    split
    · trivial
    · exact Try.within_bind (reading_lift ⟨rfl, fun _ => trivial⟩) fun _ => trivial
  exact Try.within_bind (reading_lift ⟨rfl, fun _ => trivial⟩) fun _ =>
    Try.within_bind hprobe fun _ => Try.within_bind hsync fun _ => trivial

omit [Crates] in
theorem reading_activeSessionCount : Reading ClawDBEngine.activeSessionCount.run :=
  Try.within_bind (reading_of ⟨rfl, fun _ => trivial⟩) fun _ => trivial

end Engine

/-! ## The routes -/

namespace Http

theorem reading_answer {α : Type} {requestId : Option String} {call : Eng α} {ok : α → Response}
    (h : Reading call.run) : Reading (answer requestId call ok) :=
  h.bind fun r => by cases r <;> trivial

theorem reading_extract {α : Type} {x : Extracted α} {handler : α → Act Response}
    (h : ∀ a, Reading (handler a)) : Reading (extract x handler) := by
  cases x with
  | ok a => exact h a
  | error rejection => trivial

/-- The method of a route is `GET`. -/
def Route.isGet : Route → Bool
  | .health | .ready | .metrics => true
  | .createSession _ => false
  | .«protected» route => route.isGet

variable [Crates] (db : ClawDBEngine)

theorem reading_handle {route : Protected} (h : route.isGet = true) (requestId : String)
    (session : ClawDBSession) : Reading (route.handle db requestId session) := by
  have hcall : ∀ (c : SessionCall) {ok : c.Ret → Response}, c.reads = true →
      Reading (answer (some requestId) (c.perform db session) ok) :=
    fun c _ hc => reading_answer (reading_perform db session hc)
  cases route with
  | whoami => trivial
  | activeSessionCount => exact reading_answer reading_activeSessionCount
  | listMemories query => exact reading_extract fun query => hcall (.listMemories query.type) rfl
  | search query =>
      exact reading_extract fun query =>
        hcall (.searchWithOptions query.q query.topK query.semantic none) rfl
  | recallOne id => exact reading_extract fun id => hcall (.«recall» [id]) rfl
  | listBranches => exact hcall .listBranches rfl
  | getTrunkBranch => exact hcall .trunkBranch rfl
  | getBranchByName name => exact hcall (.getBranchByName name) rfl
  | diffBranch id query =>
      exact reading_extract fun id => reading_extract fun query =>
        hcall (.diff id query.target) rfl
  | getBranch id => exact reading_extract fun id => hcall (.getBranch id) rfl
  | syncStatus => exact hcall .syncStatus rfl
  | listReflectJobs query =>
      exact reading_extract fun query =>
        hcall (.reflectListJobs query.agentId query.status _ _) rfl
  | getReflectJob jobId => exact hcall (.reflectGetJob jobId) rfl
  | getReflectFacts agentId => exact hcall (.reflectGetFacts agentId) rfl
  | getReflectPreferences agentId => exact hcall (.reflectGetPreferences agentId) rfl
  | getReflectContradictions agentId => exact hcall (.reflectGetContradictions agentId) rfl
  | _ => cases h

/-- A `GET` reads, in the middlewares as in its handler. -/
theorem reading_serve {request : Request} (h : request.route.isGet = true) :
    Reading (serve db request) := by
  obtain ⟨requestId, authorization, route⟩ := request
  cases route with
  | health => exact reading_answer (reading_health db)
  | ready => exact reading_answer (reading_health db)
  | metrics =>
      refine Within.bind reading_activeSessionCount fun _ => ?_
      exact Within.bind ⟨rfl, fun _ => trivial⟩ fun _ => trivial
  | createSession body => cases h
  | «protected» route =>
      show Reading (authMiddleware authorization fun auth =>
        rateLimitMiddleware requestId route.isGet auth (route.handle db requestId auth.session))
      unfold authMiddleware
      split
      next => trivial
      next token _ =>
          have hvalidate : Reading (ClawDBEngine.validateSession token).run :=
            Try.within_bind (reading_of ⟨rfl, fun _ => trivial⟩) fun _ => trivial
          refine hvalidate.bind fun reply => ?_
          cases reply with
          | error e => trivial
          | ok session =>
              have hget : route.isGet = true := h
              show Reading (rateLimitMiddleware requestId route.isGet _ _)
              rw [hget]
              refine Within.bind ⟨rfl, fun _ => trivial⟩ fun within => ?_
              cases within with
              | false => trivial
              | true => exact reading_handle db hget requestId session

theorem getHandler_isGet [Frameworks] {pattern : Pattern} {params : List String}
    {query : List (String × String)} {route : Route}
    (h : getHandler pattern params query = some route) : route.isGet = true := by
  unfold getHandler at h
  split at h <;> cases h <;> rfl

theorem postHandler_isGet [Frameworks] {pattern : Pattern} {params : List String}
    {body : Option Json.Value} {route : Route} (h : postHandler pattern params body = some route) :
    route.isGet = false := by
  unfold postHandler at h
  split at h <;> cases h <;> rfl

theorem patchHandler_isGet [Frameworks] {pattern : Pattern} {params : List String}
    {body : Option Json.Value} {route : Route}
    (h : patchHandler pattern params body = some route) : route.isGet = false := by
  unfold patchHandler at h
  split at h <;> cases h
  rfl

theorem deleteHandler_isGet [Frameworks] {pattern : Pattern} {params : List String} {route : Route}
    (h : deleteHandler pattern params = some route) : route.isGet = false := by
  unfold deleteHandler at h
  split at h <;> cases h <;> rfl

/-- The routes that are asked with `GET` are those of the router's `GET` table. -/
theorem route_isGet [Frameworks] {request : Cli.HttpRequest} {route : Route}
    (h : Http.route request = some route) : route.isGet = true ↔ request.method = .get := by
  obtain ⟨⟨pattern, params⟩, -, h⟩ := Option.bind_eq_some_iff.mp h
  obtain ⟨method, path, query, body, bearer⟩ := request
  cases method with
  | get => exact ⟨fun _ => rfl, fun _ => getHandler_isGet h⟩
  | post => simp [postHandler_isGet h]
  | patch => simp [patchHandler_isGet h]
  | delete => simp [deleteHandler_isGet h]

end Http

/-! ## Runs -/

section Runs

variable [Crates] (db : ClawDBEngine) {σ M : Type}

/-- Both front ends, before components that behave as `R` says. -/
def frontEnds (R : Rel Sig σ) : Server Sig σ Request Reply := ⟨handle db, R, fun _ => True⟩

def Request.isGet : Request → Bool
  | .http r => r.route.isGet
  | .grpc _ => false

theorem reading_of_isGet {req : Request} (h : req.isGet = true) : Reading (handle db req) := by
  cases req with
  | http r => exact Within.bind (Http.reading_serve db h) fun _ => trivial
  | grpc r => cases h

/-- A `GET` leaves no trace on the components or on the replies to other requests, and `GET`
requests by themselves do not notice each other. -/
theorem get_requests_read {R : Rel Sig σ}
    (hreads : ∀ (o : Op) w r w', o.reads = true → R o w r w' → w' = w)
    {Mo : Monitor Sig Request Reply M} {init : σ → Prop} :
    (∀ c, Pool.Reachable (frontEnds db R) Mo init c →
      Pool.Reachable ((frontEnds db R).only fun req => !req.isGet) Mo init
        (c.only fun req => !req.isGet)) ∧
    (∀ c, Pool.Reachable ((frontEnds db R).only Request.isGet) Mo init c → init c.world ∧
      ∀ e ∈ c.ended, ∀ rep, e.rep = some rep →
        Exec R (handle db e.req) c.world rep c.world) ∧
    ∀ [Http.Frameworks] (text : Cli.HttpRequest) (route : Http.Route),
      Http.route text = some route → (route.isGet = true ↔ text.method = .get) := by
  refine ⟨fun c hc => ?_, fun c hc => ?_, fun text route => Http.route_isGet⟩
  · exact (hc.only (p := fun req => !req.isGet) hreads fun req _ hp =>
      reading_of_isGet db (by simpa using hp)).2
  · have hreading : ∀ req, ((frontEnds db R).only Request.isGet).accepts req →
        Reading (handle db req) := fun req h => reading_of_isGet db h.2
    obtain ⟨hinit, -, hended⟩ := hc.undisturbed hreads hreading
    exact ⟨hinit, hended⟩

end Runs

section Witnesses

attribute [local instance] Crates.sample

theorem reference_reads (o : Op) (w : World) (h : o.reads = true) :
    (Op.reference o w).2 = w := by
  cases o with
  | guard o =>
      cases o with
      | validateSession token =>
          show (GuardOp.reference (.validateSession token) w).2 = w
          simp only [GuardOp.reference]
          split <;> rfl
      | countSessions => rfl
      | _ => cases h
  | core o =>
      cases o with
      | getMemory id =>
          show (CoreOp.reference (.getMemory id) w).2 = w
          simp only [CoreOp.reference]
          split <;> rfl
      | listMemories _ | ftsSearch _ | stats => rfl
      | _ => cases h
  | vector o =>
      cases o with
      | upsertInWorkspace => cases h
      | _ => rfl
  | host o =>
      cases o with
      | newV4 => cases h
      | _ => rfl
  | txs o => cases h
  | branch _ | sync _ | reflect _ => rfl

/-- The owner lists the memories while another request of theirs adds one. -/
def listedPool : Pool Sig World Request Reply Local :=
  Pool.acts (frontEnds vectorDb Op.reference.rel) monitor Op.reference ⟨ownerWorld, [], []⟩
    ([.arrive (.http ⟨"r", some "Bearer t", .protected (.listMemories (.ok ⟨none, none⟩))⟩),
      .run 0, .run 0,
      .arrive (.http ⟨"s", some "Bearer t", .protected (.remember (.ok ⟨"x", none, [], .null⟩))⟩),
      .run 1, .run 1, .run 0] ++ List.replicate 6 (.run 1) ++ [.run 0])

theorem get_requests_read_listed :
    Pool.Reachable ((frontEnds vectorDb Op.reference.rel).only fun req => !req.isGet) monitor
        (· = ownerWorld) (listedPool.only fun req => !req.isGet) ∧
      listedPool.ended.length = 2 ∧
      (listedPool.only fun req => !req.isGet).world.rows.length = 1 ∧
      (listedPool.only fun req => !req.isGet).ended.length = 1 := by
  have hreads : ∀ (o : Op) w r w', o.reads = true → Op.reference.rel o w r w' → w' = w := by
    rintro o w r w' ho ⟨-, rfl⟩
    exact reference_reads o w ho
  have hrefines : Handler.Refines Op.reference Op.reference.rel := fun _ _ => ⟨rfl, rfl⟩
  have hreach : Pool.Reachable (frontEnds vectorDb Op.reference.rel) monitor (· = ownerWorld)
      listedPool :=
    Pool.acts_reachable hrefines _ (fun _ _ => trivial) (.init rfl)
  refine ⟨(get_requests_read vectorDb hreads).1 listedPool hreach, ?_⟩
  decide +kernel

end Witnesses

end ClawDB
