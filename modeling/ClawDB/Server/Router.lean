/-
# `ClawDB.Server.Router` — from the text of a request to a route, and back

The extractors: what a handler is given of a path, a query and a JSON body.  A key of a body or
a query that no field has is dropped, whatever its value.

`respond` is the HTTP server as a client meets it: it finds the route, serves it, and writes the
reply.  What the frameworks answer of their own accord, and how the components' records are
written, are parameters.
-/
import ClawDB.Server.Http
import ClawDB.Server.Endpoints

namespace ClawDB.Http

open Effect
open Json

/-- What `axum`, `serde` and the component crates contribute to a reply. -/
class Frameworks where
  /-- the answer to a path parameter that is not read -/
  pathRejection : String → Rejection
  /-- the answer to a path parameter that is no text -/
  textRejection : Rejection
  /-- the answer to a body that is missing or no JSON -/
  bodyRejection : Rejection
  /-- the answer to a JSON body that is not read -/
  jsonRejection : DecodeError → Rejection
  /-- the answer to a query that is not read -/
  queryRejection : DecodeError → Rejection
  /-- the answer to a request that has no route -/
  noRoute : Rejection
  /-- the pairs of a query, from its text -/
  formPairs : Url.Bytes → List (String × String)
  /-- the answer to a request whose URL or body is too long, as of `RequestBodyLimitLayer` -/
  oversized : String → List (String × String) → Option Value → Option Rejection
  /-- `Serialize for claw_core::MemoryRecord` -/
  recordJson : MemoryRecord → Value
  /-- an `f32` as a JSON number -/
  f32Number : F32 → Number

/-- Plain answers, and records with the members every client reads. -/
@[reducible] def Frameworks.sample [Crates] : Frameworks where
  pathRejection segment := ⟨400, "Invalid URL: " ++ segment, by decide⟩
  textRejection := ⟨400, "Invalid URL: Invalid UTF-8", by decide⟩
  bodyRejection := ⟨400, "Failed to parse the request body as JSON", by decide⟩
  jsonRejection _ := ⟨422, "Failed to deserialize the JSON body into the target type", by decide⟩
  queryRejection _ := ⟨400, "Failed to deserialize query string", by decide⟩
  noRoute := ⟨404, "", by decide⟩
  formPairs _ := []
  oversized _ _ _ := none
  recordJson record := .object [("content", .string record.content), ("id", uuid record.id)]
  f32Number := fun _ => .float 0

/-! ## Extractors -/

section Extractors

variable [Crates]

/-- `Deserialize for Uuid`. -/
def uuidFrom : Decoder Uuid
  | .string s =>
      match Crates.parseStr s with
      | some id => .ok id
      | none => .error (.invalidType "a UUID")
  | _ => .error (.invalidType "a UUID")

def CreateSessionBody.decode : Decoder CreateSessionBody := fun v => do
  let fields ← members v
  let agentId ← required "agent_id" [] uuidFrom fields
  let role ← required "role" [] string fields
  let scopes ← required "scopes" [] (vec string) fields
  let ttlSecs ← defaulted "ttl_secs" [] (option u64) none fields
  pure ⟨agentId, role, scopes, ttlSecs.map UInt64.ofNat⟩

def BranchBody.decode : Decoder BranchBody := fun v => do
  let fields ← members v
  let name ← required "name" [] string fields
  let parent ← defaulted "from" [] (option uuidFrom) none fields
  pure ⟨name, parent⟩

def MergeBody.decode : Decoder MergeBody := fun v => do
  let fields ← members v
  let target ← required "target" ["target_id"] uuidFrom fields
  let strategy ← defaulted "strategy" [] (option string) none fields
  pure ⟨target, strategy⟩

end Extractors

def MemoryBody.decode : Decoder MemoryBody := fun v => do
  let fields ← members v
  let content ← required "content" [] string fields
  let type ← defaulted "type" [] (option string) none fields
  let tags ← defaulted "tags" [] (vec string) [] fields
  let metadata ← defaulted "metadata" [] .ok .null fields
  pure ⟨content, type, tags, metadata⟩

def UpdateMemoryBody.decode : Decoder UpdateMemoryBody := fun v => do
  let fields ← members v
  let content ← required "content" [] string fields
  pure ⟨content⟩

def ResolveContradictionBody.decode : Decoder ResolveContradictionBody := fun v => do
  let fields ← members v
  let strategy ← required "strategy" [] string fields
  let mergedValue ← defaulted "merged_value" [] (option .ok) none fields
  pure ⟨strategy, mergedValue⟩

/-! ### Queries

A query is a list of texts under keys, and a field reads its text. -/

def queryMembers (query : List (String × String)) : List (String × Value) :=
  query.map fun kv => (kv.1, .string kv.2)

def readText {α : Type} (read : String → Option α) (expected : String) : Decoder α
  | .string s =>
      match read s with
      | some a => .ok a
      | none => .error (.invalidType expected)
  | _ => .error (.invalidType expected)

def present {α : Type} (d : Decoder α) : Decoder (Option α) := fun v => (d v).map some

def unsigned (bound : Nat) : Decoder Nat := readText (Text.parseUnsigned bound) "an integer"

def SearchQuery.decode (query : List (String × String)) : Except DecodeError SearchQuery := do
  let fields := queryMembers query
  let q ← required "q" [] string fields
  let topK ← defaulted "top_k" [] (unsigned UInt64.size) 10 fields
  let semantic ← defaulted "semantic" [] (readText Text.parseBool "a boolean") false fields
  pure ⟨q, topK, semantic⟩

def ListMemoriesQuery.decode (query : List (String × String)) :
    Except DecodeError ListMemoriesQuery := do
  let fields := queryMembers query
  let type ← defaulted "type" [] (present string) none fields
  let limit ← defaulted "limit" [] (present (unsigned UInt64.size)) none fields
  pure ⟨type, limit⟩

def DiffQuery.decode [Crates] (query : List (String × String)) : Except DecodeError DiffQuery := do
  let fields := queryMembers query
  let target ← required "target" [] uuidFrom fields
  pure ⟨target⟩

def ReflectJobsQuery.decode (query : List (String × String)) :
    Except DecodeError ReflectJobsQuery := do
  let fields := queryMembers query
  let agentId ← defaulted "agent_id" [] (present string) none fields
  let status ← defaulted "status" [] (present string) none fields
  let limit ← defaulted "limit" [] (present (unsigned UInt32.size)) none fields
  let offset ← defaulted "offset" [] (present (unsigned UInt32.size)) none fields
  pure ⟨agentId, status, limit.map UInt32.ofNat, offset.map UInt32.ofNat⟩

/-! ## Routes -/

variable [Crates] [Frameworks]

/-- `Path<Uuid>`. -/
def pathUuid (segment : String) : Extracted Uuid :=
  match Crates.parseStr segment with
  | some id => .ok id
  | none => .error (Frameworks.pathRejection segment)

/-- `Json<T>`. -/
def jsonBody {α : Type} (d : Decoder α) : Option Value → Extracted α
  | none => .error Frameworks.bodyRejection
  | some v => (d v).mapError Frameworks.jsonRejection

/-- `Query<T>`. -/
def queryOf {α : Type} (r : Except DecodeError α) : Extracted α :=
  r.mapError Frameworks.queryRejection

/-- The handler of a `POST`, by its pattern, given its parameters. -/
def postHandler (pattern : Pattern) (params : List String) (body : Option Value) : Option Route :=
  match pattern, params with
  | [.lit "v1", .lit "sessions"], [] =>
      some (.createSession (jsonBody CreateSessionBody.decode body))
  | [.lit "v1", .lit "memories"], [] =>
      some (.protected (.remember (jsonBody MemoryBody.decode body)))
  | [.lit "v1", .lit "branches"], [] =>
      some (.protected (.createBranch (jsonBody BranchBody.decode body)))
  | [.lit "v1", .lit "branches", .param, .lit "merge"], [id] =>
      some (.protected (.mergeBranch (pathUuid id) (jsonBody MergeBody.decode body)))
  | [.lit "v1", .lit "branches", .param, .lit "archive"], [id] =>
      some (.protected (.archiveBranch (pathUuid id)))
  | [.lit "v1", .lit "sync"], [] => some (.protected .sync)
  | [.lit "v1", .lit "sync", .lit "push"], [] => some (.protected .pushSync)
  | [.lit "v1", .lit "sync", .lit "pull"], [] => some (.protected .pullSync)
  | [.lit "v1", .lit "sync", .lit "reconcile"], [] => some (.protected .reconcileSync)
  | [.lit "v1", .lit "reflect"], [] => some (.protected .reflect)
  | [.lit "v1", .lit "reflect", .lit "contradictions", .param, .param, .lit "resolve"],
      [agentId, contradictionId] =>
      some (.protected (.resolveReflectContradiction agentId contradictionId
        (jsonBody ResolveContradictionBody.decode body)))
  | [.lit "v1", .lit "tx"], [] => some (.protected .beginTransaction)
  | [.lit "v1", .lit "tx", .param, .lit "memories"], [id] =>
      some (.protected (.txRemember (pathUuid id) (jsonBody UpdateMemoryBody.decode body)))
  | [.lit "v1", .lit "tx", .param, .lit "memories", .lit "typed"], [id] =>
      some (.protected (.txRememberTyped (pathUuid id) (jsonBody MemoryBody.decode body)))
  | [.lit "v1", .lit "tx", .param, .lit "commit"], [id] =>
      some (.protected (.commitTransaction (pathUuid id)))
  | [.lit "v1", .lit "tx", .param, .lit "rollback"], [id] =>
      some (.protected (.rollbackTransaction (pathUuid id)))
  | _, _ => none

/-- The handler of a `GET`. -/
def getHandler (pattern : Pattern) (params : List String) (query : List (String × String)) :
    Option Route :=
  match pattern, params with
  | [.lit "v1", .lit "health"], [] => some .health
  | [.lit "v1", .lit "ready"], [] => some .ready
  | [.lit "v1", .lit "metrics"], [] => some .metrics
  | [.lit "v1", .lit "sessions", .lit "me"], [] => some (.protected .whoami)
  | [.lit "v1", .lit "sessions", .lit "active", .lit "count"], [] =>
      some (.protected .activeSessionCount)
  | [.lit "v1", .lit "memories"], [] =>
      some (.protected (.listMemories (queryOf (ListMemoriesQuery.decode query))))
  | [.lit "v1", .lit "memories", .lit "search"], [] =>
      some (.protected (.search (queryOf (SearchQuery.decode query))))
  | [.lit "v1", .lit "memories", .param], [id] => some (.protected (.recallOne (pathUuid id)))
  | [.lit "v1", .lit "branches"], [] => some (.protected .listBranches)
  | [.lit "v1", .lit "branches", .lit "trunk"], [] => some (.protected .getTrunkBranch)
  | [.lit "v1", .lit "branches", .lit "by-name", .param], [name] =>
      some (.protected (.getBranchByName name))
  | [.lit "v1", .lit "branches", .param, .lit "diff"], [id] =>
      some (.protected (.diffBranch (pathUuid id) (queryOf (DiffQuery.decode query))))
  | [.lit "v1", .lit "branches", .param], [id] => some (.protected (.getBranch (pathUuid id)))
  | [.lit "v1", .lit "sync", .lit "status"], [] => some (.protected .syncStatus)
  | [.lit "v1", .lit "reflect", .lit "jobs"], [] =>
      some (.protected (.listReflectJobs (queryOf (ReflectJobsQuery.decode query))))
  | [.lit "v1", .lit "reflect", .lit "jobs", .param], [jobId] =>
      some (.protected (.getReflectJob jobId))
  | [.lit "v1", .lit "reflect", .lit "facts", .param], [agentId] =>
      some (.protected (.getReflectFacts agentId))
  | [.lit "v1", .lit "reflect", .lit "preferences", .param], [agentId] =>
      some (.protected (.getReflectPreferences agentId))
  | [.lit "v1", .lit "reflect", .lit "contradictions", .param], [agentId] =>
      some (.protected (.getReflectContradictions agentId))
  | _, _ => none

/-- The handler of a `PATCH`. -/
def patchHandler (pattern : Pattern) (params : List String) (body : Option Value) :
    Option Route :=
  match pattern, params with
  | [.lit "v1", .lit "memories", .param], [id] =>
      some (.protected (.updateMemory (pathUuid id) (jsonBody UpdateMemoryBody.decode body)))
  | _, _ => none

/-- The handler of a `DELETE`. -/
def deleteHandler (pattern : Pattern) (params : List String) : Option Route :=
  match pattern, params with
  | [.lit "v1", .lit "sessions", .param], [id] =>
      some (.protected (.revokeSession (pathUuid id)))
  | [.lit "v1", .lit "memories", .param], [id] => some (.protected (.deleteMemory (pathUuid id)))
  | [.lit "v1", .lit "branches", .param], [id] => some (.protected (.discardBranch (pathUuid id)))
  | _, _ => none

/-- The pairs of the query: those that stand in the path's text come first. -/
def queryPairs (request : Cli.HttpRequest) : List (String × String) :=
  (Url.query (behind request.path)).elim [] Frameworks.formPairs ++ request.query

def handler (request : Cli.HttpRequest) (pattern : Pattern) (params : List String) :
    Option Route :=
  match request.method with
  | .get => getHandler pattern params (queryPairs request)
  | .post => postHandler pattern params request.body
  | .patch => patchHandler pattern params request.body
  | .delete => deleteHandler pattern params

/-- The routes of `router`. -/
def route (request : Cli.HttpRequest) : Option Route :=
  (arrives request.method (behind request.path)).bind fun (pattern, params) =>
    handler request pattern params

theorem route_of_arrives {method : Cli.Method} {path : String} {pattern : Pattern}
    {params : List String} (h : arrives method (behind path) = some (pattern, params))
    (query : List (String × String)) (body : Option Value) (bearer : Option String) :
    route ⟨method, path, query, body, bearer⟩ =
      handler ⟨method, path, query, body, bearer⟩ pattern params := by
  rw [route, h]
  rfl

theorem posted_of_route {request : Cli.HttpRequest} {route : Route}
    (hmethod : request.method = .post) (h : Http.route request = some route) :
    ∃ pattern params, arrives .post (behind request.path) = some (pattern, params) ∧
      postHandler pattern params request.body = some route := by
  obtain ⟨⟨pattern, params⟩, harrives, hhandler⟩ := Option.bind_eq_some_iff.mp h
  unfold handler at hhandler
  rw [hmethod] at harrives hhandler
  exact ⟨pattern, params, harrives, hhandler⟩

/-! ## Replies -/

def hitJson (hit : SearchHit) : Value :=
  .object [("id", uuid hit.id), ("score", .number (Frameworks.f32Number hit.score)),
    ("content", .string hit.content), ("memory_type", .string hit.memoryType),
    ("tags", strings hit.tags), ("metadata", hit.metadata)]

/-- The bytes of a body. -/
def payload : Body → Cli.Payload
  | .empty => .empty
  | .json v => .json v
  | .text s => if s = "" then .empty else .text s
  | .memory record => .json (Frameworks.recordJson record)
  | .memories records => .json (.array (records.map Frameworks.recordJson))
  | .hits hits => .json (.array (hits.map hitJson))

/-- A reply as it is sent; `retry-after` is a header of the rate limiter's reply. -/
def reply (retryAfter : Option String) (response : Response) : Cli.Reply :=
  ⟨response.status, retryAfter, payload response.body⟩

/-- The server, asked by the CLI.  All routes with parameters are protected, and a handler is
given them before all else. -/
def respond (db : ClawDBEngine) (requestId : String) (request : Cli.HttpRequest) : Act Response :=
  let authorization := request.bearer.map ("Bearer " ++ ·)
  match Frameworks.oversized request.path request.query request.body with
  | some rejection => pure rejection.response
  | none =>
      match route request with
      | some route => serve db ⟨requestId, authorization, route⟩
      | none =>
          if unread request.method (behind request.path) then
            authMiddleware authorization fun auth =>
              rateLimitMiddleware requestId (decide (request.method = .get)) auth
                (pure Frameworks.textRejection.response)
          else
            pure Frameworks.noRoute.response

/-- They take a request of this size. -/
def Fits (request : Cli.HttpRequest) : Prop :=
  Frameworks.oversized request.path request.query request.body = none

theorem respond_routed {db : ClawDBEngine} {requestId : String} {request : Cli.HttpRequest}
    {route : Route} (hfits : Fits request) (h : Http.route request = some route) :
    respond db requestId request =
      serve db ⟨requestId, request.bearer.map ("Bearer " ++ ·), route⟩ := by
  unfold Fits at hfits
  rw [respond, hfits, h]

/-- A protected route is reached through the middlewares. -/
theorem respond_protected {db : ClawDBEngine} {requestId : String} {request : Cli.HttpRequest}
    {route : Protected} (hfits : Fits request)
    (h : Http.route request = some (.«protected» route)) :
    respond db requestId request =
      authMiddleware (request.bearer.map ("Bearer " ++ ·)) fun auth =>
        rateLimitMiddleware requestId route.isGet auth
          (route.handle db requestId auth.session) := by
  rw [respond_routed hfits h]
  rfl

end ClawDB.Http
