/-
# `ClawDB.Cli.Options` — what becomes of an option on the command line

An option goes from the command line into a query or a body, under a key, and from there into
the handler's call on the engine.  A key the server does not know is dropped without a word, and
a handler that takes no body reads none: so each side can be right on its own and the option be
lost between them.

An id goes into the path of a URL, and what is posted there need not arrive where it was meant
to: `'x/../../sync?'` for a branch has a round of the sync made.

`Invocation.Carried` says that a command which does not report an error had every option it was
given carried by the call behind its request.  It is decided for each command, for every value of
its options and every text of its ids.
-/
import ClawDB.Cli.Network
import ClawDB.Cli.Verdicts
import ClawDB.Server.Calls
import ClawDB.Server.Endpoints

namespace ClawDB

open Effect Prog
open Json

/-! ## A request that succeeds -/

namespace Cli

section

variable [Reasons] {α σ : Type} {R : Prog.Rel Net σ} {s s' : σ} {request : HttpRequest}
  {reply : Reply}

/-- A command that is told of such a success at once is done. -/
theorem exec_fetch_of {d : Decoder α} (hsend : R (.send request) s (.replied reply) s')
    (hs : reply.isSuccess = true) (hreads : reply.payload.Reads d) :
    Exec R (retrying request (Client.parsed d) >>= fun _ => (pure () : Cmd Unit)).run s
      (.ok ()) s' := by
  obtain ⟨a, ha⟩ := hreads
  refine Try.exec_bind_of (a := a) ?_ (.pure ..)
  refine exec_retry_done (exec_bind.mpr ⟨_, _, exec_perform.mpr hsend, ?_⟩) fun e he => nomatch he
  exact exec_pure.mpr ⟨(handleResponse_ok.mpr ⟨hs, ha⟩).symm, rfl⟩

end

end Cli

/-! ## What the server reads -/

namespace Cli

end Cli

/-! ## Options -/

def MergeStrategy.name : MergeStrategy → String
  | .ours => "ours"
  | .theirs => "theirs"
  | .union => "union"
  | .manual => "manual"

section

variable [Crates]

/-- Options and their values, under the names of the command line: those a call carries.
`remember` is `remember_typed` with fixed arguments; a round of the engine's `sync` is a real
one, and so is the full job its `reflect` triggers. -/
def HandlerCall.options : HandlerCall → List (String × Value)
  | .engine (.rememberTyped _ memoryType tags metadata) =>
      [("type", .string memoryType), ("tags", strings tags), ("metadata", metadata)]
  | .engine (.remember _) =>
      [("type", .string "semantic"), ("tags", strings []), ("metadata", .null)]
  | .engine (.searchWithOptions _ _ _ filter) => (filter.map fun f => ("filter", f)).toList
  | .engine (.mergeWithStrategy _ _ strategy) => [("strategy", .string strategy.name)]
  | .engine .sync => [("dry-run", .bool false)]
  | .engine .reflect => [("job", .string "full"), ("dry-run", .bool false)]
  | .engine (.reflectResolveContradiction _ _ strategy mergedValue) =>
      [("strategy", .string strategy)] ++ (mergedValue.map fun v => ("merged-value", v)).toList
  | .stage _ staged =>
      [("type", .string staged.memoryType), ("tags", strings staged.tags),
        ("metadata", staged.metadata)]
  | _ => []

namespace Cli

inductive Invocation where
  | remember (args : RememberArgs)
  | search (args : SearchArgs)
  | branchList (status : Option BranchStatus)
  | branchMerge (sourceId targetId : String) (strategy : Option MergeStrategy)
  | syncRun (dryRun : Bool)
  | reflectRun (job : Option ReflectJobKind) (dryRun : Bool) (agentId : Option Uuid)
  | txRememberTyped (txId content : String) (type tags metadata : Option String)

/-- What a JSON text says; a text that is no JSON is itself what was given. -/
def jsonGiven (raw : String) : Value := (Crates.fromStr raw).getD (.string raw)

def dryRunGiven (dryRun : Bool) : List (String × Value) :=
  if dryRun then [("dry-run", .bool true)] else []

def memoryGiven (type tags metadata : Option String) : List (String × Value) :=
  (type.map fun t => ("type", Value.string t)).toList ++
    (tags.map fun t => ("tags", strings (commaSeparated t))).toList ++
    (metadata.map fun raw => ("metadata", jsonGiven raw)).toList

namespace Invocation

def command : Invocation → Command
  | .remember args => .remember args
  | .search args => .search args
  | .branchList status => .branch (.list status)
  | .branchMerge sourceId targetId strategy => .branch (.merge sourceId targetId strategy)
  | .syncRun dryRun => .sync (.run dryRun)
  | .reflectRun job dryRun agentId => .reflect (.run job dryRun agentId)
  | .txRememberTyped txId content type tags metadata =>
      .tx (.rememberTyped txId content type tags metadata)

/-- The options the user gave. -/
def given : Invocation → List (String × Value)
  | .remember args => memoryGiven args.memoryType args.tags args.metadata
  | .search args => (args.filter.map fun f => ("filter", jsonGiven f)).toList
  | .branchList status => (status.map fun s => ("status", Value.string s.str)).toList
  | .branchMerge _ _ strategy => (strategy.map fun s => ("strategy", Value.string s.display)).toList
  | .syncRun dryRun => dryRunGiven dryRun
  | .reflectRun job dryRun agentId =>
      (job.map fun k => ("job", Value.string k.display)).toList ++ dryRunGiven dryRun ++
        (agentId.map fun id => ("agent-id", uuid id)).toList
  | .txRememberTyped _ _ type tags metadata => memoryGiven type tags metadata

def mergePath (sourceId : String) : String := "/v1/branches/" ++ sourceId ++ "/merge"

def typedPath (txId : String) : String := "/v1/tx/" ++ txId ++ "/memories/typed"

def mergeBody (targetId : String) (strategy : Option MergeStrategy) : Value :=
  .object [("strategy", .string (strategy.getD .lastWrite).display),
    ("target_id", .string targetId)]

/-- What the command sends, unless it stops before. -/
def request (client : ClawDBClient) : Invocation → Except CliError HttpRequest
  | .remember args => do
      let content ← args.text
      let metadata ← args.metadataValue
      pure ⟨.post, "/v1/memories", [], some (args.body content metadata), client.token⟩
  | .search args => pure ⟨.get, "/v1/memories/search", args.params, none, client.token⟩
  | .branchList status => pure ⟨.get, listPath status, [], none, client.token⟩
  | .branchMerge sourceId targetId strategy =>
      pure ⟨.post, mergePath sourceId, [], some (mergeBody targetId strategy), client.token⟩
  | .syncRun dryRun =>
      pure ⟨.post, "/v1/sync", [], some (.object [("dry_run", .bool dryRun)]), client.token⟩
  | .reflectRun job dryRun agentId =>
      pure ⟨.post, "/v1/reflect", [], some (reflectBodyOf (job.getD .full) dryRun agentId),
        client.token⟩
  | .txRememberTyped txId content type tags metadata =>
      pure ⟨.post, typedPath txId, [], some (txTypedBody content type tags metadata),
        client.token⟩

end Invocation

/-! ## A network that tells the truth -/

section

variable [Http.Frameworks]

/-- A reply is one the server gave; a request or its reply can be lost, and the others go on. -/
def genuine (db : ClawDBEngine) : Prog.Rel Net World
  | .send _, w, .failed _, w' => World.Later w w'
  | .send request, w, .replied reply, w' => ∃ requestId response retryAfter,
      Exec Op.shared (Http.respond db requestId request) w response w' ∧
        reply = Http.reply retryAfter response
  | .sleep _, w, _, w' => World.Later w w'

/-- A command that does not report an error had every option carried, as it was given, by the
call behind its request. -/
def Invocation.Carried [Reasons] (inv : Invocation) : Prop :=
  ∀ (db : ClawDBEngine) (client : ClawDBClient) (w w' : World) (r : Except CliError Unit),
    Exec (genuine db) (inv.command.execute client).run w r w' →
      (∃ e, r = .error e) ∨ ∃ request, inv.request client = .ok request ∧
        ∀ kv ∈ inv.given, ∃ call, Http.callOf request = some call ∧ kv ∈ call.options

/-- The libraries between the command and the handler do not take its request. -/
def Invocation.Oversized (inv : Invocation) : Prop :=
  ∃ client request, inv.request client = .ok request ∧ ¬ Http.Fits request

end

/-! ### For which options that is so -/

/-- The endpoints of `POST` that look at nothing they are sent, and reply with an object. -/
inductive Unheeding : Http.Pattern → List String → Prop where
  | sync : Unheeding [.lit "v1", .lit "sync"] []
  | pushSync : Unheeding [.lit "v1", .lit "sync", .lit "push"] []
  | pullSync : Unheeding [.lit "v1", .lit "sync", .lit "pull"] []
  | reconcileSync : Unheeding [.lit "v1", .lit "sync", .lit "reconcile"] []
  | reflect : Unheeding [.lit "v1", .lit "reflect"] []
  | begin : Unheeding [.lit "v1", .lit "tx"] []
  | commit {id : String} {txId : Uuid} : Crates.parseStr id = some txId →
      Unheeding [.lit "v1", .lit "tx", .param, .lit "commit"] [id]
  | rollback {id : String} {txId : Uuid} : Crates.parseStr id = some txId →
      Unheeding [.lit "v1", .lit "tx", .param, .lit "rollback"] [id]

/-- Metadata that is given is JSON. -/
def MetadataRead (metadata : Option String) : Prop :=
  ∀ raw ∈ metadata, ∃ v, Crates.fromStr raw = some v

/-- Options that give what is stored without them. -/
structure Untyped (type tags metadata : Option String) : Prop where
  type : ∀ t ∈ type, t = "semantic"
  tags : ∀ t ∈ tags, commaSeparated t = []
  metadata : ∀ raw ∈ metadata, Crates.fromStr raw = some .null

/-- The endpoints of `POST` that grant what `tx remember-typed` sends, and let an option drop. -/
inductive Drops (type tags metadata : Option String) : Http.Pattern → List String → Prop where
  | unheeding {pattern : Http.Pattern} {params : List String} : Unheeding pattern params →
      memoryGiven type tags metadata ≠ [] → Drops type tags metadata pattern params
  | remember : ¬ MetadataRead metadata →
      Drops type tags metadata [.lit "v1", .lit "memories"] []
  | txRemember {id : String} {txId : Uuid} : Crates.parseStr id = some txId →
      ¬ Untyped type tags metadata →
      Drops type tags metadata [.lit "v1", .lit "tx", .param, .lit "memories"] [id]
  | txRememberTyped {id : String} {txId : Uuid} : Crates.parseStr id = some txId →
      ¬ MetadataRead metadata →
      Drops type tags metadata [.lit "v1", .lit "tx", .param, .lit "memories", .lit "typed"] [id]

def Invocation.Heeded : Invocation → Prop
  | .remember args =>
      (∃ e, args.text = .error e) ∨ (∃ e, args.metadataValue = .error e) ∨
        Untyped args.memoryType args.tags args.metadata
  | .search args => args.filter = none
  | .branchList status => status = none
  | .branchMerge sourceId _ strategy =>
      ∀ pattern params,
        Http.arrives .post (Http.behind (Invocation.mergePath sourceId)) = some (pattern, params) →
          Unheeding pattern params → strategy = none
  | .syncRun dryRun => dryRun = false
  | .reflectRun job dryRun agentId => (∀ k ∈ job, k = .full) ∧ dryRun = false ∧ agentId = none
  | .txRememberTyped txId _ type tags metadata =>
      ∀ pattern params,
        Http.arrives .post (Http.behind (Invocation.typedPath txId)) = some (pattern, params) →
          ¬ Drops type tags metadata pattern params

/-- For which options, ids and sizes that is so. -/
def Invocation.HoldsWhen [Http.Frameworks] (inv : Invocation) : Prop :=
  inv.Oversized ∨ inv.Heeded

/-! ## One request for each -/

section

variable [Reasons] {σ : Type} {R : Prog.Rel Net σ} {s s' : σ} {request : HttpRequest}
  {reply : Reply} (client : ClawDBClient)

theorem exec_invocation_of {inv : Invocation} (hrequest : inv.request client = .ok request)
    (hsend : R (.send request) s (.replied reply) s') (hs : reply.isSuccess = true)
    (hreads : inv.command.Reads reply.payload) :
    Exec R (inv.command.execute client).run s (.ok ()) s' := by
  cases inv with
  | remember args =>
      obtain ⟨content, hc, hmore⟩ := except_bind_ok.mp hrequest
      obtain ⟨metadata, hm, hlast⟩ := except_bind_ok.mp hmore
      cases hlast
      refine Try.exec_bind_of (exec_pure.mpr ⟨hc.symm, rfl⟩) ?_
      refine Try.exec_bind_of (exec_pure.mpr ⟨hm.symm, rfl⟩) ?_
      exact exec_fetch_of hsend hs hreads
  | _ =>
      cases hrequest
      exact exec_fetch_of hsend hs hreads

end

/-! ## Calls that are determined -/

section

variable [Http.Frameworks]

/-- The call is the handler's. -/
theorem callOf_protected {request : HttpRequest} {route : Http.Protected}
    (h : Http.route request = some (.protected route)) : Http.callOf request = route.call := by
  rw [Http.callOf, h]

end

/-! ## What a request that is granted came to -/

section

variable [Http.Frameworks] {R : Prog.Rel Sig World} {db : ClawDBEngine} {requestId : String}
  {w w' : World} {response : Response}

theorem not_success {retryAfter : Option String} {response : Response}
    (h : 400 ≤ response.status) : (Http.reply retryAfter response).isSuccess = false :=
  decide_eq_false fun hs => absurd hs.2 (by show ¬ response.status < 300; omega)

end

/-! ## Where the options are carried -/

section

variable [Http.Frameworks] [Reasons] {inv : Invocation}

end

/-! ## Ids that a URL can hold

Such an id arrives as it is, or not at all: what is left is what the handler makes of it. -/

omit [Crates] in
theorem behind_merge (sourceId : String) : Http.behind (Invocation.mergePath sourceId) =
    Url.join (["v1", "branches", sourceId, "merge"].map Url.bytes) := by
  have hid : Url.bytes ("/v1/branches/" ++ sourceId) =
      47 :: Url.join ([Url.bytes "v1", Url.bytes "branches"] ++ [Url.bytes sourceId]) :=
    Http.bytes_segment (List.cons_ne_nil _ _) rfl sourceId
  have hmerge := Http.bytes_segment (List.cons_ne_nil _ _) (Http.bytes_slash hid) "merge"
  rw [String.append_assoc] at hmerge
  exact congrArg (List.drop 1) hmerge

omit [Crates] in
theorem behind_typed (txId : String) : Http.behind (Invocation.typedPath txId) =
    Url.join (["v1", "tx", txId, "memories", "typed"].map Url.bytes) := by
  have hid : Url.bytes ("/v1/tx/" ++ txId) =
      47 :: Url.join ([Url.bytes "v1", Url.bytes "tx"] ++ [Url.bytes txId]) :=
    Http.bytes_segment (List.cons_ne_nil _ _) rfl txId
  have hmemories := Http.bytes_segment (List.cons_ne_nil _ _) (Http.bytes_slash hid) "memories"
  have htyped := Http.bytes_segment (List.cons_ne_nil _ _) (Http.bytes_slash hmemories) "typed"
  rw [String.append_assoc, String.append_assoc, String.append_assoc] at htyped
  exact congrArg (List.drop 1) htyped

/-- A merge is never granted so that it could be read. -/
theorem heeded_merge_of_plain {sourceId : String} (h : Url.Plain (Url.bytes sourceId))
    (targetId : String) (strategy : Option MergeStrategy) :
    (Invocation.branchMerge sourceId targetId strategy).Heeded := by
  intro pattern params harrives hunheeding
  have hliterals : ∀ s ∈ ["v1", "branches", "merge"], Url.Plain (Url.bytes s) := by decide
  have hlast : (Url.bytes "merge").getLast? = some 101 := rfl
  have hend := Http.last_join (List.cons_ne_nil (Url.bytes "v1")
    [Url.bytes "branches", Url.bytes sourceId]) hlast rfl
  rw [behind_merge] at harrives
  have hfill := Http.fill_of_arrives (List.cons_ne_nil "v1" ["branches", sourceId, "merge"])
    (by simp [h, hliterals]) hend harrives
  cases hunheeding <;> simp [Http.Pattern.fill] at hfill

/-- Metadata that is no JSON is lost where the id is a UUID. -/
theorem heeded_typed_of_plain {txId : String} (h : Url.Plain (Url.bytes txId)) (content : String)
    (type tags : Option String) {metadata : Option String}
    (hmetadata : Crates.parseStr txId = none ∨ MetadataRead metadata) :
    (Invocation.txRememberTyped txId content type tags metadata).Heeded := by
  intro pattern params harrives hdrops
  have hliterals : ∀ s ∈ ["v1", "tx", "memories", "typed"], Url.Plain (Url.bytes s) := by
    decide
  have hlast : (Url.bytes "typed").getLast? = some 100 := rfl
  have hend := Http.last_join (List.cons_ne_nil (Url.bytes "v1")
    [Url.bytes "tx", Url.bytes txId, Url.bytes "memories"]) hlast rfl
  rw [behind_typed] at harrives
  have hfill := Http.fill_of_arrives (List.cons_ne_nil "v1" ["tx", txId, "memories", "typed"])
    (by simp [h, hliterals]) hend harrives
  cases hdrops with
  | unheeding hunheeding => cases hunheeding <;> simp [Http.Pattern.fill] at hfill
  | remember | txRemember => simp [Http.Pattern.fill] at hfill
  | txRememberTyped hid hunread =>
      obtain rfl : _ = txId := by simpa [Http.Pattern.fill] using hfill
      obtain hnone | hread := hmetadata
      · cases hnone.symm.trans hid
      · exact hunread hread

/-! ## Handlers that grant the owner's request -/

section

variable [Http.Frameworks] [Reasons] {db : ClawDBEngine} {w w' : World} {response : Response}
  {request : HttpRequest} {route : Http.Protected} {inv : Invocation}

/-- What is known of the options once the command has succeeded. -/
theorem Invocation.Carried.options (h : inv.Carried) (hsize : ¬ inv.Oversized)
    (hrequest : inv.request owner = .ok request)
    (hroute : Http.route request = some (.protected route)) (hbearer : request.bearer = some "t")
    (hw : KnowsOwner w) (hserved : Exec Op.sem (route.handle db "r" ownerSession) w response w')
    (hstatus : response.status = 200) (hreads : inv.command.Reads (Http.payload response.body)) :
    ∀ kv ∈ inv.given, ∃ call ∈ route.call, kv ∈ call.options := by
  have hfits : Http.Fits request := by
    by_contra hunfit
    exact hsize ⟨owner, request, hrequest, hunfit⟩
  have hgenuine : genuine db (.send request) w (.replied (Http.reply none response)) w' :=
    ⟨"r", response, none, (exec_owner hfits hroute hbearer hw hserved).mono Op.sem_shared, rfl⟩
  have hs : (Http.reply none response).isSuccess = true := by
    simp [Http.reply, Reply.isSuccess, hstatus]
  obtain ⟨e, he⟩ | ⟨request', hrequest', hcarried⟩ :=
    h db owner w w' _ (exec_invocation_of owner hrequest hgenuine hs hreads)
  · cases he
  · cases hrequest.symm.trans hrequest'
    rw [callOf_protected hroute] at hcarried
    exact hcarried

end

end Cli

end

/-! ## A dry run that is none -/

namespace Cli

section Witnesses

attribute [local instance] Crates.sample Http.Frameworks.sample Reasons.sample

def dryRunRequest : HttpRequest :=
  ⟨.post, "/v1/sync", [], some (.object [("dry_run", .bool true)]), owner.token⟩

example : (Invocation.syncRun true).request owner = .ok dryRunRequest := rfl

example : (((Http.respond vectorDb "r" dryRunRequest).calls Op.reference ownerWorld).any fun
    | .sync .syncNow => true
    | _ => false) = true := by
  decide +kernel

end Witnesses

end Cli

end ClawDB
