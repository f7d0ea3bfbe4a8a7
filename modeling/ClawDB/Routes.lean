/-
# `ClawDB.Routes` — one memory body on two HTTP routes

A memory body can be posted to `/v1/memories`, or to the staging route of a transaction that
is then committed.  Both routes take a body without a type for a semantic memory.  The first
leaves it to an engine method that has no parameter for tags and metadata, the second fills in
the type and keeps the rest.

What each route makes of a body is an `Item`, the arguments of one `remember_typed`; the two
items decide whether the routes store the same memory.
-/
import ClawDB.Deferred
import ClawDB.Server.Calls

namespace ClawDB

open Effect Prog
open Json (Value)
open Http (MemoryBody)

/-- What `remember` makes of a body. -/
def Http.MemoryBody.posted (body : MemoryBody) : Item :=
  match body.type with
  | some memoryType => ⟨body.content, memoryType, body.tags, body.metadata⟩
  | none => ⟨body.content, "semantic", [], .null⟩

/-- What `tx_remember_typed` makes of it. -/
def Http.MemoryBody.staged (body : MemoryBody) : Item :=
  ⟨body.content, body.type.getD "semantic", body.tags, body.metadata⟩

/-- What is stored of an item in the core. -/
def Item.shape (item : Item) : Shape := ⟨item.content, parseMemoryType item.memoryType, item.tags⟩

section Bodies

variable {body : MemoryBody}

theorem Http.MemoryBody.posted_of_type (h : body.type.isSome = true) :
    body.posted = body.staged := by
  obtain ⟨memoryType, htype⟩ := Option.isSome_iff_exists.mp h
  simp only [MemoryBody.posted, MemoryBody.staged, htype, Option.getD_some]

theorem Http.MemoryBody.posted_shape (h : body.tags = []) :
    body.posted.shape = body.staged.shape := by
  cases htype : body.type <;>
    simp only [Item.shape, MemoryBody.posted, MemoryBody.staged, htype, h, Option.getD_some,
      Option.getD_none]

theorem Http.MemoryBody.posted_metadata (h : body.metadata = .null) :
    body.posted.metadata = body.staged.metadata := by
  cases htype : body.type <;> simp only [MemoryBody.posted, MemoryBody.staged, htype, h]

end Bodies

theorem Item.shape_record (item : Item) (id : Uuid) : (item.record id).shape = item.shape := by
  simp only [Item.record, MemoryRecord.shape, Item.shape]

section Routes

variable [Crates] (db : ClawDBEngine)

/-- `body` was posted to `/v1/memories`. -/
inductive Posted (body : MemoryBody) : World → World → Prop where
  | mk {requestId : String} {session : ClawDBSession} {w w' : World} {response : Response} :
      Exec Op.sem (Http.remember db requestId session (.ok body)) w response w' →
      response.status = 200 → Posted body w w'

/-- A transaction was begun, given `body` and committed.  In between others may have done
anything, except to the transaction. -/
inductive Committed (body : MemoryBody) : World → World → Prop where
  | mk {requestId requestId' : String} {session : ClawDBSession} {txId : Uuid}
      {w₀ w₁ v₁ w₂ v₂ w₃ : World} {response response' : Response} :
      Exec Op.sem (Http.beginTransaction session) w₀ (.json (txBegunBody txId)) w₁ →
      w₁.transactions txId = some ⟨txId, session, []⟩ →
      v₁.transactions txId = w₁.transactions txId →
      Exec Op.sem (Http.txRememberTyped requestId (.ok txId) (.ok body)) v₁ response w₂ →
      v₂.transactions txId = w₂.transactions txId →
      Exec Op.sem (Http.commitTransaction db requestId' (.ok txId)) v₂ response' w₃ →
      response'.status = 200 → Committed body v₂ w₃

/-- Two stored memories agree: in content, type and tags, and in what was indexed of them. -/
def Alike (r r' : MemoryRecord) (ds ds' : List Doc) : Prop :=
  r.shape = r'.shape ∧ ∀ d ∈ ds, ∀ d' ∈ ds', d.text = d'.text ∧
    withoutMember "memory_id" d.metadata = withoutMember "memory_id" d'.metadata

/-- Whenever `body` is stored on one route and on the other, each stores one memory, and the
two agree. -/
def RoutesAgree (body : MemoryBody) : Prop :=
  ∀ w w' v v', Posted db body w w' → Committed db body v v' →
    ∃ r ds r' ds', w'.rows = w.rows ++ [r] ∧ w'.docs = w.docs ++ ds ∧
      v'.rows = v.rows ++ [r'] ∧ v'.docs = v.docs ++ ds' ∧ Alike r r' ds ds'

/-! ## What each route stores -/

/-- The one memory added is the item, indexed or not. -/
def Stores (item : Item) (w w' : World) : Prop :=
  ∃ id ds, w'.rows = w.rows ++ [item.record id] ∧ w'.docs = w.docs ++ ds ∧
    (ds.map Doc.staged).Sublist [item.upsert id] ∧ (db.vector = false → ds = [])

variable {db} {body : MemoryBody} {item item' : Item} {w w' v v' : World}

theorem stores_rememberTyped {session : ClawDBSession} {result : RememberResult}
    (h : Exec Op.sem
      (db.rememberTyped session item.content item.memoryType item.tags item.metadata).run w
      (.ok result) w') : Stores db item w w' := by
  obtain ⟨e, he, -⟩ | ⟨record, indexed, ds, hc, ht, htags, -, -, -, hds, hcase⟩ :=
    exec_rememberTyped h
  · cases he
  · obtain ⟨hrows, -, -, hdocs⟩ := hds.frame
    have hrecord : item.record record.id = record := Item.record_eq hc ht htags
    refine ⟨record.id, ds, ?_, hdocs, ?_, ?_⟩
    · rw [hrows, hrecord]
      rfl
    · obtain ⟨-, rfl⟩ | ⟨-, -, docId, rfl⟩ := hcase
      · exact List.nil_sublist _
      · rw [Item.upsert, hrecord, ← hc]
        exact .refl _
    · intro hno
      obtain ⟨-, rfl⟩ | ⟨-, hv, -⟩ := hcase
      · rfl
      · rw [hno] at hv
        cases hv

theorem stores_posted (h : Posted db body w w') : Stores db body.posted w w' := by
  obtain ⟨hpost, hstatus⟩ := h
  obtain hrefused | ⟨result, hcall, -⟩ := exec_answer hpost
  · omega
  · cases htype : body.type with
    | some memoryType =>
        rw [htype] at hcall
        simp only [MemoryBody.posted, htype]
        exact stores_rememberTyped hcall
    | none =>
        rw [htype] at hcall
        simp only [MemoryBody.posted, htype]
        exact stores_rememberTyped hcall

/-- A core transaction of one memory. -/
theorem stores_commit {pending : PendingTransaction}
    (hstaged : pending.stagedMemories =
      [⟨item.content, item.memoryType, item.tags, item.metadata⟩])
    (h : Exec Op.sem (pending.commit db).run w (.ok ()) w') : Stores db item w w' := by
  unfold PendingTransaction.commit at h
  rw [hstaged] at h
  obtain ⟨tx, w₁, htx, h⟩ | ⟨e, -, he⟩ := Try.exec_bind.mp h
  · obtain ⟨tx', w₂, hreplay, hcommit⟩ | ⟨e, -, he⟩ := Try.exec_bind.mp h
    · obtain ⟨⟨e, he⟩, -⟩ | ⟨inner, -, hb, rfl⟩ := exec_transaction htx
      · cases he
      cases hb
      obtain ⟨⟨id, tx''⟩, w₃, hstage, hdone⟩ | ⟨e, -, he⟩ := Try.exec_bind.mp hreplay
      · obtain ⟨hb, rfl⟩ := exec_pure.mp hdone
        cases hb
        obtain ⟨record, -, hc, ht, htags, ⟨⟨e, he⟩, -⟩ | ⟨kept, hk, -, hb, rfl⟩⟩ :=
          exec_txRememberTyped hstage
        · cases he
        cases hb
        simp only [World.setOpened, Function.update_self, Option.some.injEq] at hk
        subst hk
        obtain ⟨⟨e, he⟩, -⟩ | ⟨-, kept, ds, hk, -, hds, hvector, hsub, -⟩ := exec_commit hcommit
        · cases he
        simp only [World.setOpened, Function.update_self, List.nil_append,
          Option.some.injEq] at hk
        subst hk
        obtain ⟨hrows, -, -, hdocs⟩ := hds.frame
        have hrecord : item.record record.id = record := Item.record_eq hc ht htags
        refine ⟨record.id, ds, ?_, hdocs, ?_, hvector⟩
        · rw [hrows, hrecord]
          rfl
        · rw [Item.upsert, hrecord]
          exact hsub
      · cases he
    · cases he
  · cases he

theorem stores_committed (h : Committed db body v v') : Stores db body.staged v v' := by
  obtain ⟨-, hnamed, hwaits, hstage, hwaits', hcommit, hstatus⟩ := h
  obtain ⟨found, w₁, hpush, hreply⟩ := exec_bind.mp hstage
  obtain ⟨-, rfl⟩ := exec_perform.mp hpush
  obtain ⟨-, rfl⟩ := exec_pure.mp hreply
  obtain ⟨pending, w₃, htake, hfinish⟩ := exec_bind.mp hcommit
  obtain ⟨rfl, rfl⟩ := exec_perform.mp htake
  rw [hwaits', World.setTransaction_same, hwaits, hnamed] at hfinish
  obtain hrefused | ⟨_, hdone, -⟩ := exec_answer hfinish
  · omega
  · have hstored : Stores db body.staged _ v' := stores_commit rfl hdone
    exact hstored

/-! ## When the two agree -/

theorem withoutMember_vectorMetadata (id : Uuid) (record : MemoryRecord) (metadata : Value) :
    withoutMember "memory_id" (vectorMetadata id record metadata) =
      .object [("memory_type", .string (Crates.asStr record.memoryType)), ("metadata", metadata),
        ("tags", strings record.tags)] := by
  simp [withoutMember, vectorMetadata]

theorem staged_of_mem {id : Uuid} {ds : List Doc} {d : Doc}
    (hsub : (ds.map Doc.staged).Sublist [item.upsert id]) (hd : d ∈ ds) :
    d.text = item.content ∧ d.metadata = vectorMetadata id (item.record id) item.metadata := by
  have hstaged : d.staged ∈ [item.upsert id] := hsub.subset (List.mem_map_of_mem hd)
  exact Prod.mk.inj (List.mem_singleton.mp hstaged)

/-- Two items that differ at most in metadata nobody indexes are stored alike. -/
theorem Stores.alike (h : Stores db item w w') (h' : Stores db item' v v')
    (hshape : item.shape = item'.shape) (hmetadata : db.vector = true →
      item.metadata = item'.metadata) :
    ∃ r ds r' ds', w'.rows = w.rows ++ [r] ∧ w'.docs = w.docs ++ ds ∧
      v'.rows = v.rows ++ [r'] ∧ v'.docs = v.docs ++ ds' ∧ Alike r r' ds ds' := by
  obtain ⟨id, ds, hrows, hdocs, hsub, hvector⟩ := h
  obtain ⟨id', ds', hrows', hdocs', hsub', -⟩ := h'
  refine ⟨item.record id, ds, item'.record id', ds', hrows, hdocs, hrows', hdocs', ?_, ?_⟩
  · rw [Item.shape_record, Item.shape_record, hshape]
  intro d hd d' hd'
  simp only [Item.shape, Shape.mk.injEq] at hshape
  obtain ⟨hcontent, htype, htags⟩ := hshape
  obtain ⟨htext, hmeta⟩ := staged_of_mem hsub hd
  obtain ⟨htext', hmeta'⟩ := staged_of_mem hsub' hd'
  have hindexed : db.vector = true := by
    refine (Bool.not_eq_false _).mp fun hno => ?_
    rw [hvector hno] at hd
    cases hd
  refine ⟨by rw [htext, htext', hcontent], ?_⟩
  rw [hmeta, hmeta', withoutMember_vectorMetadata, withoutMember_vectorMetadata,
    hmetadata hindexed]
  simp only [Item.record, htype, htags]

/-- Items that are stored alike have the same tags, and the same metadata if both were
indexed. -/
theorem Stores.of_alike (h : Stores db item w w') (h' : Stores db item' v v')
    {r r' : MemoryRecord} {ds ds' : List Doc} (hrows : w'.rows = w.rows ++ [r])
    (hdocs : w'.docs = w.docs ++ ds) (hrows' : v'.rows = v.rows ++ [r'])
    (hdocs' : v'.docs = v.docs ++ ds') (halike : Alike r r' ds ds') :
    item.tags = item'.tags ∧
      (w'.docs ≠ w.docs → v'.docs ≠ v.docs → item.metadata = item'.metadata) := by
  obtain ⟨id, es, hr, he, hsub, -⟩ := h
  obtain ⟨id', es', hr', he', hsub', -⟩ := h'
  obtain rfl : r = item.record id := by
    rw [hrows] at hr
    exact List.singleton_inj.mp (List.append_cancel_left hr)
  obtain rfl : r' = item'.record id' := by
    rw [hrows'] at hr'
    exact List.singleton_inj.mp (List.append_cancel_left hr')
  obtain rfl : ds = es := List.append_cancel_left (hdocs.symm.trans he)
  obtain rfl : ds' = es' := List.append_cancel_left (hdocs'.symm.trans he')
  refine ⟨congrArg Shape.tags halike.1, fun hsome hsome' => ?_⟩
  have hmem : ∀ {w w' : World} {ds : List Doc}, w'.docs = w.docs ++ ds → w'.docs ≠ w.docs →
      ∃ d, d ∈ ds := by
    intro w w' ds hdocs hne
    refine List.exists_mem_of_ne_nil ds fun hnil => hne ?_
    rw [hdocs, hnil, List.append_nil]
  obtain ⟨d, hd⟩ := hmem hdocs hsome
  obtain ⟨d', hd'⟩ := hmem hdocs' hsome'
  have hmetadata := (halike.2 d hd d' hd').2
  rw [(staged_of_mem hsub hd).2, (staged_of_mem hsub' hd').2, withoutMember_vectorMetadata,
    withoutMember_vectorMetadata] at hmetadata
  simp only [Value.object.injEq, List.cons.injEq, Prod.mk.injEq, true_and] at hmetadata
  exact hmetadata.2.1

/-! ### Both routes can be taken -/

theorem posted_run (db : ClawDBEngine) (body : MemoryBody) :
    ∃ w', Posted db body ownerWorld w' ∧ (db.vector = true → w'.docs ≠ ownerWorld.docs) := by
  have hexec := exec_run Op.reference_refines
    (Http.remember db "r" ownerSession (.ok body)) ownerWorld
  refine ⟨_, .mk hexec ?_, ?_⟩
  · obtain ⟨content, type, tags, metadata⟩ := body
    obtain ⟨workspaceId, vector, sync, reflect⟩ := db
    cases type <;> cases vector <;> rfl
  · obtain ⟨content, type, tags, metadata⟩ := body
    obtain ⟨workspaceId, vector, sync, reflect⟩ := db
    intro hv
    obtain rfl : vector = true := hv
    cases type <;> exact List.cons_ne_nil _ _

/-- The owner's transaction, in the world it is committed in. -/
def stagedWorld (body : MemoryBody) : World :=
  let begun := (Prog.run Op.reference (Http.beginTransaction ownerSession) ownerWorld).2
  (Prog.run Op.reference (Http.txRememberTyped "r" (.ok (2 : Nat)) (.ok body)) begun).2

theorem committed_run (db : ClawDBEngine) (body : MemoryBody) :
    ∃ v', Committed db body (stagedWorld body) v' ∧
      (db.vector = true → v'.docs ≠ (stagedWorld body).docs) := by
  have hbegin : Exec Op.sem (Http.beginTransaction ownerSession) ownerWorld
      (.json (txBegunBody (2 : Nat))) _ := exec_run Op.reference_refines _ ownerWorld
  have hstage := exec_run Op.reference_refines
    (Http.txRememberTyped "r" (.ok (2 : Nat)) (.ok body))
    (Prog.run Op.reference (Http.beginTransaction ownerSession) ownerWorld).2
  have hcommit := exec_run Op.reference_refines
    (Http.commitTransaction db "r" (.ok (2 : Nat))) (stagedWorld body)
  refine ⟨_, .mk hbegin rfl rfl hstage rfl hcommit ?_, ?_⟩
  · obtain ⟨workspaceId, vector, sync, reflect⟩ := db
    cases vector <;> rfl
  · obtain ⟨workspaceId, vector, sync, reflect⟩ := db
    intro hv
    obtain rfl : vector = true := hv
    exact List.cons_ne_nil _ _

/-- If the routes agree on a body, they make items of it that agree. -/
theorem RoutesAgree.items (h : RoutesAgree db body) :
    body.posted.tags = body.staged.tags ∧
      (db.vector = true → body.posted.metadata = body.staged.metadata) := by
  obtain ⟨w', hposted, hindexed⟩ := posted_run db body
  obtain ⟨v', hcommitted, hindexed'⟩ := committed_run db body
  obtain ⟨r, ds, r', ds', hrows, hdocs, hrows', hdocs', halike⟩ := h _ _ _ _ hposted hcommitted
  obtain ⟨htags, hmetadata⟩ := (stores_posted hposted).of_alike (stores_committed hcommitted)
    hrows hdocs hrows' hdocs' halike
  exact ⟨htags, fun hv => hmetadata (hindexed hv) (hindexed' hv)⟩

/-- The routes agree on a body with a type, and on one that has nothing to lose. -/
theorem routesAgree_iff (db : ClawDBEngine) (body : MemoryBody) :
    RoutesAgree db body ↔
      body.type.isSome = true ∨ body.tags = [] ∧ (body.metadata = .null ∨ db.vector = false) := by
  constructor
  · intro h
    obtain ⟨htags, hmetadata⟩ := h.items
    cases htype : body.type with
    | some memoryType => exact .inl rfl
    | none =>
        simp only [MemoryBody.posted, MemoryBody.staged, htype] at htags hmetadata
        refine .inr ⟨htags.symm, ?_⟩
        cases hv : db.vector with
        | true => exact .inl (hmetadata hv).symm
        | false => exact .inr rfl
  · intro hc w w' v v' hposted hcommitted
    have hstored := stores_posted hposted
    rcases hc with hsome | ⟨htags, hmetadata⟩
    · rw [MemoryBody.posted_of_type hsome] at hstored
      exact hstored.alike (stores_committed hcommitted) rfl fun _ => rfl
    · refine hstored.alike (stores_committed hcommitted) (MemoryBody.posted_shape htags) ?_
      intro hv
      rcases hmetadata with hnull | hno
      · exact MemoryBody.posted_metadata hnull
      · rw [hno] at hv
        cases hv

end Routes

section Witnesses

attribute [local instance] Crates.sample

/-- A memory with a tag and no type keeps the tag on one route and not on the other. -/
theorem tags_dropped : ¬ ∀ body, RoutesAgree vectorDb body := by
  intro hclaim
  have htags := (hclaim ⟨"x", none, ["a"], .null⟩).items.1
  cases htags

end Witnesses

end ClawDB
