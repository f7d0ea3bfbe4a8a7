/-
# `ClawDB.Receipts` — the identifier a staging request hands out

Over gRPC a request that stages a memory replies with a `memory_id`, which it draws
itself.  The memory is stored by the request that commits the transaction, under an id
which that one draws.  No two requests draw the same id, so the one handed out is never
the one of the memory: whoever keeps it can neither recall nor update nor delete what was
staged.
-/
import ClawDB.Transactions

namespace ClawDB

open Effect Prog

section Receipts

variable [Crates]

/-- The identifier in the reply to a staging request is one the request drew. -/
def receipt (req : Request) (m : Local) (rep : Reply) : Prop :=
  ∀ id staged r text, req.intent = .stage id staged → rep = .grpc r →
    r.result = .ok (.txRemember text) → ∃ drawn ∈ m.minted, text = Crates.uuidToString drawn

/-! ## What the handlers reply -/

theorem Grpc.ifUuid_stage {text : String} {f : Uuid → Intent} {id : Uuid} {staged : StagedMemory}
    (h : Grpc.ifUuid text f = .stage id staged) : ∃ id', f id' = .stage id staged := by
  unfold Grpc.ifUuid at h
  split at h
  next id' _ => exact ⟨id', h⟩
  next => cases h

/-- What a staging method has to show for its result. -/
def Local.Drew (m : Local) (result : Except Status Message) : Prop :=
  ∀ text, result = .ok (.txRemember text) → ∃ drawn ∈ m.minted, text = Crates.uuidToString drawn

theorem Local.drew_error {m : Local} {status : Status} : m.Drew (.error status) :=
  fun _ h => nomatch h

variable {req : Request}

-- what a metadata text parses to is decided by `wp_parseJson_bind`
attribute [local irreducible] Grpc.parseJson

theorem stage_drew (id : Uuid) (staged : StagedMemory) (m : Local) :
    (Grpc.stage id staged).run.wp ((monitor.lax receipt).protocol req) Local.Drew m := by
  refine Try.wp_bind.mpr (Try.wp_lift.mpr ⟨trivial, fun drawn => ?_⟩)
  refine Try.wp_bind.mpr (Try.wp_lift.mpr ⟨trivial, fun found => ?_⟩)
  cases found with
  | true =>
      intro text h
      cases h
      exact ⟨drawn, List.mem_cons_self, rfl⟩
  | false => exact Local.drew_error

variable (db : ClawDBEngine)

theorem handle_drew {method : Grpc.Method} {id : Uuid} {staged : StagedMemory}
    (h : method.intent = .stage id staged) (requestId : String) (token : Option String)
    (m : Local) : (method.handle db requestId token).run.wp
      ((monitor.lax receipt).protocol req) Local.Drew m := by
  cases method with
  | txRemember txId content =>
      exact wp_parseUuid_bind (fun _ _ => Local.drew_error) fun id _ => stage_drew id _ m
  | txRememberTyped txId content type tags metadataJson =>
      refine wp_parseUuid_bind (fun _ _ => Local.drew_error) fun id _ => ?_
      exact wp_parseJson_bind (fun _ => stage_drew id _ m) (fun _ _ _ => Local.drew_error)
        fun _ _ _ => stage_drew id _ m
  | createSession | revokeSession | commitTx | rollbackTx =>
      obtain ⟨_, h⟩ := Grpc.ifUuid_stage h
      cases h
  | _ => cases h

theorem receipts_conform (accepts : Request → Prop) :
    Conforms (server db accepts) (monitor.lax receipt) := by
  intro req _
  have hany : ∀ {α : Type} {Q : Local → α → Prop} (p : Act α) m, (∀ m a, Q m a) →
      p.wp ((monitor.lax receipt).protocol req) Q m :=
    fun p m hQ => Prog.wp_of_forall (fun _ _ => trivial) hQ p m
  cases req with
  | http r =>
      refine Prog.wp_bind.mpr (hany _ _ fun m rep => ?_)
      intro id staged r' text _ hrep
      cases hrep
  | grpc r =>
      by_cases hstage : ∃ id staged, r.method.intent = .stage id staged
      · obtain ⟨id, staged, hint⟩ := hstage
        refine Prog.wp_bind.mpr ⟨trivial, fun within => ?_⟩
        cases within with
        | true =>
            show ((r.method.handle db r.requestId r.token).run >>= fun result =>
              (Prog.pure ⟨some r.requestId, result⟩ : Act GrpcResponse)).wp _ _ _
            refine Prog.wp_bind.mpr (Prog.wp_mono ?_ (handle_drew db hint _ _ _))
            rintro m result hdrew _ _ _ text - hrep hresult
            cases hrep
            exact hdrew text hresult
        | false =>
            rintro _ _ _ text - hrep hresult
            cases hrep
            cases hresult
      · refine hany _ _ fun m rep => ?_
        intro id staged r' text hint
        exact absurd ⟨id, staged, hint⟩ hstage

/-! ## The rows of a commit -/

/-- A request stores its rows under ids it drew. -/
def Local.StoresDrawn (m : Local) : Prop := ∀ r ∈ m.inserted, r.id ∈ m.minted

theorem Local.StoresDrawn.next {m : Local} (h : m.StoresDrawn) {o : Op}
    (hallowed : allowed req m o) (r : o.Ret) : (m.next o r).StoresDrawn := by
  cases o with
  | guard o =>
      obtain ⟨validated, issued, revoked, he⟩ := Local.guarded_frame (m := m) o r
      show (m.guarded o r).StoresDrawn
      rw [he]
      exact h
  | core o =>
      cases o with
      | txInsertMemory tx record =>
          obtain ⟨-, -, -, -, -, -, -, -, hdrawn, -⟩ := hallowed
          cases r with
          | error e => exact h
          | ok id =>
              intro row hrow
              rcases List.mem_append.mp hrow with hrow | hrow
              · exact h row hrow
              · obtain rfl := List.mem_singleton.mp hrow
                exact hdrawn
      | beginTransaction => cases r <;> exact h
      | txCommit tx => cases r <;> exact h
      | _ => exact h
  | host o =>
      cases o with
      | newV4 => exact fun row hrow => List.mem_cons_of_mem _ (h row hrow)
      | _ => exact h
  | txs o =>
      cases o with
      | insert id pending => exact h
      | push id staged => cases r <;> exact h
      | remove id => cases r <;> exact h
  | _ => exact h

theorem stores_drawn {accepts : Request → Prop} {init : World → Prop} {b : Desk}
    (h : Board.Reachable (server db accepts) monitor init b) : ∀ x ∈ b.all, x.2.StoresDrawn :=
  (h.each (J := fun _ => True) (I := fun _ x => x.2.StoresDrawn) (fun _ _ => trivial)
    (fun _ _ hrow => nomatch hrow) (fun hallowed _ _ hI => ⟨trivial, hI.next hallowed _⟩)
    (fun _ _ _ hI => hI)).2

section Handed

variable {accepts : Request → Prop} {init : World → Prop}
  (hinit : ∀ w, init w → w.transactions = fun _ => none)
  {c : Pool Sig World Request Reply Local}
  (h : Pool.Reachable (server db accepts) monitor init c) (hprint : PrintApart c.world.used)
  {id : Uuid} {staged : StagedMemory} {e : Ended Request Reply Local} (he : e ∈ c.ended)
  (hstage : e.req.intent = .stage id staged) {r : GrpcResponse} (hrep : e.rep = some (.grpc r))
  {text : String} (hacked : r.result = .ok (.txRemember text))

include hinit h hprint he hstage hrep hacked

/-- Whoever else drew an id drew another, and it prints differently. -/
theorem receipt_apart {x : Request × Local} (hx : x ∈ c.board.all)
    (hint : x.1.intent ≠ .stage id staged) {id' : Uuid} (hid' : id' ∈ x.2.minted) :
    Crates.uuidToString id' ≠ text := by
  have hb := book db hinit (Pool.reachable_board (server_conforms db accepts) h)
  obtain ⟨drawn, hdrawn, rfl⟩ :=
    h.replies (receipts_conform db accepts) e he _ hrep id staged r text hstage rfl hacked
  intro hsame
  have hne : x ≠ (e.req, e.mem) := fun hx => hint (hx ▸ hstage)
  obtain rfl := hprint id' (hb.drawn.mem_used hx hid') drawn
    (hb.drawn.mem_used (Board.mem_all_of_ended he) hdrawn) hsame
  exact hb.drawn.apart hx (Board.mem_all_of_ended he) hne hid' hdrawn

/-- What a client was told of a memory staged over gRPC is of no use to it once the
transaction is committed: the memory is stored, and no memory of the transaction has that
identifier. -/
theorem staged_id_unused {e' : Ended Request Reply Local} (he' : e' ∈ c.ended)
    (hcommit : e'.req.intent = .commit id) {rep : Reply} (hrep' : e'.rep = some rep)
    (hsuccess : rep.isSuccess = true) :
    staged.shape ∈ e'.mem.inserted.map MemoryRecord.shape ∧
      (∀ row ∈ e'.mem.inserted, Crates.uuidToString row.id ≠ text) ∧
      ∀ row ∈ durable c.board id, Crates.uuidToString row.id ≠ text := by
  have hreach := Pool.reachable_board (server_conforms db accepts) h
  have hb := book db hinit hreach
  have hall : (e'.req, e'.mem) ∈ c.board.all := Board.mem_all_of_ended he'
  have hcommitted : e'.mem.committed = true := by
    have hsaid : answered e'.req e'.mem rep := hreach.replied e' he' rep hrep'
    exact ((answered_commit hcommit).mp hsaid).2.mp hsuccess
  refine ⟨?_, fun row hrow => ?_, fun row hrow => ?_⟩
  · obtain ⟨id', pending, hint, ht, -, hrows⟩ := (hb.sound _ hall).committed hcommitted
    obtain rfl : id = id' := Intent.commit.inj (hcommit.symm.trans hint)
    have htaking : taking (e'.req, e'.mem) = some (id, pending.stagedMemories) :=
      taking_some (by rw [hint]; rfl) ht
    have hacks : pending.stagedMemories = acknowledged c.ended id :=
      (hb.entries.taken _ (List.mem_filterMap.mpr ⟨_, hall, htaking⟩)).1
    have hok : (Reply.grpc r).isSuccess = true := by
      show r.result.isOk = true
      rw [hacked]
      rfl
    rw [hrows, hacks]
    refine List.mem_map_of_mem (List.mem_filterMap.mpr ⟨e, he, ?_⟩)
    simp only [hstage, hrep, hok, and_self, if_true]
  · have hdrew := stores_drawn db hreach _ hall row hrow
    refine receipt_apart db hinit h hprint he hstage hrep hacked hall ?_ hdrew
    rw [hcommit]
    exact Intent.noConfusion
  · obtain ⟨-, htaker⟩ := List.mem_filter.mp hrow
    obtain ⟨x, hx, hmine⟩ := List.any_eq_true.mp htaker
    obtain ⟨hxall, htook⟩ := List.mem_filter.mp hx
    have hends : x.1.intent.ends = some id := of_decide_eq_true (Bool.and_eq_true_iff.mp htook).1
    refine receipt_apart db hinit h hprint he hstage hrep hacked hxall (fun hint => ?_)
      (of_decide_eq_true hmine)
    rw [hint] at hends
    cases hends

end Handed

/-! ## Where only transactions are served -/

variable {w₀ : World}

/-- The ids in use at the start stay in use, and no request draws one of them. -/
theorem used_at_start {accepts : Request → Prop} {b : Desk}
    (h : Board.Reachable (server db accepts) monitor (· = w₀) b) :
    (∀ id ∈ w₀.used, id ∈ b.world.used) ∧ ∀ x ∈ b.all, ∀ id ∈ x.2.minted, id ∉ w₀.used := by
  have hgrows : ∀ {req : Request} {w w' : World} {m m' : Local}, Move req w m w' m' →
      (∀ id ∈ w₀.used, id ∈ w.used) → (∀ id ∈ m.minted, id ∉ w₀.used) →
      (∀ id ∈ w₀.used, id ∈ w'.used) ∧ ∀ id ∈ m'.minted, id ∉ w₀.used := by
    intro req w w' m m' hm hw hid
    cases hm with
    | other _ hused hminted => exact ⟨fun id h => hused id (hw id h), hminted ▸ hid⟩
    | draw id hnew =>
        refine ⟨fun id h => List.mem_cons_of_mem _ (hw id h), ?_⟩
        exact List.forall_mem_cons.mpr ⟨fun h => hnew (hw id h), hid⟩
    | begin | stage | take => exact ⟨hw, hid⟩
  refine h.each (J := fun w => ∀ id ∈ w₀.used, id ∈ w.used)
    (I := fun _ x => ∀ id ∈ x.2.minted, id ∉ w₀.used) ?_ ?_ ?_ ?_
  · rintro w rfl id hid
    exact hid
  · intro w req _ id hid
    cases hid
  · intro w w' req m o r hallowed hr hw hI
    exact hgrows (move_of_sem hallowed hr) hw hI
  · intro w w' req m o r x _ _ _ hI
    exact hI

/-- There the identifier is that of no memory at all: recall, update and delete by it find
nothing. -/
theorem staged_id_unknown (hw₀ : w₀.Started) {c : Pool Sig World Request Reply Local}
    (h : Pool.Reachable (server db Request.Transactional) monitor (· = w₀) c)
    (hprint : PrintApart c.world.used) {id : Uuid} {staged : StagedMemory}
    {e : Ended Request Reply Local} (he : e ∈ c.ended) (hstage : e.req.intent = .stage id staged)
    {r : GrpcResponse} (hrep : e.rep = some (.grpc r)) {text : String}
    (hacked : r.result = .ok (.txRemember text)) :
    ∀ row ∈ c.world.rows, Crates.uuidToString row.id ≠ text := by
  have hinit : ∀ w, w = w₀ → w.transactions = fun _ => none := by
    rintro w rfl
    exact hw₀.transactions
  have hreach := Pool.reachable_board (server_conforms db Request.Transactional) h
  have hb := book db hinit hreach
  intro row hrow
  obtain hold | ⟨p, hp, hc, hm⟩ := (vault_inv db hw₀ hreach).origin row hrow
  · obtain ⟨hkept, hnew⟩ := used_at_start db hreach
    obtain ⟨drawn, hdrawn, rfl⟩ := h.replies (receipts_conform db Request.Transactional) e he _
      hrep id staged r text hstage rfl hacked
    have hused : drawn ∈ c.world.used := hb.drawn.mem_used (Board.mem_all_of_ended he) hdrawn
    intro hsame
    have hrowused := hw₀.rows row hold
    obtain rfl := hprint row.id (hkept _ hrowused) drawn hused hsame
    exact hnew _ (Board.mem_all_of_ended he) _ hdrawn hrowused
  · obtain ⟨x, hx, rfl⟩ := List.mem_map.mp hp
    refine receipt_apart db hinit h hprint he hstage hrep hacked hx (fun hint => ?_)
      (stores_drawn db hreach x hx row hm)
    obtain ⟨_, _, hcommit, -⟩ := (hb.sound x hx).committed hc
    cases hint.symm.trans hcommit

end Receipts

/-! ## A run

The first memory of `busyPool` is staged over gRPC.  It is stored under an id drawn at the
commit; the one handed out was drawn when it was staged. -/

section Witnesses

attribute [local instance] Crates.sample

/-- The ids of the run print apart; the first memory was staged, and handed out `3`; and the
commit stored both. -/
theorem busyPool_receipts : PrintApart busyPool.world.used ∧
    (∃ e ∈ busyPool.ended, e.req.intent = .stage 2 ⟨"x", "semantic", [], .null⟩ ∧
      e.rep = some (.grpc ⟨some "r", .ok (.txRemember (Crates.uuidToString 3))⟩)) ∧
    (durable busyPool.board 2).map MemoryRecord.content = ["x", "y"] := by
  unfold PrintApart
  decide +kernel

theorem staged_id_unused_busy :
    (durable busyPool.board 2).map MemoryRecord.content = ["x", "y"] ∧
    ∀ row ∈ durable busyPool.board 2, Crates.uuidToString row.id ≠ Crates.uuidToString 3 := by
  obtain ⟨happart, ⟨e, he, hstage, hrep⟩, hstored⟩ := busyPool_receipts
  obtain ⟨⟨e', he', hcommit, hsuccess⟩, -⟩ := busyPool_answers
  obtain ⟨rep, hrep', hsuccess⟩ := (Option.any_eq_true _ _).mp hsuccess
  obtain ⟨-, -, hnone⟩ := staged_id_unused vectorDb
    (by rintro w rfl; exact ownerWorld_started.transactions) busyPool_reachable
    happart he hstage hrep rfl he' hcommit hrep' hsuccess
  exact ⟨hstored, hnone⟩

/-- What is stored for the staging does not have the identifier its client was given. -/
theorem staged_id_misleads :
    ¬ ∀ c, Pool.Reachable (server vectorDb Request.Transactional) monitor (· = ownerWorld) c →
      PrintApart c.world.used → ∀ e ∈ c.ended, ∀ id staged r text,
        e.req.intent = .stage id staged → e.rep = some (.grpc r) →
        r.result = .ok (.txRemember text) → ∀ e' ∈ c.ended, e'.req.intent = .commit id →
        ∀ rep, e'.rep = some rep → rep.isSuccess = true →
        ∃ row ∈ durable c.board id,
          Crates.uuidToString row.id = text ∧ row.shape = staged.shape := by
  intro hclaim
  obtain ⟨happart, ⟨e, he, hstage, hrep⟩, -⟩ := busyPool_receipts
  obtain ⟨⟨e', he', hcommit, hsuccess⟩, -⟩ := busyPool_answers
  obtain ⟨rep, hrep', hsuccess⟩ := (Option.any_eq_true _ _).mp hsuccess
  have hfound := hclaim busyPool busyPool_reachable happart e he _ _ _ _ hstage hrep
    rfl e' he' hcommit rep hrep' hsuccess
  revert hfound
  decide +kernel

end Witnesses

end ClawDB
