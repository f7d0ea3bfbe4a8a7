/-
# `ClawDB.Transactions` — what a transaction makes durable

The server is open here to the requests about transactions and no others.  `Write` is
what one operation of such a request can do to the core: it draws the ids of its rows,
and works in one core transaction of its own.  With the book of `Pending`, that settles
what the clients of a transaction can rely on, from its begin to its commit or rollback.
-/
import ClawDB.Pending
import ClawDB.Memories

namespace ClawDB

open Effect Escrow

/-- The request as a party of the core. -/
def Local.party (m : Local) : Party Uuid MemoryRecord TxHandle :=
  ⟨m.minted, m.handle, m.inserted, m.ended, m.committed⟩

def World.vault (w : World) : Vault Uuid MemoryRecord TxHandle :=
  ⟨w.rows, w.opened, w.handles, w.used⟩

/-- No transaction is pending, and the ids in use count as drawn. -/
structure World.Started (w : World) : Prop where
  transactions : w.transactions = fun _ => none
  rows : ∀ r ∈ w.rows, r.id ∈ w.used

/-! ## What one operation can do to the core -/

inductive Write (w : World) (m : Local) : World → Local → Prop where
  | other {w' : World} {m' : Local} : w'.rows = w.rows → w'.opened = w.opened →
      w'.handles = w.handles → (∀ id ∈ w.used, id ∈ w'.used) → m'.party = m.party →
      Write w m w' m'
  | draw (id : Uuid) : id ∉ w.used →
      Write w m { w with used := id :: w.used } { m with minted := id :: m.minted }
  | open (tx : TxHandle) : m.handle = none → tx ∉ w.handles →
      Write w m
        { w with handles := tx :: w.handles, opened := Function.update w.opened tx (some []) }
        { m with handle := some tx }
  | insert (tx : TxHandle) (record : MemoryRecord) (kept : List MemoryRecord) :
      m.handle = some tx → m.ended = false → record.id ∈ m.minted → w.opened tx = some kept →
      Write w m { w with opened := Function.update w.opened tx (some (kept ++ [record])) }
        { m with inserted := m.inserted ++ [record] }
  | commit (tx : TxHandle) (kept : List MemoryRecord) :
      m.handle = some tx → m.ended = false → w.opened tx = some kept →
      Write w m
        { w with rows := w.rows ++ kept, opened := Function.update w.opened tx none }
        { m with ended := true, committed := true }
  | close (tx : TxHandle) : m.handle = some tx →
      Write w m { w with opened := Function.update w.opened tx none } { m with ended := true }

section Write

variable {w w' : World} {m m' : Local}

theorem Write.same : Write w m w m := .other rfl rfl rfl (fun _ h => h) rfl

theorem vault_write {old : List MemoryRecord} {ps : List (Party Uuid MemoryRecord TxHandle)}
    (h : Vault.Inv MemoryRecord.id old w.vault (m.party :: ps)) (hm : Write w m w' m') :
    Vault.Inv MemoryRecord.id old w'.vault (m'.party :: ps) := by
  cases hm with
  | other hrows hopened hhandles hused hparty =>
      have hvault : w'.vault = { w.vault with used := w'.used } := by
        unfold World.vault
        rw [hrows, hopened, hhandles]
      rw [hvault, hparty]
      exact h.grow hused
  | draw id hid => exact h.draw hid
  | «open» tx hnone htx => exact h.open hnone htx
  | insert tx record kept hh he hid hk => exact h.insert hh he hid hk
  | commit tx kept hh he hk => exact h.commit hh he hk
  | close tx hh => exact h.close hh

end Write

section Transactions

variable [Crates]

/-- A request to one of the ten handlers. -/
def Request.Transactional (req : Request) : Prop := req.intent.transactional = true

variable {req : Request} {w w' : World} {m m' : Local}

theorem core_write {o : CoreOp} {r : o.Ret} (hreq : req.Transactional)
    (hallowed : coreAllowed req m o) (h : o.sem w r w') : Write w m w' (m.stored o r) := by
  have hwrites : req.intent.transactional = false → Write w m w' (m.stored o r) :=
    fun hno => nomatch hreq.symm.trans hno
  cases o with
  | insertMemory record => exact hwrites hallowed
  | updateMemory id content => exact hwrites hallowed
  | deleteMemory id => exact hwrites hallowed
  | getMemory id => obtain rfl | ⟨_, -, rfl, -⟩ := fallible_cases h <;> exact .same
  | listMemories t => obtain rfl | ⟨_, -, rfl, -⟩ := fallible_cases h <;> exact .same
  | ftsSearch query => obtain rfl | ⟨_, -, rfl, -⟩ := fallible_cases h <;> exact .same
  | stats => obtain rfl | ⟨_, -, rfl⟩ := fallible_cases h <;> exact .same
  | beginTransaction =>
      cases r with
      | error e => obtain rfl := h; exact .same
      | ok tx => obtain ⟨htx, rfl⟩ := h; exact .open tx (hallowed hreq).1 htx
  | txInsertMemory tx record =>
      obtain ⟨id, pending, staged, -, -, hh, he, hid, -⟩ := hallowed
      cases r with
      | error e => obtain rfl := h; exact .same
      | ok id' => obtain ⟨-, kept, hk, -, rfl⟩ := h; exact .insert tx record kept hh he hid hk
  | txCommit tx =>
      obtain ⟨id, pending, -, -, hh, he, -⟩ := hallowed
      cases r with
      | error e => obtain rfl := h; exact .close tx hh
      | ok u => obtain ⟨kept, hk, -, rfl⟩ := h; exact .commit tx kept hh he hk
  | txRollback tx =>
      obtain ⟨id, -, hh, -⟩ := hallowed
      obtain rfl := h
      exact .close tx hh

theorem write_of_sem {o : Op} {r : o.Ret} (hreq : req.Transactional) (hallowed : allowed req m o)
    (h : Op.sem o w r w') : Write w m w' (m.next o r) := by
  cases o with
  | guard o =>
      obtain ⟨validated, issued, revoked, he⟩ := Local.guarded_frame (m := m) o r
      show Write w m w' (m.guarded o r)
      rw [he]
      obtain rfl | ⟨g, -, -, rfl⟩ | ⟨id, rfl⟩ := GuardOp.sem_cases h
      · exact .other rfl rfl rfl (fun _ hid => hid) rfl
      · exact .other rfl rfl rfl (fun _ hid => List.mem_cons_of_mem _ hid) rfl
      · exact .other rfl rfl rfl (fun _ hid => hid) rfl
  | core o => exact core_write hreq hallowed.2 h
  | vector o =>
      obtain rfl | ⟨d, -, rfl⟩ := VectorOp.sem_cases h
      · exact .same
      · exact .other rfl rfl rfl (fun _ hid => List.mem_cons_of_mem _ hid) rfl
  | branch o => exact nomatch hreq.symm.trans hallowed.2
  | sync o => exact nomatch hreq.symm.trans hallowed.2
  | reflect o => obtain rfl := h; exact .same
  | host o =>
      cases o with
      | newV4 => obtain ⟨hid, rfl⟩ := h; exact .draw r hid
      | _ => obtain rfl := h; exact .same
  | txs o =>
      obtain ⟨transactions, rfl⟩ := TxsOp.sem_frame h
      cases o with
      | push id staged => cases r <;> exact .other rfl rfl rfl (fun _ hid => hid) rfl
      | remove id => cases r <;> exact .other rfl rfl rfl (fun _ hid => hid) rfl
      | insert id pending => exact .other rfl rfl rfl (fun _ hid => hid) rfl

variable (db : ClawDBEngine)

/-- Every row is an old one, or one that a request has committed. -/
theorem vault_inv {w₀ : World} (hw₀ : w₀.Started) {b : Desk}
    (h : Board.Reachable (server db Request.Transactional) monitor (· = w₀) b) :
    Vault.Inv MemoryRecord.id w₀.rows b.world.vault (b.all.map fun x => x.2.party) := by
  refine (h.rule (I := fun w l _ => Vault.Inv MemoryRecord.id w₀.rows w.vault
    (l.map fun x => x.2.party)) ?_ ?_ ?_ ?_ ?_).2
  · intro w l l' ended hperm hv
    exact hv.perm (hperm.map _)
  · rintro w rfl
    exact Vault.inv_nil (v := w.vault) hw₀.rows
  · intro w l ended req f _ _ hv
    exact hv.arrive
  · intro w w' l ended req m o r f hreq hallowed hr _ hv
    exact vault_write hv (write_of_sem hreq hallowed hr)
  · intro w l ended req m hv
    exact hv

/-! ## What the clients can rely on -/

/-- The requests that took `id` out of the map. -/
def takers (b : Desk) (id : Uuid) : List (Request × Local) :=
  b.all.filter fun x => decide (x.1.intent.ends = some id) && x.2.taken.isSome

/-- The rows stored under an id that a taker of `id` drew. -/
def durable (b : Desk) (id : Uuid) : List MemoryRecord :=
  b.world.rows.filter fun r => (takers b id).any fun x => decide (r.id ∈ x.2.minted)

theorem length_takers (l : List (Request × Local)) (id : Uuid) :
    (l.filter fun x => decide (x.1.intent.ends = some id) && x.2.taken.isSome).length =
      ((l.filterMap taking).map Prod.fst).count id := by
  induction l with
  | nil => rfl
  | cons x l ih =>
      cases hends : x.1.intent.ends with
      | none => simp [taking, hends, ih]
      | some id' =>
          cases ht : x.2.taken with
          | none => simp [taking, hends, ht, ih]
          | some pending =>
              by_cases hid : id' = id
              · simp [taking, hends, ht, hid, ih]
              · simp [taking, hends, ht, hid, ih]

theorem mem_takers {b : Desk} {id : Uuid} {x : Request × Local} {pending : PendingTransaction}
    (hx : x ∈ b.all) (hends : x.1.intent.ends = some id) (ht : x.2.taken = some pending) :
    x ∈ takers b id := by
  refine List.mem_filter.mpr ⟨hx, ?_⟩
  rw [hends, ht]
  simp

section Reached

variable {old : List MemoryRecord} {b : Desk} {id : Uuid} (hb : Book b.world b.all b.ended)
  (hv : Vault.Inv MemoryRecord.id old b.world.vault (b.all.map fun x => x.2.party))

include hb

theorem takers_le_one (id : Uuid) : (takers b id).length ≤ 1 := by
  have hlength : (takers b id).length = ((b.all.filterMap taking).map Prod.fst).count id :=
    length_takers b.all id
  rw [hlength]
  exact List.nodup_iff_count_le_one.mp hb.entries.once id

include hv

/-- What is stored of a transaction is what its one taker committed. -/
theorem durable_eq {x : Request × Local} (hx : x ∈ takers b id) :
    durable b id = if x.2.committed then x.2.inserted else [] := by
  obtain ⟨y, hy⟩ := List.length_eq_one_iff.mp
    (Nat.le_antisymm (takers_le_one hb id) (List.length_pos_of_mem hx))
  obtain rfl : x = y := List.mem_singleton.mp (hy ▸ hx)
  have hall : x ∈ b.all := (List.mem_filter.mp hx).1
  have hstored := (hv.sound x.2.party (List.mem_map_of_mem hall)).stored
  unfold durable
  rw [hy]
  simp only [List.any_cons, List.any_nil, Bool.or_false]
  exact hstored

/-- A committed transaction is stored as it was acknowledged. -/
theorem durable_committed {x : Request × Local} (hx : x ∈ b.all)
    (hc : x.2.committed = true) :
    ∃ id, x.1.intent = .commit id ∧ durable b id = x.2.inserted ∧
      (durable b id).map MemoryRecord.shape =
        (acknowledged b.ended id).map StagedMemory.shape := by
  obtain ⟨id, pending, hint, ht, -, hall⟩ := (hb.sound x hx).committed hc
  have hends : x.1.intent.ends = some id := by rw [hint]; rfl
  have hdurable : durable b id = x.2.inserted := by
    rw [durable_eq hb hv (mem_takers hx hends ht), if_pos hc]
  have htaking : taking x = some (id, pending.stagedMemories) := taking_some hends ht
  have hacks : pending.stagedMemories = acknowledged b.ended id :=
    (hb.entries.taken _ (List.mem_filterMap.mpr ⟨x, hx, htaking⟩)).1
  exact ⟨id, hint, hdurable, by rw [hdurable, hall, hacks]⟩

end Reached

/-- Of all requests that end a transaction, on either front end, one takes it, and the
others that come to the map are told that there is none.  If the commit
reports success then the memories that were acknowledged are stored, in that order; if
the transaction is rolled back or its core transaction is not committed, none is.  No
other memory is stored. -/
theorem transactions_settled {w₀ : World} (hw₀ : w₀.Started)
    {c : Pool Sig World Request Reply Local}
    (h : Pool.Reachable (server db Request.Transactional) monitor (· = w₀) c) (id : Uuid) :
    (takers c.board id).length ≤ 1 ∧
    (∀ e ∈ c.ended, e.req.intent.ends = some id → e.mem.taken = none →
      ∀ rep, e.rep = some rep → e.mem.Refused rep) ∧
    (∀ e ∈ c.ended, e.req.intent = .commit id →
      ∀ rep, e.rep = some rep → rep.isSuccess = true →
        (durable c.board id).map MemoryRecord.shape =
          (acknowledged c.ended id).map StagedMemory.shape) ∧
    (∀ x ∈ takers c.board id, x.1.intent = .rollback id ∨ x.2.committed = false →
      durable c.board id = []) ∧
    ∀ r ∈ c.world.rows, r ∈ w₀.rows ∨ ∃ id, r ∈ durable c.board id := by
  have hreach := Pool.reachable_board (server_conforms db Request.Transactional) h
  have hb := book db (by rintro w rfl; exact hw₀.transactions) hreach
  have hv := vault_inv db hw₀ hreach
  have hreplied := hreach.replied
  refine ⟨takers_le_one hb id, ?_, ?_, ?_, ?_⟩
  · intro e he hends ht rep hrep
    have hsaid : answered e.req e.mem rep := hreplied e he rep hrep
    rcases Intent.ends_cases hends with hint | hint
    · exact ((answered_commit hint).mp hsaid).1 ht
    · exact (answered_rollback hint).mp hsaid ht
  · intro e he hint rep hrep hsuccess
    have hsaid : answered e.req e.mem rep := hreplied e he rep hrep
    have hc : e.mem.committed = true := ((answered_commit hint).mp hsaid).2.mp hsuccess
    have hx : (e.req, e.mem) ∈ c.board.all := Board.mem_all_of_ended he
    obtain ⟨id', hint', -, hdurable⟩ := durable_committed hb hv hx hc
    obtain rfl : id = id' := Intent.commit.inj (hint.symm.trans hint')
    exact hdurable
  · intro x hx hno
    have hc : x.2.committed = false := by
      rcases hno with hint | hc
      · refine Bool.eq_false_iff.mpr fun hc => ?_
        obtain ⟨_, _, hint', -⟩ := (hb.sound x (List.mem_filter.mp hx).1).committed hc
        cases hint.symm.trans hint'
      · exact hc
    rw [durable_eq hb hv hx, hc, if_neg Bool.false_ne_true]
  · intro r hr
    obtain hold | ⟨p, hp, hc, hm⟩ := hv.origin r hr
    · exact .inl hold
    · obtain ⟨x, hx, rfl⟩ := List.mem_map.mp hp
      obtain ⟨id', -, hdurable, -⟩ := durable_committed hb hv hx hc
      exact .inr ⟨id', hdurable ▸ hm⟩

end Transactions

/-! ## A run

A transaction filled over both front ends, committed once, and named twice more. -/

section Witnesses

attribute [local instance] Crates.sample

/-- The owner's requests: the token goes with those that need one. -/
def busyRequests : List Request :=
  let id := Crates.uuidToString 2
  [.grpc ⟨"r", some "t", .beginTx⟩,
    .grpc ⟨"r", none, .txRemember id "x"⟩,
    .http ⟨"r", some "Bearer t",
      .protected (.txRememberTyped (.ok 2) (.ok ⟨"y", some "episodic", ["z"], .null⟩))⟩,
    .grpc ⟨"r", none, .commitTx id⟩,
    .http ⟨"r", some "Bearer t", .protected (.commitTransaction (.ok 2))⟩,
    .http ⟨"r", none, .protected (.rollbackTransaction (.ok 2))⟩]

def busyPool : Pool Sig World Request Reply Local :=
  Pool.acts (server vectorDb Request.Transactional) monitor Op.reference ⟨ownerWorld, [], []⟩
    (Pool.oneByOne 12 busyRequests)

theorem ownerWorld_started : ownerWorld.Started := ⟨rfl, fun _ hr => (nomatch hr)⟩

theorem busyPool_reachable :
    Pool.Reachable (server vectorDb Request.Transactional) monitor (· = ownerWorld) busyPool := by
  have hall : ∀ req ∈ busyRequests, req.intent.transactional = true := by decide
  exact Pool.acts_reachable Op.reference_refines _
    (fun req hreq => hall req (Pool.mem_of_oneByOne hreq)) (.init rfl)

/-- What was staged and committed, and how the last request was answered. -/
theorem busyPool_answers :
    (∃ e ∈ busyPool.ended, e.req.intent = .commit 2 ∧ e.rep.any Reply.isSuccess = true) ∧
    (acknowledged busyPool.ended 2).map StagedMemory.shape =
      [⟨"x", .semantic, []⟩, ⟨"y", .episodic, ["z"]⟩] ∧
    ∃ e ∈ busyPool.ended, e.req.intent.ends = some 2 ∧ e.mem.taken = none ∧
      e.rep = some (.http .unauthorized) := by
  decide +kernel

theorem transactions_settled_busy :
    (takers busyPool.board 2).length ≤ 1 ∧
    (durable busyPool.board 2).map MemoryRecord.shape =
      [⟨"x", .semantic, []⟩, ⟨"y", .episodic, ["z"]⟩] := by
  obtain ⟨hone, -, hcommit, -⟩ :=
    transactions_settled vectorDb ownerWorld_started busyPool_reachable 2
  obtain ⟨⟨e, he, hint, hsuccess⟩, hacks, -⟩ := busyPool_answers
  obtain ⟨rep, hrep, hsuccess⟩ := (Option.any_eq_true _ _).mp hsuccess
  exact ⟨hone, (hcommit e he hint rep hrep hsuccess).trans hacks⟩

/-- Not every request that ends a transaction too late is told so: without a token the
last one does not get that far. -/
theorem late_request_turned_away :
    ¬ ∀ c, Pool.Reachable (server vectorDb Request.Transactional) monitor (· = ownerWorld) c →
      ∀ id, ∀ e ∈ c.ended, e.req.intent.ends = some id → e.mem.taken = none →
        ∀ rep, e.rep = some rep → rep.NotFound := by
  intro hclaim
  obtain ⟨-, -, e, he, hends, ht, hrep⟩ := busyPool_answers
  obtain ⟨requestId, hfound⟩ := hclaim busyPool busyPool_reachable 2 e he hends ht _ hrep
  have hstatus : (401 : Nat) = 404 := congrArg Response.status hfound
  cases hstatus

end Witnesses

end ClawDB
