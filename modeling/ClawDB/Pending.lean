/-
# `ClawDB.Pending` — the map of pending transactions

Ten handlers share the map, five on each front end, and any number of requests of any
kind run at once.  `Move` is what one operation of a request can do to the map, to the
ids in use, and to what the request remembers of both.

The book kept of a server sets the map against what the requests have seen of it: an
entry is what was acknowledged to the clients, in the order of the replies, and no two
requests took the same entry out.
-/
import ClawDB.Server.Conforms
import ClawDB.Lib.Escrow

namespace ClawDB

open Effect Escrow

/-- The server at work, with the programs of the requests left out. -/
abbrev Desk := Board World Request Reply Local

/-! ## Reading the map -/

/-- The memories staged on a pending transaction. -/
def World.staged (w : World) (id : Uuid) : Option (List StagedMemory) :=
  (w.transactions id).map PendingTransaction.stagedMemories

theorem staged_setTransaction {w : World} (id : Uuid) (p : Option PendingTransaction) :
    (w.setTransaction id p).staged =
      Function.update w.staged id (p.map PendingTransaction.stagedMemories) := by
  funext id'
  by_cases h : id' = id
  · subst h
    simp [World.staged]
  · simp [World.staged, World.setTransaction_ne w h, Function.update_of_ne h]

theorem staged_eq {w : World} {id : Uuid} {pending : PendingTransaction}
    (h : w.transactions id = some pending) : w.staged id = some pending.stagedMemories := by
  simp only [World.staged, h, Option.map_some]

theorem staged_congr {w w' : World} (h : w'.transactions = w.transactions) :
    w'.staged = w.staged := by
  funext id
  simp only [World.staged, h]

/-- The id of the transaction a request began. -/
def beginning (x : Request × Local) : Option Uuid := x.2.begun.map PendingTransaction.id

theorem beginning_none {x : Request × Local} (h : x.2.begun = none) : beginning x = none := by
  simp only [beginning, h, Option.map_none]

/-! ## What a request remembers -/

section Memory

variable {m : Local}

theorem Local.of_running (h : m.finished = false) : m.begun = none ∧ m.staged = false := by
  obtain ⟨h, -⟩ := Bool.or_eq_false_iff.mp h
  obtain ⟨hb, hs⟩ := Bool.or_eq_false_iff.mp h
  exact ⟨Option.not_isSome_iff_eq_none.mp (Bool.eq_false_iff.mp hb), hs⟩

theorem Local.guarded_frame (o : GuardOp) (r : o.Ret) : ∃ validated issued revoked,
    m.guarded o r = { m with validated := validated, issued := issued, revoked := revoked } := by
  cases o with
  | validateSession token => cases r <;> exact ⟨_, _, _, rfl⟩
  | createSession agentId workspaceId role scopes ttlSecs => cases r <;> exact ⟨_, _, _, rfl⟩
  | revokeSession id => cases r <;> exact ⟨_, _, _, rfl⟩
  | countSessions => exact ⟨_, _, _, rfl⟩

theorem Local.stored_frame (o : CoreOp) (r : o.Ret) : ∃ handle inserted ended committed,
    m.stored o r = { m with
      handle := handle, inserted := inserted, ended := ended, committed := committed } := by
  cases o with
  | beginTransaction => cases r <;> exact ⟨_, _, _, _, rfl⟩
  | txInsertMemory tx record => cases r <;> exact ⟨_, _, _, _, rfl⟩
  | txCommit tx => cases r <;> exact ⟨_, _, _, _, rfl⟩
  | _ => exact ⟨_, _, _, _, rfl⟩

end Memory

section Pending

variable [Crates] {req : Request} {w w' : World} {m m' : Local}

theorem running_of_allowed {o : Op} (h : allowed req m o) : m.finished = false := by
  cases o with
  | vector o => exact h
  | reflect o => exact h
  | host o => exact h
  | guard o => exact h.1
  | core o => exact h.1
  | branch o => exact h.1
  | sync o => exact h.1
  | txs o => exact h.1

/-- The ids a request uses are its own, and it has committed what it took. -/
structure Local.Sound (req : Request) (m : Local) : Prop where
  begun : ∀ pending, m.begun = some pending → pending.id ∈ m.minted
  committed : m.committed = true → ∃ id pending, req.intent = .commit id ∧
    m.taken = some pending ∧ m.ended = true ∧
    m.inserted.map MemoryRecord.shape = pending.stagedMemories.map StagedMemory.shape

theorem Local.Sound.init : Local.Sound req .init where
  begun := by intro pending h; cases h
  committed := by intro h; cases h

theorem Local.Sound.stored (h : Local.Sound req m) {o : CoreOp} (hallowed : coreAllowed req m o)
    (r : o.Ret) : Local.Sound req (m.stored o r) := by
  have hended : m.ended = false → m.committed = false := by
    intro he
    refine Bool.eq_false_iff.mpr fun hc => ?_
    obtain ⟨_, _, _, _, he', _⟩ := h.committed hc
    cases he.symm.trans he'
  cases o with
  | beginTransaction =>
      cases r with
      | error e => exact h
      | ok tx => exact ⟨h.begun, h.committed⟩
  | txInsertMemory tx record =>
      obtain ⟨_, _, _, _, _, _, he, _⟩ := hallowed
      cases r with
      | error e => exact h
      | ok id => exact ⟨h.begun, fun hc => nomatch (hended he).symm.trans hc⟩
  | txCommit tx =>
      obtain ⟨id, pending, hint, ht, -, he, hall⟩ := hallowed
      cases r with
      | error e => exact ⟨h.begun, fun hc => nomatch (hended he).symm.trans hc⟩
      | ok u => exact ⟨h.begun, fun _ => ⟨id, pending, hint, ht, rfl, hall⟩⟩
  | txRollback tx =>
      obtain ⟨_, _, _, he⟩ := hallowed
      exact ⟨h.begun, fun hc => nomatch (hended he).symm.trans hc⟩
  | _ => exact h

theorem Local.Sound.transacted (h : Local.Sound req m) {o : TxsOp} (hallowed : txsAllowed req m o)
    (r : o.Ret) : Local.Sound req (m.transacted o r) := by
  cases o with
  | insert id pending =>
      obtain ⟨-, hid, token, g, -, -, rfl⟩ := hallowed
      refine ⟨?_, h.committed⟩
      intro pending hp
      obtain rfl := Option.some.inj hp
      exact hid
  | push id staged => cases r <;> exact ⟨h.begun, h.committed⟩
  | remove id =>
      cases r with
      | none => exact ⟨h.begun, h.committed⟩
      | some pending =>
          refine ⟨h.begun, ?_⟩
          intro hc
          obtain ⟨_, _, _, ht, _⟩ := h.committed hc
          cases hallowed.2.1.symm.trans ht

theorem Local.Sound.next (h : Local.Sound req m) {o : Op} (hallowed : allowed req m o)
    (r : o.Ret) : Local.Sound req (m.next o r) := by
  cases o with
  | guard o =>
      obtain ⟨validated, issued, revoked, he⟩ := Local.guarded_frame (m := m) o r
      show Local.Sound req (m.guarded o r)
      rw [he]
      exact ⟨h.begun, h.committed⟩
  | core o => exact h.stored hallowed.2 r
  | host o =>
      cases o with
      | newV4 => exact ⟨fun p hp => List.mem_cons_of_mem _ (h.begun p hp), h.committed⟩
      | _ => exact h
  | txs o => exact h.transacted hallowed.2 r
  | _ => exact h

/-! ## What one operation can do -/

inductive Move (req : Request) (w : World) (m : Local) : World → Local → Prop where
  | other {w' : World} {m' : Local} : w'.transactions = w.transactions →
      (∀ id ∈ w.used, id ∈ w'.used) → m'.minted = m.minted → m'.begun = m.begun →
      m'.staged = m.staged → m'.taken = m.taken → Move req w m w' m'
  | draw (id : Uuid) : id ∉ w.used →
      Move req w m { w with used := id :: w.used } { m with minted := id :: m.minted }
  /-- a transaction is begun under the session of the request's token -/
  | begin (id : Uuid) (token : String) (g : GuardSession) : req.intent = .begin → id ∈ m.minted →
      req.token = some token → (token, g) ∈ m.validated →
      Move req w m (w.setTransaction id (some ⟨id, g.toSession, []⟩))
        { m with begun := some ⟨id, g.toSession, []⟩ }
  | stage (id : Uuid) (staged : StagedMemory) (pending : PendingTransaction) :
      req.intent = .stage id staged → (req.isHttp = true → req.Authenticated m) →
      w.transactions id = some pending →
      Move req w m (w.setTransaction id (some (pending.push staged))) { m with staged := true }
  | take (id : Uuid) (pending : PendingTransaction) : req.intent.ends = some id →
      m.taken = none → (req.isHttp = true → req.Authenticated m) →
      w.transactions id = some pending →
      Move req w m (w.setTransaction id none) { m with taken := some pending }

theorem Move.same : Move req w m w m := .other rfl (fun _ h => h) rfl rfl rfl rfl

theorem txs_move {o : TxsOp} {r : o.Ret} (hallowed : txsAllowed req m o) (h : o.sem w r w') :
    Move req w m w' (m.transacted o r) := by
  have hmissed : Move req w m w { m with missed := true } :=
    .other rfl (fun _ h => h) rfl rfl rfl rfl
  cases o with
  | insert id pending =>
      obtain ⟨hint, hid, token, g, ht, hg, rfl⟩ := hallowed
      obtain rfl := h
      exact .begin id token g hint hid ht hg
  | push id staged =>
      obtain ⟨hr, rfl⟩ := h
      cases hp : w.transactions id with
      | none =>
          rw [hp] at hr
          obtain rfl : r = false := hr
          rw [Option.map_none, World.setTransaction_self hp]
          exact hmissed
      | some pending =>
          rw [hp] at hr
          obtain rfl : r = true := hr
          exact .stage id staged pending hallowed.1 hallowed.2 hp
  | remove id =>
      obtain ⟨hr, rfl⟩ := h
      cases hp : w.transactions id with
      | none =>
          rw [hp] at hr
          obtain rfl : r = none := hr
          rw [World.setTransaction_self hp]
          exact hmissed
      | some pending =>
          rw [hp] at hr
          obtain rfl : r = some pending := hr
          exact .take id pending hallowed.1 hallowed.2.1 hallowed.2.2 hp

theorem move_of_sem {o : Op} {r : o.Ret} (hallowed : allowed req m o) (h : Op.sem o w r w') :
    Move req w m w' (m.next o r) := by
  cases o with
  | guard o =>
      obtain ⟨validated, issued, revoked, he⟩ := Local.guarded_frame (m := m) o r
      show Move req w m w' (m.guarded o r)
      rw [he]
      obtain rfl | ⟨g, -, -, rfl⟩ | ⟨id, rfl⟩ := GuardOp.sem_cases h
      · exact .other rfl (fun _ hid => hid) rfl rfl rfl rfl
      · exact .other rfl (fun _ hid => List.mem_cons_of_mem _ hid) rfl rfl rfl rfl
      · exact .other rfl (fun _ hid => hid) rfl rfl rfl rfl
  | core o =>
      obtain ⟨handle, inserted, ended, committed, he⟩ := Local.stored_frame (m := m) o r
      show Move req w m w' (m.stored o r)
      rw [he]
      obtain ⟨rows, opened, handles, rfl⟩ := CoreOp.sem_frame h
      exact .other rfl (fun _ hid => hid) rfl rfl rfl rfl
  | vector o =>
      obtain rfl | ⟨d, -, rfl⟩ := VectorOp.sem_cases h
      · exact .same
      · exact .other rfl (fun _ hid => List.mem_cons_of_mem _ hid) rfl rfl rfl rfl
  | branch o => obtain ⟨rows, rfl⟩ := h; exact .other rfl (fun _ hid => hid) rfl rfl rfl rfl
  | sync o => obtain ⟨rows, rfl⟩ := h; exact .other rfl (fun _ hid => hid) rfl rfl rfl rfl
  | reflect o => obtain rfl := h; exact .same
  | host o =>
      cases o with
      | newV4 => obtain ⟨hid, rfl⟩ := h; exact .draw r hid
      | _ => obtain rfl := h; exact .same
  | txs o => exact txs_move hallowed.2 h

/-! ## The book -/

/-- The memories whose staging on `id` was acknowledged, in the order of the replies. -/
def acknowledged (ended : List (Ended Request Reply Local)) (id : Uuid) : List StagedMemory :=
  ended.filterMap fun e =>
    match e.req.intent, e.rep with
    | .stage id' staged, some rep => if id' = id ∧ rep.isSuccess = true then some staged else none
    | _, _ => none

/-- What a request took out of the map. -/
def taking (x : Request × Local) : Option (Uuid × List StagedMemory) :=
  match x.1.intent.ends, x.2.taken with
  | some id, some pending => some (id, pending.stagedMemories)
  | _, _ => none

theorem taking_some {x : Request × Local} {id : Uuid} {pending : PendingTransaction}
    (hends : x.1.intent.ends = some id) (ht : x.2.taken = some pending) :
    taking x = some (id, pending.stagedMemories) := by
  simp only [taking, hends, ht]

theorem taking_none {x : Request × Local} (h : x.2.taken = none) : taking x = none := by
  simp only [taking, h]
  cases x.1.intent.ends <;> rfl

/-- The map of pending transactions, with what the requests have seen of it. -/
def entries (w : World) (l : List (Request × Local)) (ended : List (Ended Request Reply Local)) :
    Entries Uuid StagedMemory :=
  ⟨w.staged, acknowledged ended, l.filterMap beginning, l.filterMap taking⟩

structure Book (w : World) (l : List (Request × Local)) (ended : List (Ended Request Reply Local)) :
    Prop where
  sound : ∀ x ∈ l, Local.Sound x.1 x.2
  drawn : Drawn w.used (l.map fun x => x.2.minted)
  entries : (entries w l ended).Inv

/-- What the request has staged on `id`. -/
def staging (req : Request) (m : Local) (id : Uuid) : Option StagedMemory :=
  match req.intent with
  | .stage id' staged => if id' = id ∧ m.staged = true then some staged else none
  | _ => none

theorem staging_none (h : m.staged = false) (id : Uuid) : staging req m id = none := by
  unfold staging
  split
  · rw [if_neg fun hs => Bool.false_ne_true (h.symm.trans hs.2)]
  · rfl

/-- A staged memory is acknowledged at once, and nothing else is. -/
theorem acknowledged_record {f : Option Reply} (hf : Board.Fate monitor req m f)
    (ended : List (Ended Request Reply Local)) (id : Uuid) :
    acknowledged (Board.record ended req m f) id =
      acknowledged ended id ++ (staging req m id).toList := by
  cases f with
  | none =>
      obtain ⟨o, ho⟩ := hf
      rw [staging_none (Local.of_running (running_of_allowed ho)).2]
      exact (List.append_nil _).symm
  | some reply =>
      simp only [Board.record, acknowledged, List.filterMap_append, List.filterMap_cons,
        List.filterMap_nil]
      refine congrArg _ ?_
      unfold staging
      cases hint : req.intent with
      | stage id' staged =>
          have hsaid : reply.isSuccess = true ↔ m.staged = true := (answered_stage hint).mp hf
          by_cases hc : id' = id ∧ m.staged = true
          · simp [hc, hsaid.mpr hc.2]
          · simp [hc, hsaid]
      | _ => rfl

theorem acknowledged_quiet {f : Option Reply} (hf : Board.Fate monitor req m f)
    (hs : m.staged = false) (ended : List (Ended Request Reply Local)) :
    acknowledged (Board.record ended req m f) = acknowledged ended := by
  funext id
  rw [acknowledged_record hf, staging_none hs]
  exact List.append_nil _

theorem acknowledged_drop (ended : List (Ended Request Reply Local)) :
    acknowledged (ended ++ [⟨req, m, none⟩]) = acknowledged ended := by
  funext id
  simp only [acknowledged, List.filterMap_append, List.filterMap_cons, List.filterMap_nil]
  cases req.intent <;> exact List.append_nil _

/-! ### One operation -/

variable {l : List (Request × Local)} {ended : List (Ended Request Reply Local)} {f : Option Reply}

theorem drawn_move (h : Drawn w.used (m.minted :: l.map fun x => x.2.minted))
    (hm : Move req w m w' m') : Drawn w'.used (m'.minted :: l.map fun x => x.2.minted) := by
  cases hm with
  | other _ hused hminted => rw [hminted]; exact h.grow hused
  | draw id hid => exact h.draw hid
  | begin => exact h
  | stage => exact h
  | take => exact h

/-- An id a request drew was begun by no other. -/
theorem not_begun (h : Book w ((req, m) :: l) ended) {id : Uuid} (hid : id ∈ m.minted) :
    id ∉ l.filterMap beginning := by
  intro hm
  obtain ⟨x, hx, hb⟩ := List.mem_filterMap.mp hm
  obtain ⟨pending, hp, rfl⟩ := Option.map_eq_some_iff.mp hb
  have hdrew := (h.sound x (List.mem_cons_of_mem _ hx)).begun pending hp
  have hdisjoint : List.Disjoint m.minted x.2.minted :=
    (List.pairwise_cons.mp h.drawn.disjoint).1 _ (List.mem_map_of_mem hx)
  exact hdisjoint hid hdrew

/-- A request that has not begun a transaction yet finds none under its own ids. -/
theorem none_of_minted (h : Book w ((req, m) :: l) ended) (hrunning : m.finished = false)
    {id : Uuid} (hid : id ∈ m.minted) : w.transactions id = none := by
  have hnone : beginning (req, m) = none := beginning_none (Local.of_running hrunning).1
  have hunseen : id ∉ ((req, m) :: l).filterMap beginning := by
    rw [List.filterMap_cons_none hnone]
    exact not_begun h hid
  exact Option.map_eq_none_iff.mp (h.entries.unseen id hunseen).1

theorem entries_move (hrunning : m.finished = false) (hm : Move req w m w' m')
    (hf : Board.Fate monitor req m' f) (h : Book w ((req, m) :: l) ended) :
    (entries w' ((req, m') :: l) (Board.record ended req m' f)).Inv := by
  obtain ⟨hbegun, hstaged⟩ := Local.of_running hrunning
  have hentries := h.entries
  unfold entries at hentries ⊢
  cases hm with
  | other htxs _ _ hb hs ht =>
      have hmap : w'.staged = w.staged := staged_congr htxs
      have hbeginning : beginning (req, m') = beginning (req, m) := by
        simp only [beginning, hb]
      have htaking : taking (req, m') = taking (req, m) := by
        simp only [taking, ht]
      rw [acknowledged_quiet hf (hs.trans hstaged), hmap, List.filterMap_cons, hbeginning,
        ← List.filterMap_cons, List.filterMap_cons (f := taking), htaking, ← List.filterMap_cons]
      exact hentries
  | draw id => rw [acknowledged_quiet hf hstaged]; exact hentries
  | begin id token g hint hid =>
      have hnone : beginning (req, m) = none := beginning_none hbegun
      rw [List.filterMap_cons_none hnone] at hentries
      rw [acknowledged_quiet hf hstaged, staged_setTransaction, Option.map_some]
      exact hentries.begin (not_begun h hid)
  | stage id staged pending hint _ hp =>
      have hacks : acknowledged (Board.record ended req { m with staged := true } f) =
          Function.update (acknowledged ended) id (acknowledged ended id ++ [staged]) := by
        funext id'
        simp only [acknowledged_record hf, staging, hint]
        by_cases hid : id = id'
        · subst hid
          simp
        · simp [hid, Function.update_of_ne (Ne.symm hid)]
      rw [hacks, staged_setTransaction]
      exact hentries.add (staged_eq hp) staged
  | take id pending hends hnone _ hp =>
      have htaken : taking (req, m) = none := taking_none hnone
      have hsome : taking (req, { m with taken := some pending }) =
          some (id, pending.stagedMemories) := taking_some hends rfl
      rw [List.filterMap_cons_none htaken] at hentries
      rw [acknowledged_quiet hf hstaged, staged_setTransaction, List.filterMap_cons_some hsome]
      exact hentries.take (staged_eq hp)

/-! ### Every run -/

theorem Book.perm {l' : List (Request × Local)} (h : Book w l ended) (hp : l.Perm l') :
    Book w l' ended :=
  ⟨fun x hx => h.sound x (hp.mem_iff.mpr hx), h.drawn.perm (hp.map _),
    h.entries.perm (hp.filterMap _) (hp.filterMap _)⟩

theorem Book.arrive (hf : Board.Fate monitor req .init f) (h : Book w l ended) :
    Book w ((req, .init) :: l) (Board.record ended req .init f) := by
  refine ⟨?_, h.drawn.arrive, ?_⟩
  · intro x hx
    rcases List.mem_cons.mp hx with rfl | hx
    · exact .init
    · exact h.sound x hx
  · have htaking : taking (req, .init) = none := taking_none rfl
    have hentries := h.entries
    unfold ClawDB.entries at hentries ⊢
    rw [acknowledged_quiet hf rfl, List.filterMap_cons_none htaking,
      List.filterMap_cons_none rfl]
    exact hentries

theorem Book.run {o : Op} {r : o.Ret} (hallowed : allowed req m o) (hr : Op.sem o w r w')
    (hf : Board.Fate monitor req (m.next o r) f) (h : Book w ((req, m) :: l) ended) :
    Book w' ((req, m.next o r) :: l) (Board.record ended req (m.next o r) f) := by
  have hm : Move req w m w' (m.next o r) := move_of_sem hallowed hr
  refine ⟨?_, drawn_move h.drawn hm, entries_move (running_of_allowed hallowed) hm hf h⟩
  intro x hx
  rcases List.mem_cons.mp hx with rfl | hx
  · exact (h.sound _ List.mem_cons_self).next hallowed r
  · exact h.sound x (List.mem_cons_of_mem _ hx)

variable (db : ClawDBEngine) {accepts : Request → Prop} {init : World → Prop}

theorem book (hinit : ∀ w, init w → w.transactions = fun _ => none) {b : Desk}
    (h : Board.Reachable (server db accepts) monitor init b) : Book b.world b.all b.ended := by
  refine (h.rule ?_ ?_ ?_ ?_ ?_).2
  · intro w l l' ended hperm hb
    exact hb.perm hperm
  · intro w hw
    refine ⟨fun x hx => (nomatch hx), .nil, ?_⟩
    have hnone : w.staged = fun _ => none := by
      funext id
      simp only [World.staged, hinit w hw, Option.map_none]
    show (⟨w.staged, fun _ => [], [], []⟩ : Entries Uuid StagedMemory).Inv
    rw [hnone]
    exact Entries.inv_empty
  · intro w l ended req f _ hf hb
    exact hb.arrive hf
  · intro w w' l ended req m o r f _ hallowed hr hf hb
    exact hb.run hallowed hr hf
  · intro w l ended req m hb
    refine ⟨hb.sound, hb.drawn, ?_⟩
    have hentries := hb.entries
    unfold entries at hentries ⊢
    rw [acknowledged_drop]
    exact hentries

end Pending

end ClawDB
