/-
# `ClawDB.Access` — who may change a pending transaction, who is given a session

Any requests run at once, on both front ends.  `Grant` is what one operation of a
request can do to the guard's sessions and to what the request was told of them.  The
register kept of a server traces every session in the guard's table to the request it
was issued to, every revoked id to the request that named it, and every pending
transaction to the session it was begun under.

With `Move` that says which requests change a pending transaction, and with which
tokens; and what a party can be given that makes its requests with the scopes it holds.
-/
import ClawDB.Pending
import ClawDB.Memories

namespace ClawDB

open Effect Escrow

/-- The request carries the token of a session in the guard's table. -/
def Request.Holds (req : Request) (w : World) : Prop :=
  ∃ token, req.token = some token ∧ ∃ g ∈ w.sessions, g.token = token

/-- A later memory of a request. -/
structure Local.Within (m m' : Local) : Prop where
  validated : ∀ v ∈ m.validated, v ∈ m'.validated
  issued : ∀ g ∈ m.issued, g ∈ m'.issued
  revoked : ∀ id ∈ m.revoked, id ∈ m'.revoked

theorem Local.Within.refl {m : Local} : m.Within m :=
  ⟨fun _ h => h, fun _ h => h, fun _ h => h⟩

theorem Request.Authenticated.mono {req : Request} {m m' : Local} (h : req.Authenticated m)
    (hm : ∀ v ∈ m.validated, v ∈ m'.validated) : req.Authenticated m' := by
  obtain ⟨token, g, ht, hg⟩ := h
  exact ⟨token, g, ht, hm _ hg⟩

section Access

variable [Crates] {req : Request} {w w' : World} {m m' : Local}

/-! ## What one operation can do to the sessions -/

inductive Grant (req : Request) (w : World) (m : Local) : World → Local → Prop where
  | other {w' : World} {m' : Local} : w'.sessions = w.sessions → w'.revoked = w.revoked →
      m'.validated = m.validated → m'.issued = m.issued → m'.revoked = m.revoked →
      Grant req w m w' m'
  | validate (g : GuardSession) : g ∈ w.sessions →
      Grant req w m w { m with validated := (g.token, g) :: m.validated }
  | issue (g : GuardSession) : req.intent = .createSession g.agentId g.role g.scopes →
      (req.isHttp = false → req.Authenticated m) →
      Grant req w m { w with sessions := w.sessions ++ [g], used := g.id :: w.used }
        { m with issued := g :: m.issued }
  | revoke (id : Uuid) : req.intent = .revokeSession id → req.Authenticated m →
      Grant req w m { w with revoked := id :: w.revoked } { m with revoked := id :: m.revoked }

theorem Grant.same : Grant req w m w m := .other rfl rfl rfl rfl rfl

theorem guard_grant {o : GuardOp} {r : o.Ret} (hallowed : guardAllowed req m o)
    (h : o.sem w r w') : Grant req w m w' (m.guarded o r) := by
  cases o with
  | validateSession token =>
      cases r with
      | error e => obtain rfl := h; exact .same
      | ok g => obtain ⟨rfl, hg, rfl, -⟩ := h; exact .validate g hg
  | createSession agentId workspaceId role scopes ttlSecs =>
      cases r with
      | error e => obtain rfl := h; exact .same
      | ok g =>
          obtain ⟨rfl, -, rfl, rfl, -, -, rfl⟩ := h
          exact .issue g hallowed.1 hallowed.2.2
  | revokeSession id =>
      cases r with
      | error e => obtain rfl := h; exact .same
      | ok u => obtain rfl := h; exact .revoke id hallowed.1 hallowed.2
  | countSessions => obtain rfl | ⟨_, -, rfl⟩ := fallible_cases h <;> exact .same

theorem txs_grant {o : TxsOp} {r : o.Ret} (h : o.sem w r w') :
    Grant req w m w' (m.transacted o r) := by
  obtain ⟨transactions, rfl⟩ := TxsOp.sem_frame h
  cases o with
  | insert id pending => exact .other rfl rfl rfl rfl rfl
  | push id staged => cases r <;> exact .other rfl rfl rfl rfl rfl
  | remove id => cases r <;> exact .other rfl rfl rfl rfl rfl

theorem grant_of_sem {o : Op} {r : o.Ret} (hallowed : allowed req m o) (h : Op.sem o w r w') :
    Grant req w m w' (m.next o r) := by
  cases o with
  | guard o => exact guard_grant hallowed.2 h
  | core o =>
      obtain ⟨handle, inserted, ended, committed, he⟩ := Local.stored_frame (m := m) o r
      show Grant req w m w' (m.stored o r)
      rw [he]
      obtain ⟨rows, opened, handles, rfl⟩ := CoreOp.sem_frame h
      exact .other rfl rfl rfl rfl rfl
  | vector o =>
      obtain rfl | ⟨d, -, rfl⟩ := VectorOp.sem_cases h
      · exact .same
      · exact .other rfl rfl rfl rfl rfl
  | branch o => obtain ⟨rows, rfl⟩ := h; exact .other rfl rfl rfl rfl rfl
  | sync o => obtain ⟨rows, rfl⟩ := h; exact .other rfl rfl rfl rfl rfl
  | reflect o => obtain rfl := h; exact .same
  | host o =>
      cases o with
      | newV4 => obtain ⟨-, rfl⟩ := h; exact .other rfl rfl rfl rfl rfl
      | _ => obtain rfl := h; exact .same
  | txs o => exact txs_grant h

/-! ## The register -/

/-- What a request was told is so, and it did what it asked for. -/
structure Told (w : World) (req : Request) (m : Local) : Prop where
  validated : ∀ token g, (token, g) ∈ m.validated → g ∈ w.sessions ∧ g.token = token
  issued : ∀ g ∈ m.issued, req.intent = .createSession g.agentId g.role g.scopes ∧
    (req.isHttp = false → req.Authenticated m)
  revoked : ∀ id ∈ m.revoked, req.intent = .revokeSession id ∧ req.Authenticated m

/-- Sessions, revocations and pending transactions all come from requests. -/
structure Traced (old w : World) (l : List (Request × Local)) : Prop where
  sessions : ∀ g ∈ w.sessions, g ∈ old.sessions ∨ ∃ x ∈ l, g ∈ x.2.issued
  revoked : ∀ id ∈ w.revoked, id ∈ old.revoked ∨ ∃ x ∈ l, id ∈ x.2.revoked
  pending : ∀ id p, w.transactions id = some p → ∃ x ∈ l, x.1.intent = .begin ∧
    ∃ token g, x.1.token = some token ∧ (token, g) ∈ x.2.validated ∧ p.session = g.toSession

structure Register (old w : World) (l : List (Request × Local)) : Prop where
  told : ∀ x ∈ l, Told w x.1 x.2
  traced : Traced old w l

theorem Told.init : Told w req .init where
  validated := by intro token g h; cases h
  issued := by intro g h; cases h
  revoked := by intro id h; cases h

/-- What others do takes nothing back. -/
theorem Told.mono (h : Told w req m) (hw : ∀ g ∈ w.sessions, g ∈ w'.sessions) : Told w' req m where
  validated := by
    intro token g hg
    obtain ⟨hm, ht⟩ := h.validated token g hg
    exact ⟨hw g hm, ht⟩
  issued := h.issued
  revoked := h.revoked

/-- A request with an accepted token holds a session of the guard's. -/
theorem Told.authenticated (h : Told w req m) (ha : req.Authenticated m) :
    ∃ token, req.token = some token ∧
      ∃ g ∈ w.sessions, g.token = token ∧ (token, g) ∈ m.validated := by
  obtain ⟨token, g, ht, hv⟩ := ha
  obtain ⟨hg, hgt⟩ := h.validated token g hv
  exact ⟨token, ht, g, hg, hgt, hv⟩

theorem Grant.sessions (h : Grant req w m w' m') : ∀ g ∈ w.sessions, g ∈ w'.sessions := by
  intro g hg
  cases h with
  | other he => exact he ▸ hg
  | validate => exact hg
  | issue => exact List.mem_append_left _ hg
  | revoke => exact hg

theorem Grant.remembers (h : Grant req w m w' m') : m.Within m' := by
  cases h with
  | other _ _ hv hi hr => exact ⟨fun _ h => hv ▸ h, fun _ h => hi ▸ h, fun _ h => hr ▸ h⟩
  | validate => exact ⟨fun _ h => List.mem_cons_of_mem _ h, fun _ h => h, fun _ h => h⟩
  | issue => exact ⟨fun _ h => h, fun _ h => List.mem_cons_of_mem _ h, fun _ h => h⟩
  | revoke => exact ⟨fun _ h => h, fun _ h => h, fun _ h => List.mem_cons_of_mem _ h⟩

theorem Told.grant (h : Told w req m) (hg : Grant req w m w' m') : Told w' req m' := by
  have hold := h.mono hg.sessions
  cases hg with
  | other _ _ hv hi hr =>
      refine ⟨by rw [hv]; exact hold.validated, ?_, ?_⟩
      · rw [hi]
        intro g hg
        exact ⟨(h.issued g hg).1, fun hh => ((h.issued g hg).2 hh).mono fun _ hm => hv ▸ hm⟩
      · rw [hr]
        intro id hid
        exact ⟨(h.revoked id hid).1, (h.revoked id hid).2.mono fun _ hm => hv ▸ hm⟩
  | validate g hg =>
      refine ⟨?_, ?_, ?_⟩
      · intro token g' hg'
        rcases List.mem_cons.mp hg' with he | hg'
        · cases he
          exact ⟨hg, rfl⟩
        · exact h.validated token g' hg'
      · intro g' hg'
        obtain ⟨hint, hauth⟩ := h.issued g' hg'
        exact ⟨hint, fun hh => (hauth hh).mono fun _ hm => List.mem_cons_of_mem _ hm⟩
      · intro id hid
        obtain ⟨hint, hauth⟩ := h.revoked id hid
        exact ⟨hint, hauth.mono fun _ hm => List.mem_cons_of_mem _ hm⟩
  | issue g hint hauth =>
      refine ⟨hold.validated, ?_, h.revoked⟩
      intro g' hg'
      rcases List.mem_cons.mp hg' with rfl | hg'
      · exact ⟨hint, hauth⟩
      · exact h.issued g' hg'
  | revoke id hint hauth =>
      refine ⟨hold.validated, h.issued, ?_⟩
      intro id' hid'
      rcases List.mem_cons.mp hid' with rfl | hid'
      · exact ⟨hint, hauth⟩
      · exact h.revoked id' hid'

variable {old : World} {l l' : List (Request × Local)}

theorem Traced.init (h : w.transactions = fun _ => none) : Traced w w [] where
  sessions := fun _ hg => .inl hg
  revoked := fun _ hid => .inl hid
  pending := by
    intro id p hp
    rw [h] at hp
    cases hp

/-- Requests stay, and remember what they did. -/
theorem Traced.mono (h : Traced old w l)
    (hl : ∀ x ∈ l, ∃ m, (x.1, m) ∈ l' ∧ x.2.Within m) : Traced old w l' where
  sessions := by
    intro g hg
    obtain hold | ⟨x, hx, hi⟩ := h.sessions g hg
    · exact .inl hold
    · obtain ⟨m, hm, -, hin, -⟩ := hl x hx
      exact .inr ⟨_, hm, hin g hi⟩
  revoked := by
    intro id hid
    obtain hold | ⟨x, hx, hr⟩ := h.revoked id hid
    · exact .inl hold
    · obtain ⟨m, hm, -, -, hin⟩ := hl x hx
      exact .inr ⟨_, hm, hin id hr⟩
  pending := by
    intro id p hp
    obtain ⟨x, hx, hint, token, g, ht, hv, hs⟩ := h.pending id p hp
    obtain ⟨m, hm, hin, -⟩ := hl x hx
    exact ⟨_, hm, hint, token, g, ht, hin _ hv, hs⟩

/-- What one operation adds is traced to its request. -/
theorem Traced.step (h : Traced old w ((req, m') :: l)) (hg : Grant req w m w' m')
    (hm : Move req w m w' m') : Traced old w' ((req, m') :: l) where
  sessions := by
    intro g hmem
    cases hg with
    | other he => exact h.sessions g (he ▸ hmem)
    | validate => exact h.sessions g hmem
    | issue g' =>
        rcases List.mem_append.mp hmem with hmem | hmem
        · exact h.sessions g hmem
        · obtain rfl := List.mem_singleton.mp hmem
          exact .inr ⟨_, List.mem_cons_self, List.mem_cons_self⟩
    | revoke => exact h.sessions g hmem
  revoked := by
    intro id hmem
    cases hg with
    | other _ he => exact h.revoked id (he ▸ hmem)
    | validate => exact h.revoked id hmem
    | issue => exact h.revoked id hmem
    | revoke id' =>
        rcases List.mem_cons.mp hmem with rfl | hmem
        · exact .inr ⟨_, List.mem_cons_self, List.mem_cons_self⟩
        · exact h.revoked id hmem
  pending := by
    intro id p hp
    cases hm with
    | other he => exact h.pending id p (he ▸ hp)
    | draw => exact h.pending id p hp
    | begin id' token g hint _ ht hv =>
        obtain ⟨-, hnew⟩ | hold := World.setTransaction_cases hp
        · cases hnew
          exact ⟨_, List.mem_cons_self, hint, token, g, ht, hv, rfl⟩
        · exact h.pending id p hold
    | stage id' staged pending _ _ hpending =>
        obtain ⟨rfl, hnew⟩ | hold := World.setTransaction_cases hp
        · cases hnew
          exact h.pending id pending hpending
        · exact h.pending id p hold
    | take id' pending =>
        obtain ⟨-, hnew⟩ | hold := World.setTransaction_cases hp
        · cases hnew
        · exact h.pending id p hold

variable (db : ClawDBEngine) {accepts : Request → Prop} {init : World → Prop}

theorem register {w₀ : World} (hw₀ : w₀.transactions = fun _ => none) {b : Desk}
    (h : Board.Reachable (server db accepts) monitor (· = w₀) b) :
    Register w₀ b.world b.all := by
  refine (h.rule (I := fun w l _ => Register w₀ w l) ?_ ?_ ?_ ?_ ?_).2
  · intro w l l' ended hperm hr
    refine ⟨fun x hx => hr.told x (hperm.mem_iff.mpr hx), hr.traced.mono fun x hx => ?_⟩
    exact ⟨x.2, hperm.mem_iff.mp hx, .refl⟩
  · rintro w rfl
    exact ⟨fun x hx => (nomatch hx), .init hw₀⟩
  · intro w l ended req f _ _ hr
    refine ⟨?_, hr.traced.mono fun x hx => ⟨x.2, List.mem_cons_of_mem _ hx, .refl⟩⟩
    intro x hx
    rcases List.mem_cons.mp hx with rfl | hx
    · exact .init
    · exact hr.told x hx
  · intro w w' l ended req m o r f _ hallowed hsem _ hr
    have hg : Grant req w m w' (m.next o r) := grant_of_sem hallowed hsem
    refine ⟨?_, .step (hr.traced.mono ?_) hg (move_of_sem hallowed hsem)⟩
    · intro x hx
      rcases List.mem_cons.mp hx with rfl | hx
      · exact (hr.told _ List.mem_cons_self).grant hg
      · exact (hr.told x (List.mem_cons_of_mem _ hx)).mono hg.sessions
    · intro x hx
      rcases List.mem_cons.mp hx with rfl | hx
      · exact ⟨_, List.mem_cons_self, hg.remembers⟩
      · exact ⟨x.2, List.mem_cons_of_mem _ hx, .refl⟩
  · intro w l ended req m hr
    exact hr

/-! ## Who may change a pending transaction -/

/-- A pending transaction belongs to the session whose token began it.  A step of the
server leaves it as it is, or is the operation of a request that names it: one that adds
to it, or one that ends it.  Over HTTP such a request carries a token the guard
accepted. -/
theorem pending_changed_by {w₀ : World} (hw₀ : w₀.transactions = fun _ => none)
    {c c' : Pool Sig World Request Reply Local}
    (h : Pool.Reachable (server db accepts) monitor (· = w₀) c)
    (hs : Pool.Step (server db accepts) monitor c c') {id : Uuid} {pending : PendingTransaction}
    (hp : c.world.transactions id = some pending) :
    (∃ x ∈ c.board.all, x.1.intent = .begin ∧ ∃ token, x.1.token = some token ∧
      ∃ g ∈ c.world.sessions, g.token = token ∧ pending.session = g.toSession) ∧
    (c'.world.transactions id = some pending ∨
      ∃ th ∈ c.running, Pool.Thread.Performs (server db accepts) th c.world c'.world ∧
        ((∃ staged, th.req.intent = .stage id staged ∧
            c'.world.transactions id = some (pending.push staged)) ∨
          th.req.intent.ends = some id ∧ c'.world.transactions id = none) ∧
        (th.req.isHttp = true → ∃ token, th.req.token = some token ∧
          ∃ g ∈ c.world.sessions, g.token = token ∧ (token, g) ∈ th.mem.validated)) := by
  have hconforms := server_conforms db accepts
  have hreach := Pool.reachable_board hconforms h
  have hregister : Register w₀ c.world c.board.all := register db hw₀ hreach
  refine ⟨?_, ?_⟩
  · obtain ⟨x, hx, hint, token, g, ht, hv, hsession⟩ := hregister.traced.pending id pending hp
    obtain ⟨hg, hgt⟩ := (hregister.told x hx).validated token g hv
    exact ⟨x, hx, hint, token, ht, g, hg, hgt, hsession⟩
  rcases Pool.step_op hconforms h hs with hsame | ⟨th, hth, o, k, r, hprog, hallowed, hsem⟩
  · rw [hsame]; exact .inl hp
  have hperforms : Pool.Thread.Performs (server db accepts) th c.world c'.world :=
    ⟨o, k, r, hprog, hsem⟩
  have hx : (th.req, th.mem) ∈ c.board.all :=
    List.mem_append_left _ (List.mem_map_of_mem (f := fun th => (th.req, th.mem)) hth)
  have htold : Told c.world th.req th.mem := hregister.told _ hx
  have hmove : Move th.req c.world th.mem c'.world (th.mem.next o r) := move_of_sem hallowed hsem
  generalize c'.world = w', th.mem.next o r = m' at hmove hperforms
  cases hmove with
  | other he => rw [he]; exact .inl hp
  | draw => exact .inl hp
  | begin id' token g _ hid =>
      obtain ⟨l, hperm⟩ := Board.exists_perm_cons hx
      have hb := (book db (by rintro w rfl; exact hw₀) hreach).perm hperm
      have hfree : c.world.transactions id' = none :=
        none_of_minted hb (running_of_allowed hallowed) hid
      have hne : id ≠ id' := by
        rintro rfl
        cases hp.symm.trans hfree
      rw [World.setTransaction_ne _ hne]
      exact .inl hp
  | stage id' staged pending' hint ha hp' =>
      by_cases hid : id = id'
      · subst hid
        obtain rfl := Option.some.inj (hp.symm.trans hp')
        exact .inr ⟨th, hth, hperforms, .inl ⟨staged, hint, World.setTransaction_same ..⟩,
          fun hhttp => htold.authenticated (ha hhttp)⟩
      · rw [World.setTransaction_ne _ hid]
        exact .inl hp
  | take id' pending' hends _ ha hp' =>
      by_cases hid : id = id'
      · subst hid
        exact .inr ⟨th, hth, hperforms, .inr ⟨hends, World.setTransaction_same ..⟩,
          fun hhttp => htold.authenticated (ha hhttp)⟩
      · rw [World.setTransaction_ne _ hid]
        exact .inl hp

/-! ## Who is given a session -/

/-- Every session in the guard's table was there at the start or was issued to a request
that asked for it, with the scopes it asked for; over gRPC the request held a session
already.  Every revoked id was named by a request that held a session.  So a party that
asks for no scopes beyond those it holds is given none, and may do no more than
before. -/
theorem sessions_accounted {w₀ : World} (hw₀ : w₀.transactions = fun _ => none)
    {c : Pool Sig World Request Reply Local}
    (h : Pool.Reachable (server db accepts) monitor (· = w₀) c) :
    (∀ g ∈ c.world.sessions, g ∈ w₀.sessions ∨ ∃ x ∈ c.board.all, g ∈ x.2.issued) ∧
    (∀ id ∈ c.world.revoked, id ∈ w₀.revoked ∨ ∃ x ∈ c.board.all, id ∈ x.2.revoked) ∧
    (∀ x ∈ c.board.all, ∀ g ∈ x.2.issued,
      x.1.intent = .createSession g.agentId g.role g.scopes ∧
        (x.1.isHttp = false → x.1.Holds c.world)) ∧
    (∀ x ∈ c.board.all, ∀ id ∈ x.2.revoked,
      x.1.intent = .revokeSession id ∧ x.1.Holds c.world) ∧
    (∀ e ∈ c.ended, ∀ agentId role scopes, e.req.intent = .createSession agentId role scopes →
      ∀ rep, e.rep = some rep → rep.isSuccess = true →
        ∃ g ∈ e.mem.issued, rep.Grants g.toSession) ∧
    ∀ (party : Request → Prop) (held : List String),
      (∀ x ∈ c.board.all, party x.1 → ∀ agentId role scopes,
        x.1.intent = .createSession agentId role scopes → Covered held scopes) →
      ∀ x ∈ c.board.all, party x.1 → ∀ g ∈ x.2.issued, Covered held g.scopes ∧
        ∀ accepted, ClawDBEngine.permits g.scopes accepted = true →
          ClawDBEngine.permits held accepted = true := by
  have hreach := Pool.reachable_board (server_conforms db accepts) h
  have hregister : Register w₀ c.world c.board.all := register db hw₀ hreach
  have hholds : ∀ x ∈ c.board.all, x.1.Authenticated x.2 → x.1.Holds c.world := by
    intro x hx ha
    obtain ⟨token, ht, g, hg, hgt, -⟩ := (hregister.told x hx).authenticated ha
    exact ⟨token, ht, g, hg, hgt⟩
  refine ⟨hregister.traced.sessions, hregister.traced.revoked, ?_, ?_, ?_, ?_⟩
  · intro x hx g hg
    obtain ⟨hint, ha⟩ := (hregister.told x hx).issued g hg
    exact ⟨hint, fun hh => hholds x hx (ha hh)⟩
  · intro x hx id hid
    obtain ⟨hint, ha⟩ := (hregister.told x hx).revoked id hid
    exact ⟨hint, hholds x hx ha⟩
  · intro e he agentId role scopes hint rep hrep hsuccess
    have hsaid : answered e.req e.mem rep := hreach.replied e he rep hrep
    obtain ⟨g, hg, hgrants⟩ := (answered_createSession hint).mp hsaid hsuccess
    have hmem : g ∈ e.mem.issued := hg ▸ List.mem_cons_self
    have hx : (e.req, e.mem) ∈ c.board.all := Board.mem_all_of_ended he
    have hasked := ((hregister.told _ hx).issued g hmem).1
    obtain ⟨-, -, rfl⟩ := Intent.createSession.inj (hint.symm.trans hasked)
    exact ⟨g, hmem, hgrants⟩
  · intro party held hparty x hx hpx g hg
    have hasked := ((hregister.told x hx).issued g hg).1
    have hcovered : Covered held g.scopes := hparty x hx hpx _ _ _ hasked
    exact ⟨hcovered, fun accepted hp => hcovered.permits hp⟩

end Access

/-! ## Two runs

A guest, with a session of its own and another's transaction; and a stranger without
any session. -/

section Witnesses

attribute [local instance] Crates.sample

/-- The owner's world, with a guest who may read. -/
def sharedWorld : World :=
  { ownerWorld with
    sessions := ownerWorld.sessions ++ [⟨4, 5, 3, "guest", ["memory:read"], "u", 0⟩]
    used := [4, 1] }

/-- The owner has begun a transaction, and the guest is about to add to it. -/
def sharedPool : Pool Sig World Request Reply Local :=
  Pool.acts (server vectorDb fun _ => True) monitor Op.reference ⟨sharedWorld, [], []⟩
    (Pool.oneByOne 12 [.grpc ⟨"r", some "t", .beginTx⟩] ++
      [.arrive (.http ⟨"r", some "Bearer u", .protected (.txRemember (.ok 5) (.ok ⟨"x"⟩))⟩),
        .run 0, .run 0])

def changedPool : Pool Sig World Request Reply Local :=
  Pool.act (server vectorDb fun _ => True) monitor Op.reference sharedPool (.run 0)

theorem sharedPool_reachable :
    Pool.Reachable (server vectorDb fun _ => True) monitor (· = sharedWorld) sharedPool :=
  Pool.acts_reachable Op.reference_refines _ (fun _ _ => trivial) (.init rfl)

theorem sharedPool_pending :
    sharedPool.world.transactions 5 = some ⟨5, ownerSession, []⟩ ∧
    changedPool.world.transactions 5 =
      some ⟨5, ownerSession, [⟨"x", "semantic", [], .null⟩]⟩ ∧
    ∀ th ∈ sharedPool.running, th.req.isHttp = true ∧ th.req.token = some "u" := by
  decide +kernel

theorem changedPool_step :
    Pool.Step (server vectorDb fun _ => True) monitor sharedPool changedPool := by
  obtain ⟨hbefore, hafter, -⟩ := sharedPool_pending
  have hact : changedPool = sharedPool ∨
      Pool.Step (server vectorDb fun _ => True) monitor sharedPool changedPool :=
    Pool.act_step Op.reference_refines sharedPool (.run 0) fun _ _ => trivial
  rcases hact with hsame | hs
  · rw [hsame, hbefore] at hafter
    cases hafter
  · exact hs

/-- The change is traced to the guest's request and to the guest's session. -/
theorem pending_changed_by_guest :
    ∃ th ∈ sharedPool.running, (∃ staged, th.req.intent = .stage 5 staged) ∧
      ∃ token, th.req.token = some token ∧ ∃ g ∈ sharedPool.world.sessions, g.token = token := by
  obtain ⟨hbefore, hafter, hguest⟩ := sharedPool_pending
  obtain ⟨-, hchanged⟩ :=
    pending_changed_by vectorDb rfl sharedPool_reachable changedPool_step hbefore
  rcases hchanged with hsame | ⟨th, hth, -, hnamed, hauth⟩
  · cases hafter.symm.trans hsame
  · obtain ⟨token, ht, g, hg, hgt, -⟩ := hauth (hguest th hth).1
    rcases hnamed with ⟨staged, hint, -⟩ | ⟨-, hnone⟩
    · exact ⟨th, hth, ⟨staged, hint⟩, token, ht, g, hg, hgt⟩
    · cases hafter.symm.trans hnone

/-- The guest's token is not the owner's. -/
theorem guest_changes_pending :
    ¬ ∀ c c', Pool.Reachable (server vectorDb fun _ => True) monitor (· = sharedWorld) c →
      Pool.Step (server vectorDb fun _ => True) monitor c c' →
      ∀ id pending, c.world.transactions id = some pending →
        c'.world.transactions id ≠ some pending →
        ∃ th ∈ c.running,
          Pool.Thread.Performs (server vectorDb fun _ => True) th c.world c'.world ∧
          th.req.token = some pending.session.token := by
  intro hclaim
  obtain ⟨hbefore, hafter, hguest⟩ := sharedPool_pending
  have hchanged : changedPool.world.transactions 5 ≠ some ⟨5, ownerSession, []⟩ := by
    intro hsame
    cases hafter.symm.trans hsame
  obtain ⟨th, hth, -, ht⟩ := hclaim sharedPool changedPool sharedPool_reachable changedPool_step
    5 _ hbefore hchanged
  have htokens : "u" = "t" := Option.some.inj ((hguest th hth).2.symm.trans ht)
  exact absurd htokens (by decide)

/-- A stranger has asked for a session that may do everything. -/
def strangerPool : Pool Sig World Request Reply Local :=
  Pool.acts (server vectorDb fun _ => True) monitor Op.reference ⟨World.empty, [], []⟩
    (Pool.oneByOne 12
      [.http ⟨"r", none, .createSession (.ok ⟨2, "admin", ["*"], none⟩)⟩])

theorem strangerPool_reachable :
    Pool.Reachable (server vectorDb fun _ => True) monitor (· = World.empty) strangerPool :=
  Pool.acts_reachable Op.reference_refines _ (fun _ _ => trivial) (.init rfl)

theorem strangerPool_issued :
    strangerPool.world.sessions.length = 1 ∧
    (∀ x ∈ strangerPool.board.all, x.1.token = none) ∧
    ∃ x ∈ strangerPool.board.all, ∃ g ∈ x.2.issued, g.scopes = ["*"] := by
  decide +kernel

/-- The stranger's session is the one session there is. -/
theorem sessions_accounted_stranger :
    strangerPool.world.sessions.length = 1 ∧
    ∀ g ∈ strangerPool.world.sessions, ∃ x ∈ strangerPool.board.all,
      g ∈ x.2.issued ∧ x.1.intent = .createSession g.agentId g.role g.scopes := by
  obtain ⟨hsessions, -, hissued, -⟩ := sessions_accounted vectorDb rfl strangerPool_reachable
  refine ⟨strangerPool_issued.1, ?_⟩
  intro g hg
  rcases hsessions g hg with hold | ⟨x, hx, hi⟩
  · cases hold
  · exact ⟨x, hx, hi, (hissued x hx g hi).1⟩

/-- It was issued without any token. -/
theorem stranger_is_given_session :
    ¬ ∀ c, Pool.Reachable (server vectorDb fun _ => True) monitor (· = World.empty) c →
      (∀ x ∈ c.board.all, x.1.token = none) →
      ∀ x ∈ c.board.all, ∀ g ∈ x.2.issued, Covered [] g.scopes := by
  intro hclaim
  obtain ⟨-, hnone, x, hx, g, hg, hscopes⟩ := strangerPool_issued
  have hcovered := hclaim strangerPool strangerPool_reachable hnone x hx g hg
  obtain ⟨s, hs, -⟩ := hcovered "*" (hscopes ▸ List.mem_cons_self)
  cases hs

end Witnesses

end ClawDB
