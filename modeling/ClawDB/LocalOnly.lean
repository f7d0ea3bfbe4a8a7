/-
# `ClawDB.LocalOnly` — who keeps away from the hub

`ClawDB::new` notes whether a hub is configured, and gives the sync engine a fallback endpoint
when none is.  A call that does not look at the note therefore reaches the fallback.

The note says `hub_url` is absent; an empty `hub_url`, as the documentation writes it for a
configuration without a hub, is not.
-/
import ClawDB.Loading
import ClawDB.Server.Surfaces

namespace ClawDB

open Effect Unix

/-- `ClawDB::new`, as far as the methods read what it builds. -/
def ClawDBEngine.new (config : ClawDBConfig) : ClawDBEngine where
  workspaceId := config.workspaceId
  vector := config.vector.enabled
  reflectClient := config.reflect.baseUrl.isSome && config.reflect.apiKey.isSome
  syncLocalOnly := config.sync.hubUrl.isNone

/-- The operation is one of the sync engine that contacts the hub; its status it knows itself. -/
def Op.contactsHub : Op → Bool
  | .sync .status => false
  | .sync _ => true
  | _ => false

/-- The run contacts the hub. -/
def Contacts {σ α : Type} (h : Prog.Handler Sig σ) (p : Act α) (s : σ) : Prop :=
  ∃ o ∈ p.calls h s, o.contactsHub = true

section Contacts

variable {σ α β : Type} {h : Prog.Handler Sig σ} {s : σ}

theorem contacts_bind (p : Act α) (f : α → Act β) :
    Contacts h (p >>= f) s ↔
      Contacts h p s ∨ Contacts h (f (p.run h s).1) (p.run h s).2 := by
  unfold Contacts
  rw [Prog.calls_bind]
  simp only [List.mem_append, or_and_right, exists_or]

theorem contacts_op (o : Op) (k : o.Ret → Act α) :
    Contacts h (Prog.op (F := Sig) o k) s ↔
      o.contactsHub = true ∨ Contacts h (k (h o s).1) (h o s).2 := by
  unfold Contacts
  rw [Prog.calls_op]
  simp only [List.mem_cons, or_and_right, exists_or, exists_eq_left]

/-- Another operation, and what follows its reply. -/
theorem contacts_skip {o : Op} {k : o.Ret → Act α} {r : o.Ret} {s' : σ}
    (ho : o.contactsHub = false) (hr : h o s = (r, s')) :
    Contacts h (Prog.op (F := Sig) o k) s ↔ Contacts h (k r) s' := by
  rw [contacts_op, ho, hr]
  exact or_iff_right Bool.false_ne_true

theorem not_contacts_pure (a : α) : ¬ Contacts h (Prog.pure a : Act α) s := by
  rintro ⟨o, ho, -⟩
  cases ho

theorem contacts_sync (o : SyncOp) (ho : (Op.sync o).contactsHub = true) :
    Contacts h (Eng.sync o) s :=
  ⟨.sync o, List.mem_cons_self, ho⟩

/-- What is made of a result adds no operation. -/
theorem contacts_map (p : Act α) (f : α → β) :
    Contacts h (p >>= fun a => Prog.pure (f a)) s ↔ Contacts h p s := by
  rw [contacts_bind]
  exact or_iff_left (not_contacts_pure _)

theorem contacts_map_ok {ε : Type} (x : Try Sig ε α) (f : α → β) :
    Contacts h (x >>= fun a => pure (f a)).run s ↔ Contacts h x.run s := by
  rw [Try.run_bind, contacts_bind]
  refine or_iff_left ?_
  cases (Prog.run h x.run s).1 <;> exact not_contacts_pure _

end Contacts

/-! ## The four calls, and where they are made -/

inductive SyncKind where
  | sync
  | pushSync
  | pullSync
  | reconcileSync
deriving DecidableEq

namespace SyncKind

def call : SyncKind → SessionCall
  | sync => .sync
  | pushSync => .pushSync
  | pullSync => .pullSync
  | reconcileSync => .reconcileSync

def route : SyncKind → Http.Protected
  | sync => .sync
  | pushSync => .pushSync
  | pullSync => .pullSync
  | reconcileSync => .reconcileSync

def method : SyncKind → Grpc.Method
  | sync => .sync
  | pushSync => .pushSync
  | pullSync => .pullSync
  | reconcileSync => .reconcileSync

end SyncKind

/-- A call on the engine, or a request to one of its routes. -/
inductive SyncEntry where
  | engine (session : ClawDBSession) (kind : SyncKind)
  | http (requestId : String) (authorization : Option String) (kind : SyncKind)
  | grpc (requestId : String) (token : Option String) (kind : SyncKind)

namespace SyncEntry

def kind : SyncEntry → SyncKind
  | engine _ kind | http _ _ kind | grpc _ _ kind => kind

/-- The session behind the call is valid and its scopes permit the call; a request is also
within its rate limit. -/
def Authorized {σ : Type} (h : Prog.Handler Sig σ) (s : σ) : SyncEntry → Prop
  | engine session kind => decision h s session kind.call.accepted = .ok ()
  | http _ authorization kind => ∃ token g s₁ s₂,
      Http.bearerToken authorization = some token ∧
      h (.guard (.validateSession token)) s = (.ok g, s₁) ∧
      h (.host (.checkKey .httpWrite token)) s₁ = (true, s₂) ∧
      decision h s₂ g.toSession kind.call.accepted = .ok ()
  | grpc _ token kind => ∃ text g s₁ s₂,
      token = some text ∧
      h (.host (.checkKey .grpc text)) s = (true, s₁) ∧
      h (.guard (.validateSession text)) s₁ = (.ok g, s₂) ∧
      decision h s₂ g.toSession kind.call.accepted = .ok ()

variable [Crates]

/-- The call is made, and its reply looked at by nobody here. -/
def start (db : ClawDBEngine) : SyncEntry → Act Unit
  | engine session kind => do
      let _ ← (kind.call.perform db session).run
      pure ()
  | http requestId authorization kind => do
      let _ ← Http.serve db ⟨requestId, authorization, .protected kind.route⟩
      pure ()
  | grpc requestId token kind => do
      let _ ← Grpc.serve db ⟨requestId, token, kind.method⟩
      pure ()

end SyncEntry

section Calls

variable {σ : Type} {h : Prog.Handler Sig σ} {s : σ}

/-- The authorization itself stays away from the hub. -/
theorem contacts_authorized {α : Type} {session : ClawDBSession} {accepted : List String}
    {f : Unit → Eng α} (hauth : decision h s session accepted = .ok ()) :
    Contacts h (ClawDBEngine.authorize session accepted >>= f).run s ↔
      Contacts h (f ()).run (h (.guard (.validateSession session.token)) s).2 := by
  rw [decision_of_verdict] at hauth
  unfold verdict guardReply at hauth
  rw [authorize_bind, contacts_op]
  cases hguard : (h (.guard (.validateSession session.token)) s).1 with
  | error e =>
      rw [hguard] at hauth
      cases hauth
  | ok g =>
      rw [hguard] at hauth
      dsimp only at hauth ⊢
      split at hauth
      next hpermits =>
        rw [if_pos hpermits]
        exact or_iff_right Bool.false_ne_true
      next => cases hauth

/-- A handler contacts the hub in the call it makes. -/
theorem contacts_answer {α : Type} (requestId : Option String) (c : Eng α) (ok : α → Response) :
    Contacts h (Http.answer requestId c ok) s ↔ Contacts h c.run s := by
  unfold Http.answer
  rw [contacts_bind, or_iff_left]
  cases (Prog.run h c.run s).1 <;> exact not_contacts_pure _

/-- So does a method, which makes it with the session it has validated. -/
theorem contacts_rpc {α : Type} {s' : σ} {token : String} {g : GuardSession} (requestId : String)
    (c : ClawDBSession → Eng α) (message : α → Message)
    (hvalid : h (.guard (.validateSession token)) s = (.ok g, s')) :
    Contacts h (Grpc.sessionFromRequest token >>= fun x => do
        let a ← Grpc.call requestId (c x.2)
        pure (message a)).run s ↔
      Contacts h (c g.toSession).run s' := by
  obtain ⟨hsession, hcalls⟩ := eval_sessionFromRequest hvalid
  have hcall : Contacts h (Grpc.call requestId (c g.toSession)).run s' ↔
      Contacts h (c g.toSession).run s' := by
    unfold Contacts
    rw [calls_call]
  rw [← hcall, ← contacts_map_ok _ message]
  unfold Contacts
  rw [Try.calls_bind_ok hsession, hcalls]
  constructor
  · rintro ⟨o, ho, hcontacts⟩
    rcases List.mem_cons.mp ho with rfl | ho
    · cases hcontacts
    · exact ⟨o, ho, hcontacts⟩
  · rintro ⟨o, ho, hcontacts⟩
    exact ⟨o, List.mem_cons_of_mem _ ho, hcontacts⟩

variable [Crates] {db : ClawDBEngine}

/-- Once it is authorized, a call contacts the hub unless it is `sync` and looks at the note. -/
theorem contacts_perform {session : ClawDBSession} {kind : SyncKind}
    (hauth : decision h s session kind.call.accepted = .ok ()) :
    Contacts h (kind.call.perform db session).run s ↔
      ¬ (kind = .sync ∧ db.syncLocalOnly = true) := by
  have hwrite : decision h s session ["sync:write", "sync:*", "*"] = .ok () := by
    cases kind <;> exact hauth
  cases kind with
  | sync =>
      show Contacts h (db.sync session).run s ↔ _
      rw [ClawDBEngine.sync, contacts_authorized hwrite]
      by_cases hlocal : db.syncLocalOnly = true
      · rw [if_pos hlocal]
        exact iff_of_false (not_contacts_pure _) fun hno => hno ⟨rfl, hlocal⟩
      · rw [if_neg hlocal, Try.run_bind, contacts_bind]
        refine iff_of_true (.inl ?_) fun hsync => hlocal hsync.2
        exact (contacts_map ..).mpr (contacts_sync .syncNow rfl)
  | pushSync =>
      refine iff_of_true ?_ fun hsync => nomatch hsync.1
      show Contacts h (ClawDBEngine.pushSync session).run s
      rw [ClawDBEngine.pushSync, contacts_authorized hwrite]
      exact (contacts_map ..).mpr (contacts_sync .pushNow rfl)
  | pullSync =>
      refine iff_of_true ?_ fun hsync => nomatch hsync.1
      show Contacts h (ClawDBEngine.pullSync session).run s
      rw [ClawDBEngine.pullSync, contacts_authorized hwrite]
      exact (contacts_map ..).mpr (contacts_sync .pullNow rfl)
  | reconcileSync =>
      refine iff_of_true ?_ fun hsync => nomatch hsync.1
      show Contacts h (ClawDBEngine.reconcileSync session).run s
      rw [ClawDBEngine.reconcileSync, contacts_authorized hwrite]
      exact (contacts_map ..).mpr (contacts_sync .reconcile rfl)

theorem contacts_route (requestId : String) (session : ClawDBSession) (kind : SyncKind) :
    Contacts h (kind.route.handle db requestId session) s ↔
      Contacts h (kind.call.perform db session).run s := by
  cases kind <;> exact contacts_answer ..

theorem contacts_method {s' : σ} {token : String} {g : GuardSession} (requestId : String)
    (kind : SyncKind) (hvalid : h (.guard (.validateSession token)) s = (.ok g, s')) :
    Contacts h (kind.method.handle db requestId (some token)).run s ↔
      Contacts h (kind.call.perform db g.toSession).run s' := by
  cases kind <;> exact contacts_rpc _ _ _ hvalid

/-- An authorized call contacts the hub unless it is `sync` in local-only mode. -/
theorem contacts_start {entry : SyncEntry} (hauth : entry.Authorized h s) :
    Contacts h (entry.start db) s ↔ ¬ (entry.kind = .sync ∧ db.syncLocalOnly = true) := by
  cases entry with
  | engine session kind => exact (contacts_map ..).trans (contacts_perform hauth)
  | http requestId authorization kind =>
      obtain ⟨token, g, s₁, s₂, hbearer, hvalid, hwithin, hdecided⟩ := hauth
      refine (contacts_map ..).trans ?_
      have hget : kind.route.isGet = false := by cases kind <;> rfl
      show Contacts h (Http.authMiddleware authorization fun auth =>
        Http.rateLimitMiddleware requestId kind.route.isGet auth
          (kind.route.handle db requestId auth.session)) s ↔ _
      unfold Http.authMiddleware
      rw [hbearer, hget]
      refine (contacts_skip (o := .guard (.validateSession token)) rfl hvalid).trans ?_
      refine (contacts_skip (o := .host (.checkKey .httpWrite token)) rfl hwithin).trans ?_
      exact (contacts_route ..).trans (contacts_perform hdecided)
  | grpc requestId token kind =>
      obtain ⟨text, g, s₁, s₂, rfl, hwithin, hvalid, hdecided⟩ := hauth
      refine (contacts_map ..).trans ?_
      unfold Grpc.serve
      refine (contacts_skip (o := .host (.checkKey .grpc text)) rfl hwithin).trans ?_
      show Contacts h ((kind.method.handle db requestId (some text)).run >>=
        fun result => Prog.pure (⟨some requestId, result⟩ : GrpcResponse)) s₁ ↔ _
      rw [contacts_map, contacts_method requestId kind hvalid]
      exact contacts_perform hdecided

/-! ## Sequences of calls -/

/-- The calls are made one after the other. -/
def syncAll (db : ClawDBEngine) : List SyncEntry → Act Unit
  | [] => pure ()
  | entry :: entries => do
      entry.start db
      syncAll db entries

/-- Each call is authorized when it is made. -/
def AllAuthorized (db : ClawDBEngine) (h : Prog.Handler Sig σ) : σ → List SyncEntry → Prop
  | _, [] => True
  | s, entry :: entries =>
      entry.Authorized h s ∧ AllAuthorized db h ((entry.start db).run h s).2 entries

theorem contacts_syncAll {entries : List SyncEntry} (hauth : AllAuthorized db h s entries) :
    Contacts h (syncAll db entries) s ↔
      ∃ entry ∈ entries, ¬ (entry.kind = .sync ∧ db.syncLocalOnly = true) := by
  induction entries generalizing s with
  | nil => exact iff_of_false (not_contacts_pure _) fun ⟨_, hmem, _⟩ => nomatch hmem
  | cons entry entries ih =>
      obtain ⟨hfirst, hrest⟩ := hauth
      rw [syncAll, contacts_bind, contacts_start hfirst, ih hrest]
      simp only [List.mem_cons, or_and_right, exists_or, exists_eq_left]

end Calls

/-- Authorized calls keep away from the hub if and only if `hub_url` is absent, not empty, and
every call is a plain `sync`. -/
theorem localOnly_iff [Crates] {config : ClawDBConfig} {σ : Type} (h : Prog.Handler Sig σ)
    (s : σ) {entries : List SyncEntry}
    (hauth : AllAuthorized (.new config) h s entries) :
    (∀ o ∈ (syncAll (.new config) entries).calls h s, o.contactsHub = false) ↔
      ∀ entry ∈ entries, entry.kind = .sync ∧ config.sync.hubUrl = none := by
  have hcontacts := contacts_syncAll hauth
  have hlocal : (ClawDBEngine.new config).syncLocalOnly = true ↔ config.sync.hubUrl = none :=
    Option.isNone_iff_eq_none
  rw [hlocal] at hcontacts
  unfold Contacts at hcontacts
  constructor
  · intro hquiet entry hentry
    by_contra hno
    obtain ⟨o, ho, hhub⟩ := hcontacts.mpr ⟨entry, hentry, hno⟩
    rw [hquiet o ho] at hhub
    cases hhub
  · intro hall o ho
    by_contra hhub
    obtain ⟨entry, hentry, hno⟩ := hcontacts.mp ⟨o, ho, Bool.of_not_eq_false hhub⟩
    exact hno (hall entry hentry)

section Witnesses

attribute [local instance] Crates.sample ConfigCrates.sample

/-- The defaults name no hub. -/
def defaultConfig : ClawDBConfig := defaultForDir bareEnv (path "/var/lib/clawdb")

/-- What a file with `hub_url = ""` makes of them. -/
def documentedConfig : ClawDBConfig :=
  ({ sync := some { hubUrl := some "" } } : ClawDBToml).orDefault defaultConfig

theorem localOnly_iff_owner :
    AllAuthorized (.new defaultConfig) Op.reference ownerWorld
      [.engine ownerSession .sync, .http "r" (some "Bearer t") .sync] ∧
    ∀ o ∈ (syncAll (.new defaultConfig) [.engine ownerSession .sync,
      .http "r" (some "Bearer t") .sync]).calls Op.reference ownerWorld,
      o.contactsHub = false := by
  have hauth : AllAuthorized (.new defaultConfig) Op.reference ownerWorld
      [.engine ownerSession .sync, .http "r" (some "Bearer t") .sync] :=
    ⟨rfl, ⟨"t", ⟨1, 2, 3, "agent", ["*"], "t", 0⟩, _, _, rfl, rfl, rfl, rfl⟩, trivial⟩
  exact ⟨hauth, (localOnly_iff Op.reference ownerWorld hauth).mpr (by decide)⟩

/-- Without a `hub_url`, `push_sync` contacts the hub; with an empty one, `sync` does. -/
theorem hub_contacted :
    (¬ ∀ config : ClawDBConfig, config.sync.hubUrl = none → ∀ entries,
      AllAuthorized (.new config) Op.reference ownerWorld entries →
        ∀ o ∈ (syncAll (.new config) entries).calls Op.reference ownerWorld,
          o.contactsHub = false) ∧
    ¬ ∀ config : ClawDBConfig, config.sync.hubUrl = some "" → ∀ entries,
      AllAuthorized (.new config) Op.reference ownerWorld entries →
        ∀ o ∈ (syncAll (.new config) entries).calls Op.reference ownerWorld,
          o.contactsHub = false := by
  constructor
  · intro hclaim
    have h := hclaim defaultConfig rfl [.engine ownerSession .pushSync] ⟨rfl, trivial⟩
      (.sync .pushNow)
    exact absurd (h (.tail _ (.head _))) (by decide)
  · intro hclaim
    have h := hclaim documentedConfig rfl [.engine ownerSession .sync] ⟨rfl, trivial⟩
      (.sync .syncNow)
    exact absurd (h (.tail _ (.head _))) (by decide)

end Witnesses

end ClawDB
