/-
# `ClawDB.Cli.Verdicts` — what a command's success says

A command is run against a network that may answer each request with anything, or not at all.
Of the history only the last outcome is kept: what the command made its verdict from.

Success should say that the last reply was a success whose body the command could read, and
that the flag in it, where there is one, was true.  It says so for every command but the ones
that throw away what they were told: `branch archive`, which takes every error for a success,
and the commands of a transaction, which do not look at their flag.
-/
import ClawDB.Cli.Commands

namespace ClawDB.Cli

open Effect Prog
open Json

/-! ## Any network -/

/-- The last outcome is kept. -/
def heard : Prog.Rel Net (Option Outcome)
  | .send _, _, o, s' => s' = some o
  | .sleep _, s, _, s' => s' = s

section

variable {α β : Type} {s s' : Option Outcome}

/-- What comes of a request is what its last attempt came to. -/
theorem exec_retrying {request : HttpRequest} {read : Outcome → Except CliError α}
    {r : Except CliError α} (h : Exec heard (retrying request read).run s r s') :
    ∃ o, s' = some o ∧ r = read o := by
  obtain ⟨s₁, hlast⟩ := exec_retry_last h
  obtain ⟨o, s₂, hsend, hread⟩ := exec_bind.mp hlast
  obtain ⟨rfl, rfl⟩ := exec_pure.mp hread
  exact ⟨o, exec_perform.mp hsend, rfl⟩

/-- Whenever the command succeeds, the last reply did, with a body of this kind. -/
def EndsWith (c : Cmd α) (ok : Payload → Prop) : Prop :=
  ∀ s a s', Exec heard c.run s (.ok a) s' →
    ∃ reply, s' = some (.replied reply) ∧ reply.isSuccess = true ∧ ok reply.payload

/-- The command can read the body as what it expects. -/
def Payload.Reads (d : Decoder α) (p : Payload) : Prop := ∃ a, p.read d = .ok a

theorem handleResponse_ok [Reasons] {d : Decoder α} {reply : Reply} {a : α} :
    Client.handleResponse d reply = .ok a ↔
      reply.isSuccess = true ∧ reply.payload.read d = .ok a := by
  unfold Client.handleResponse
  by_cases hs : reply.isSuccess = true
  · rw [if_pos hs]
    exact ⟨fun h => ⟨hs, h⟩, And.right⟩
  · rw [if_neg hs]
    exact ⟨(fun h => nomatch h), fun h => absurd h.1 hs⟩

theorem endsWith_retrying [Reasons] (request : HttpRequest) (d : Decoder α) :
    EndsWith (retrying request (Client.parsed d)) (Payload.Reads d) := by
  intro s a s' h
  obtain ⟨o, rfl, hread⟩ := exec_retrying h
  cases o with
  | failed e => cases hread
  | replied reply =>
      obtain ⟨hs, hpayload⟩ := handleResponse_ok.mp hread.symm
      exact ⟨reply, rfl, hs, a, hpayload⟩

theorem endsWith_acknowledged [Reasons] (request : HttpRequest) :
    EndsWith (retrying request Client.acknowledged) fun _ => True := by
  intro s a s' h
  obtain ⟨o, rfl, hread⟩ := exec_retrying h
  cases o with
  | failed e => cases hread
  | replied reply =>
      by_cases hs : reply.isSuccess = true
      · exact ⟨reply, rfl, hs, trivial⟩
      · rw [Client.acknowledged, if_neg hs] at hread
        cases hread

/-- Work that sends nothing may follow. -/
theorem EndsWith.then {c : Cmd α} {ok : Payload → Prop} (hc : EndsWith c ok)
    (r : α → Except CliError β) :
    EndsWith (c >>= fun a => ExceptT.mk (.pure (r a))) ok := by
  intro s b s' h
  obtain ⟨a, s₁, ha, hb⟩ | ⟨e, -, he⟩ := Try.exec_bind.mp h
  · obtain ⟨-, rfl⟩ := exec_pure.mp hb
    exact hc s a _ ha
  · cases he

/-- Work that sends nothing may come first. -/
theorem EndsWith.after {ok : Payload → Prop} {c : α → Cmd β} (hc : ∀ a, EndsWith (c a) ok)
    (r : Except CliError α) : EndsWith (ExceptT.mk (.pure r) >>= c) ok := by
  intro s b s' h
  obtain ⟨a, s₁, -, hb⟩ | ⟨e, -, he⟩ := Try.exec_bind.mp h
  · exact hc a s₁ b s' hb
  · cases he

theorem EndsWith.bind {c : Cmd α} {f : α → Cmd β} {ok : Payload → Prop}
    (hf : ∀ a, EndsWith (f a) ok) : EndsWith (c >>= f) ok := by
  intro s b s' h
  obtain ⟨a, s₁, -, hb⟩ | ⟨e, -, he⟩ := Try.exec_bind.mp h
  · exact hf a s₁ b s' hb
  · cases he

end

/-! ## What each command expects -/

/-- The reply has a body the command can read; those that delete read none. -/
def Command.Reads : Command → Payload → Prop
  | .status => Payload.Reads HealthResponse.decode
  | .session (.create ..) => Payload.Reads SessionInfo.decode
  | .session (.revoke _) => fun _ => True
  | .session .whoami => Payload.Reads SessionInfo.decode
  | .session .activeCount => Payload.Reads ActiveSessionCountResponse.decode
  | .remember _ => Payload.Reads CreateMemoryResponse.decode
  | .search _ => Payload.Reads (vec SearchHit.decode)
  | .«recall» .. => Payload.Reads MemoryRecord.decode
  | .memory (.remember _) => Payload.Reads CreateMemoryResponse.decode
  | .memory (.search _) => Payload.Reads (vec SearchHit.decode)
  | .memory (.list ..) => Payload.Reads (vec MemoryRecord.decode)
  | .memory (.get _) => Payload.Reads MemoryRecord.decode
  | .memory (.update ..) => Payload.Reads anyValue
  | .memory (.delete _) => fun _ => True
  | .branch (.list _) => Payload.Reads (vec BranchRecord.decode)
  | .branch (.merge ..) => Payload.Reads MergeResult.decode
  | .branch (.diff ..) => Payload.Reads DiffResult.decode
  | .branch (.archive _) => Payload.Reads anyValue
  | .branch (.discard _) => fun _ => True
  | .branch _ => Payload.Reads BranchRecord.decode
  | .sync (.run _) => Payload.Reads SyncResult.decode
  | .sync .status => Payload.Reads SyncStatusResponse.decode
  | .sync _ => Payload.Reads SyncActionResult.decode
  | .reflect (.run ..) => Payload.Reads ReflectJob.decode
  | .reflect (.jobs ..) => Payload.Reads (vec ReflectJobDetail.decode)
  | .reflect (.job _) => Payload.Reads ReflectJobDetail.decode
  | .reflect (.facts _) => Payload.Reads (vec ExtractedFact.decode)
  | .reflect (.preferences _) => Payload.Reads (vec Preference.decode)
  | .reflect (.contradictions _) => Payload.Reads (vec Contradiction.decode)
  | .reflect (.resolve ..) => Payload.Reads Contradiction.decode
  | .tx .begin => Payload.Reads TxBeginResponse.decode
  | .tx (.commit _) => Payload.Reads TxCommitResponse.decode
  | .tx (.rollback _) => Payload.Reads TxRollbackResponse.decode
  | .tx _ => Payload.Reads TxStagedResponse.decode
  | .policy .list => Payload.Reads (vec PolicyRecord.decode)
  | .policy (.add _) => Payload.Reads PolicyRecord.decode
  | .policy (.remove _) => fun _ => True
  | .policy (.test ..) => Payload.Reads PolicyTestResult.decode

/-- The key under which the reply says whether it was done. -/
def Command.flag : Command → Option String
  | .tx (.remember ..) | .tx (.rememberTyped ..) => some "staged"
  | .tx (.commit _) => some "committed"
  | .tx (.rollback _) => some "rolled_back"
  | _ => none

/-- What a body says under a key. -/
def Payload.member (p : Payload) (key : String) : Option Value :=
  match p with
  | .json v => v.get key
  | _ => none

/-- The last reply was a success the command could read, and no flag in it was anything but
true. -/
def Command.Confirmed (command : Command) (final : Option Outcome) : Prop :=
  ∃ reply, final = some (.replied reply) ∧ reply.isSuccess = true ∧ command.Reads reply.payload ∧
    ∀ key ∈ command.flag, ∀ v, reply.payload.member key = some v → v = .bool true

/-- Of which last outcomes the command's verdict is right. -/
def Command.HoldsWhen (command : Command) (final : Option Outcome) : Prop :=
  match command with
  | .branch (.archive _) =>
      ∃ reply, final = some (.replied reply) ∧ reply.isSuccess = true ∧
        reply.payload.Reads anyValue
  | command =>
      ∀ reply, final = some (.replied reply) → reply.isSuccess = true →
        command.Reads reply.payload →
          ∀ key ∈ command.flag, reply.payload.member key ≠ some (.bool false)

/-! ## Flags -/

theorem reads_json {α : Type} {d : Decoder α} {v : Value} (h : (Payload.json v).Reads d) :
    ∃ a, d v = .ok a := by
  obtain ⟨a, ha⟩ := h
  have hread : (d v).mapError (fun e => CliError.json (.data e)) = .ok a := ha
  cases hd : d v with
  | ok b => exact ⟨b, rfl⟩
  | error e => rw [hd] at hread; cases hread

/-- A flag that was read first is a truth value. -/
theorem bool_of_decode {α : Type} {name : String} {absent : Except DecodeError Bool}
    {fields : List (String × Value)} {rest : List (String × Value) → Bool → Except DecodeError α}
    {a : α} {v : Value}
    (h : (do
      let fields ← members (.object fields)
      let b ← field name [] bool absent fields
      rest fields b) = .ok a)
    (hv : (Value.object fields).get name = some v) : ∃ b, v = .bool b := by
  obtain ⟨fields', hfields, h⟩ := except_bind_ok.mp h
  cases hfields
  obtain ⟨b, hb, -⟩ := except_bind_ok.mp h
  have hbool := field_get hb hv
  cases v with
  | bool b => exact ⟨b, rfl⟩
  | _ => cases hbool

theorem flag_bool {command : Command} {key : String} {p : Payload} {v : Value}
    (hkey : key ∈ command.flag) (hreads : command.Reads p) (hv : p.member key = some v) :
    ∃ b, v = .bool b := by
  cases p with
  | json x =>
      cases x with
      | object fields =>
          cases command with
          | tx c =>
              cases c with
              | begin => cases hkey
              | remember txId content =>
                  obtain rfl := Option.some.inj hkey
                  obtain ⟨a, ha⟩ := reads_json hreads
                  exact bool_of_decode ha hv
              | rememberTyped txId content type tags metadata =>
                  obtain rfl := Option.some.inj hkey
                  obtain ⟨a, ha⟩ := reads_json hreads
                  exact bool_of_decode ha hv
              | commit txId =>
                  obtain rfl := Option.some.inj hkey
                  obtain ⟨a, ha⟩ := reads_json hreads
                  exact bool_of_decode ha hv
              | rollback txId =>
                  obtain rfl := Option.some.inj hkey
                  obtain ⟨a, ha⟩ := reads_json hreads
                  exact bool_of_decode ha hv
          | _ => cases hkey
      | _ => cases hv
  | _ => cases hv

theorem endsWith_recallAll [Reasons] (client : ClawDBClient) (id : String) (ids : List String) :
    EndsWith (recallAll client (id :: ids)) (Payload.Reads MemoryRecord.decode) := by
  induction ids generalizing id with
  | nil => exact (endsWith_retrying _ _).then fun _ => .ok ()
  | cons id' ids ih => exact EndsWith.bind fun _ => ih id'

/-- Archiving never ends with an error. -/
theorem exec_archive [Reasons] (client : ClawDBClient) {branchId : String}
    {s s' : Option Outcome} {r : Except CliError Unit}
    (h : Exec heard ((BranchCommand.archive branchId).execute client).run s r s') :
    r = .ok () := by
  obtain ⟨_, s₁, -, hr⟩ | ⟨e, he, -⟩ := Try.exec_bind.mp h
  · exact (exec_pure.mp hr).1
  · obtain ⟨r₁, s₁, -, hr⟩ := exec_bind.mp he
    cases r₁ with
    | ok v => cases (exec_pure.mp hr).1
    | error e => cases (exec_pure.mp hr).1

section

variable [Crates] [Reasons] (client : ClawDBClient)

theorem endsWith_remember (args : RememberArgs) :
    EndsWith (args.execute client) (Payload.Reads CreateMemoryResponse.decode) :=
  .after (fun _ => .after (fun _ => (endsWith_retrying _ _).then fun _ => .ok ()) _) _

/-- Every command but one succeeds only on a success it could read. -/
theorem endsWith_execute {command : Command}
    (h : ∀ branchId, command ≠ .branch (.archive branchId)) :
    EndsWith (command.execute client) command.Reads := by
  cases command with
  | status => exact (endsWith_retrying _ _).then fun _ => .ok ()
  | session c =>
      cases c with
      | create args saved =>
          have hsaved : ioResult saved = ExceptT.mk (.pure (saved.mapError .io)) := by
            cases saved <;> rfl
          show EndsWith (_ >>= fun _ => ioResult saved) _
          rw [hsaved]
          exact (endsWith_retrying _ _).then fun _ => saved.mapError .io
      | revoke id => exact endsWith_acknowledged _
      | whoami => exact (endsWith_retrying _ _).then fun _ => .ok ()
      | activeCount => exact (endsWith_retrying _ _).then fun _ => .ok ()
  | remember args => exact endsWith_remember client args
  | search args => exact (endsWith_retrying _ _).then fun _ => .ok ()
  | «recall» id ids => exact endsWith_recallAll client id ids
  | memory c =>
      cases c with
      | remember args => exact endsWith_remember client args
      | delete id => exact endsWith_acknowledged _
      | _ => exact (endsWith_retrying _ _).then fun _ => .ok ()
  | branch c =>
      cases c with
      | archive id => exact absurd rfl (h id)
      | discard id => exact endsWith_acknowledged _
      | _ => exact (endsWith_retrying _ _).then fun _ => .ok ()
  | sync c => cases c <;> exact (endsWith_retrying _ _).then fun _ => .ok ()
  | reflect c => cases c <;> exact (endsWith_retrying _ _).then fun _ => .ok ()
  | tx c => cases c <;> exact (endsWith_retrying _ _).then fun _ => .ok ()
  | policy c =>
      cases c with
      | add file => exact .after (fun _ => (endsWith_retrying _ _).then fun _ => .ok ()) file
      | remove id => exact endsWith_acknowledged _
      | _ => exact (endsWith_retrying _ _).then fun _ => .ok ()

/-- A command of a transaction succeeds on every success it can read. -/
theorem exec_tx {command : TxCommand} {s : Option Outcome} {reply : Reply}
    {r : Except CliError Unit}
    (h : Exec heard (command.execute client).run s r (some (.replied reply)))
    (hs : reply.isSuccess = true) (hreads : (Command.tx command).Reads reply.payload) :
    r = .ok () := by
  have hfetch : ∀ {α : Type} {d : Decoder α} {request : HttpRequest},
      Exec heard (retrying request (Client.parsed d) >>= fun _ => pure ()).run s r
        (some (.replied reply)) → reply.payload.Reads d → r = .ok () := by
    rintro α d request h ⟨a, ha⟩
    obtain ⟨_, s₁, -, hr⟩ | ⟨e, he, -⟩ := Try.exec_bind.mp h
    · exact (exec_pure.mp hr).1
    · obtain ⟨o, ho, hread⟩ := exec_retrying he
      cases ho
      cases hread.trans (handleResponse_ok.mpr ⟨hs, ha⟩)
  cases command <;> exact hfetch h hreads

/-- A command's verdict is right exactly if the last outcome is one of these. -/
theorem command_verdict_iff {command : Command} {final : Option Outcome}
    {r : Except CliError Unit} (h : Exec heard (command.execute client).run none r final) :
    (exitCode r = 0 → command.Confirmed final) ↔ command.HoldsWhen final := by
  rw [exitCode_eq_zero_iff]
  unfold Command.HoldsWhen
  split
  next branchId =>
    constructor
    · intro hright
      obtain ⟨reply, hfinal, hs, hreads, -⟩ := hright (exec_archive client h)
      exact ⟨reply, hfinal, hs, hreads⟩
    · rintro ⟨reply, hfinal, hs, hreads⟩ -
      exact ⟨reply, hfinal, hs, hreads, fun key hkey => nomatch hkey⟩
  next hother =>
    constructor
    · intro hright reply hfinal hs hreads key hkey hfalse
      have hok : r = .ok () := by
        subst hfinal
        cases command with
        | tx c => exact exec_tx client h hs hreads
        | _ => cases hkey
      obtain ⟨reply', hfinal', -, -, hflag⟩ := hright hok
      cases hfinal.symm.trans hfinal'
      cases hflag key hkey _ hfalse
    · rintro hflag rfl
      obtain ⟨reply, hfinal, hs, hreads⟩ := endsWith_execute client hother none () final h
      refine ⟨reply, hfinal, hs, hreads, fun key hkey v hv => ?_⟩
      obtain ⟨b, rfl⟩ := flag_bool hkey hreads hv
      cases b with
      | true => rfl
      | false => exact absurd hv (hflag reply hfinal hs hreads key hkey)

end

/-! ## Two commands that were not done -/

section Witnesses

attribute [local instance] Crates.sample Reasons.sample

/-- A network that answers every request alike. -/
def always (o : Outcome) : Prog.Handler Net (Option Outcome)
  | .send _, _ => (o, some o)
  | .sleep _, s => ((), s)

theorem always_refines (o : Outcome) : (always o).Refines heard := by
  intro op s
  cases op with
  | send request => exact rfl
  | sleep millis => exact rfl

theorem exec_always (o : Outcome) (command : Command) :
    Exec heard (command.execute ⟨some "t"⟩).run none
      (Prog.run (always o) (command.execute ⟨some "t"⟩).run none).1
      (Prog.run (always o) (command.execute ⟨some "t"⟩).run none).2 :=
  exec_run (always_refines o) _ _

/-- A branch that was archived: the reply has no body. -/
theorem command_verdict_archived :
    Command.Confirmed (.branch (.archive "b")) (some (.replied ⟨204, none, .empty⟩)) :=
  (command_verdict_iff ⟨some "t"⟩
    (exec_always (.replied ⟨204, none, .empty⟩) (.branch (.archive "b")))).mpr
      ⟨_, rfl, rfl, .null, rfl⟩ rfl

/-- A branch that is not there is archived, and a transaction that was not committed is
committed. -/
theorem success_unconfirmed :
    (¬ ∀ (client : ClawDBClient) (branchId : String) (r : Except CliError Unit)
        (final : Option Outcome),
      Exec heard ((Command.branch (.archive branchId)).execute client).run none r final →
        exitCode r = 0 → (Command.branch (.archive branchId)).Confirmed final) ∧
    ¬ ∀ (client : ClawDBClient) (txId : String) (r : Except CliError Unit)
        (final : Option Outcome),
      Exec heard ((Command.tx (.commit txId)).execute client).run none r final →
        exitCode r = 0 → (Command.tx (.commit txId)).Confirmed final := by
  constructor
  · intro hclaim
    obtain ⟨reply, hfinal, hs, -⟩ := hclaim _ _ _ _
      (exec_always (.replied ⟨404, none, .empty⟩) (.branch (.archive "b"))) rfl
    cases hfinal
    cases hs
  · intro hclaim
    obtain ⟨reply, hfinal, -, -, hflag⟩ := hclaim _ _ _ _
      (exec_always (.replied ⟨200, none, .json (.object [("committed", .bool false)])⟩)
        (.tx (.commit "t"))) rfl
    cases hfinal
    cases hflag "committed" rfl _ rfl

end Witnesses

end ClawDB.Cli
