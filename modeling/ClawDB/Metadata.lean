/-
# `ClawDB.Metadata` — where the metadata of a memory is kept

`remember_typed` hands the metadata to the vector engine and to nobody else: the core has
no place for it.  So it outlives the call where the memory was indexed, and there every
semantic hit for the memory carries it.  A memory that was not indexed has no document,
and a full-text hit carries no metadata at all.

The library is used here by any number of callers at once.  Each runs one method, or a
transaction from its begin to its end.
-/
import ClawDB.Memories
import ClawDB.Lib.Escrow

namespace ClawDB

open Effect Escrow
open Json (Value)

namespace Library

/-- What a caller runs.  Of the methods `method` stands for, and of a transaction, only the
effect matters here. -/
inductive Call where
  | rememberTyped (session : ClawDBSession) (content memoryType : String) (tags : List String)
      (metadata : Value)
  | searchWithOptions (session : ClawDBSession) (query : String) (topK : Nat) (semantic : Bool)
      (filter : Option Value)
  | method (session : ClawDBSession) (c : SessionCall)
  | transaction (session : ClawDBSession) (items : List StagedMemory) (commits : Bool)

inductive Answer where
  | remembered (reply : Except ClawDBError RememberResult)
  | hits (reply : Except ClawDBError (List SearchHit))
  | done

section Calls

variable [Crates]

def finish (commits : Bool) (tx : ClawTransaction) : Eng Unit :=
  if commits then tx.commit else tx.rollback

/-- The caller stages one item after the other, and goes on after one that fails. -/
def fill (commits : Bool) : ClawTransaction → List StagedMemory → Act Answer
  | tx, [] => do
      let _ ← (finish commits tx).run
      pure .done
  | tx, item :: items => do
      let reply ← (tx.rememberTyped item.content item.memoryType item.tags item.metadata).run
      match reply with
      | .ok (_, tx) => fill commits tx items
      | .error _ => fill commits tx items

variable (db : ClawDBEngine)

def perform : Call → Act Answer
  | .rememberTyped session content memoryType tags metadata => do
      let reply ← (db.rememberTyped session content memoryType tags metadata).run
      pure (.remembered reply)
  | .searchWithOptions session query topK semantic filter => do
      let reply ← (db.searchWithOptions session query topK semantic filter).run
      pure (.hits reply)
  | .method session c => do
      let _ ← (c.perform db session).run
      pure .done
  | .transaction session items commits => do
      let reply ← (db.transaction session).run
      match reply with
      | .ok tx => fill commits tx items
      | .error _ => pure .done

def calls : Server Sig World Call Answer := ⟨perform db, Op.sem, fun _ => True⟩

end Calls

/-! ## What is remembered of a call -/

structure Trail where
  /-- the ids drawn -/
  minted : List Uuid
  /-- the ids the core replied with -/
  told : List Uuid
  /-- the metadata the vector engine accepted -/
  sent : List Value
  /-- the results it returned -/
  found : List SearchResult

namespace Trail

def init : Trail := ⟨[], [], [], []⟩

def stored (t : Trail) : (o : CoreOp) → o.Ret → Trail
  | .insertMemory _, .ok id | .txInsertMemory .., .ok id => { t with told := id :: t.told }
  | _, _ => t

def indexed (t : Trail) : (o : VectorOp) → o.Ret → Trail
  | .upsertInWorkspace _ _ _ metadata, .ok _ => { t with sent := metadata :: t.sent }
  | .searchTextInWorkspace .., .ok results => { t with found := results ++ t.found }
  | _, _ => t

def next (t : Trail) : (o : Op) → o.Ret → Trail
  | .core o, r => t.stored o r
  | .vector o, r => t.indexed o r
  | .host .newV4, id => { t with minted := id :: t.minted }
  | _, _ => t

end Trail

section Monitor

variable [Crates]

/-- The metadata of a document names the memory. -/
def Names (metadata : Value) (id : Uuid) : Prop := metadata.get "memory_id" = some (uuid id)

/-- A record has an id its call drew, a document names a memory its call stored. -/
def permitted (t : Trail) : Op → Prop
  | .core (.insertMemory record) | .core (.txInsertMemory _ record) => record.id ∈ t.minted
  | .vector (.upsertInWorkspace _ _ _ metadata) => ∃ id ∈ t.told, Names metadata id
  | _ => True

/-- What the answers mean: a memory is indexed with its metadata or not at all, and a hit is
a result of the vector engine or carries none. -/
def meant (db : ClawDBEngine) : Call → Trail → Answer → Prop
  | .rememberTyped _ _ _ _ metadata, t, .remembered (.ok result) =>
      result.memoryId ∈ t.told ∧ (result.indexed = false → t.sent = []) ∧
        (result.indexed = true → t.sent ≠ []) ∧
        ∀ m ∈ t.sent, Names m result.memoryId ∧ m.get "metadata" = some metadata
  | .searchWithOptions _ _ _ semantic _, t, .hits (.ok hits) => ∀ hit ∈ hits,
      if db.useSemantic semantic then ∃ r ∈ t.found, hit = searchResultToHit r
      else hit.metadata = .null
  | _, _, _ => True

def watch (db : ClawDBEngine) : Monitor Sig Call Answer Trail where
  init _ := .init
  allowed _ := permitted
  next := Trail.next
  post := meant db

end Monitor

/-! ## The calls keep to it -/

section Conforms

variable [Crates] {db : ClawDBEngine} {call : Call} {t : Trail}

/-- An operation that is permitted always. -/
def Harmless (o : Op) : Prop := ∀ t : Trail, permitted t o

theorem harmless_of {R : String} (hR : R ≠ "memory") {o : Op} (ho : o.Of R) : Harmless o := by
  intro t
  cases o with
  | core o => exact absurd (ho.2 _ rfl).symm hR
  | vector o => exact absurd (ho.2 _ rfl).symm hR
  | _ => exact trivial

theorem harmless_authorize {α : Type} {session : ClawDBSession} {accepted : List String}
    {f : Unit → Eng α} (hf : (f ()).run.Within Harmless) :
    (ClawDBEngine.authorize session accepted >>= f).run.Within Harmless :=
  within_authorize (fun _ => trivial) (fun _ => trivial) (fun _ _ _ _ => trivial) hf

theorem harmless_getMemories (ids : List Uuid) :
    (ClawDBEngine.getMemories ids).run.Within Harmless := by
  induction ids with
  | nil => trivial
  | cons id ids ih =>
      exact Try.within_bind (Try.within_of ⟨fun _ => trivial, fun _ => trivial⟩) fun _ =>
        Try.within_bind ih fun _ => trivial

theorem harmless_hits (session : ClawDBSession) (query : String) (topK : Nat) (semantic : Bool)
    (filter : Option Value) : (db.hits session query topK semantic filter).run.Within Harmless := by
  unfold ClawDBEngine.hits
  split <;> exact Try.within_bind (Try.within_of ⟨fun _ => trivial, fun _ => trivial⟩)
    fun _ => trivial

theorem harmless_tell (o : HostOp) : (Eng.host o).Within Harmless :=
  ⟨fun _ => trivial, fun _ => trivial⟩

theorem harmless_search (session : ClawDBSession) (query : String) (topK : Nat)
    (semantic : Bool) (filter : Option Value) :
    (db.searchWithOptions session query topK semantic filter).run.Within Harmless := by
  refine harmless_authorize (Try.within_bind (harmless_hits session query topK semantic filter)
    fun hits => ?_)
  exact Try.within_bind (Try.within_lift (harmless_tell _)) fun _ =>
    Try.within_bind (Try.within_lift (harmless_tell _)) fun _ =>
    Try.within_bind (Try.within_lift (harmless_tell _)) fun _ => trivial

theorem hits_meant (session : ClawDBSession) (query : String) (topK : Nat) (semantic : Bool)
    (filter : Option Value) : (db.hits session query topK semantic filter).run.wp
      ((watch db).protocol call) (fun t reply =>
        meant db (.searchWithOptions session query topK semantic filter) t (.hits reply))
      .init := by
  unfold ClawDBEngine.hits
  split
  next hsem =>
    refine Try.wp_bind.mpr (Try.wp_of.mpr ⟨trivial, fun r => ?_⟩)
    cases r with
    | error e => trivial
    | ok results =>
        intro hit hhit
        rw [if_pos hsem]
        obtain ⟨r, hr, rfl⟩ := List.mem_map.mp hhit
        have hfound : r ∈ results := (List.mem_filter.mp (List.mem_of_mem_take hr)).1
        exact ⟨r, List.mem_append_left _ hfound, rfl⟩
  next hsem =>
    refine Try.wp_bind.mpr (Try.wp_of.mpr ⟨trivial, fun r => ?_⟩)
    cases r with
    | error e => trivial
    | ok records =>
        intro hit hhit
        rw [if_neg hsem]
        obtain ⟨r, -, rfl⟩ := List.mem_map.mp hhit
        rfl

/-! ### Writing a memory -/

theorem names_vectorMetadata (id : Uuid) (record : MemoryRecord) (metadata : Value) :
    Names (vectorMetadata id record metadata) id := rfl

theorem metadata_vectorMetadata (id : Uuid) (record : MemoryRecord) (metadata : Value) :
    (vectorMetadata id record metadata).get "metadata" = some metadata := rfl

theorem rememberTyped_meant (session : ClawDBSession) (content memoryType : String)
    (tags : List String) (metadata : Value) :
    (db.rememberTyped session content memoryType tags metadata).run.wp ((watch db).protocol call)
      (fun t reply => meant db (.rememberTyped session content memoryType tags metadata) t
        (.remembered reply)) .init := by
  refine wp_authorize ⟨trivial, fun _ => rfl⟩ ⟨trivial, fun _ => rfl⟩
    (fun _ _ _ => ⟨trivial, fun _ => rfl⟩) ?_ fun e => trivial
  refine ⟨trivial, fun id => ⟨List.mem_cons_self, fun r => ?_⟩⟩
  cases r with
  | error e => exact trivial
  | ok memoryId =>
      refine Try.wp_bind.mpr ?_
      unfold ClawDBEngine.indexed
      split
      · refine ⟨⟨memoryId, List.mem_cons_self, names_vectorMetadata ..⟩, fun r => ?_⟩
        cases r with
        | error e =>
            exact ⟨trivial, fun _ => ⟨trivial, fun _ => ⟨List.mem_cons_self, fun _ => rfl,
              fun h => (nomatch h), fun m hm => nomatch hm⟩⟩⟩
        | ok docId =>
            refine ⟨trivial, fun _ => ⟨trivial, fun _ => ⟨List.mem_cons_self, fun h => (nomatch h),
              fun _ => List.cons_ne_nil _ _, fun m hm => ?_⟩⟩⟩
            obtain rfl := List.mem_singleton.mp hm
            exact ⟨names_vectorMetadata .., metadata_vectorMetadata ..⟩
      · exact ⟨trivial, fun _ => ⟨trivial, fun _ => ⟨List.mem_cons_self, fun _ => rfl,
          fun h => (nomatch h), fun m hm => nomatch hm⟩⟩⟩

/-- The vector work staged on a transaction names memories its caller stored. -/
def Backed (t : Trail) (pending : List (String × Value)) : Prop :=
  ∀ p ∈ pending, ∃ id ∈ t.told, Names p.2 id

theorem wp_flush (workspaceId : String) {pending : List (String × Value)}
    (h : Backed t pending) : (ClawTransaction.flush workspaceId pending).run.wp
      ((watch db).protocol call) (fun _ _ => True) t := by
  induction pending generalizing t with
  | nil => trivial
  | cons p pending ih =>
      have hrest : Backed t pending := fun q hq => h q (List.mem_cons_of_mem _ hq)
      refine Try.wp_bind.mpr (Try.wp_lift.mpr ⟨h p List.mem_cons_self, fun r => ?_⟩)
      cases r with
      | error e => exact ih hrest
      | ok docId => exact ih hrest

theorem wp_fill (commits : Bool) {tx : ClawTransaction} {items : List StagedMemory}
    (h : Backed t tx.pendingVectorUpserts) :
    (fill commits tx items).wp ((watch db).protocol call) (fun _ _ => True) t := by
  induction items generalizing tx t with
  | nil =>
      unfold fill
      refine Prog.wp_bind.mpr ?_
      cases commits with
      | false => exact ⟨trivial, fun _ => trivial⟩
      | true =>
          refine Try.wp_bind.mpr (Try.wp_of.mpr ⟨trivial, fun r => ?_⟩)
          cases r with
          | error e => trivial
          | ok u =>
              show Prog.wp _ (if tx.vector then _ else _ : Eng Unit).run _ _
              split
              · exact wp_flush _ h
              · trivial
  | cons item items ih =>
      unfold fill
      refine Prog.wp_bind.mpr ?_
      refine ⟨trivial, fun id => ⟨List.mem_cons_self, fun r => ?_⟩⟩
      cases r with
      | error e => exact ih h
      | ok id' =>
          refine ih fun p hp => ?_
          rcases List.mem_append.mp hp with hp | hp
          · obtain ⟨id, hid, hnames⟩ := h p hp
            exact ⟨id, List.mem_cons_of_mem _ hid, hnames⟩
          · obtain rfl := List.mem_singleton.mp hp
            exact ⟨id', List.mem_cons_self, names_vectorMetadata ..⟩

/-! ### Every call -/

theorem wp_method (session : ClawDBSession) (c : SessionCall) :
    (c.perform db session).run.wp ((watch db).protocol call) (fun _ _ => True) .init := by
  have hharmless : (c.perform db session).run.Within Harmless →
      (c.perform db session).run.wp ((watch db).protocol call) (fun _ _ => True) .init :=
    fun h => Prog.wp_of_permitted h fun _ _ => trivial
  cases c with
  | remember content =>
      exact Prog.wp_mono (fun _ _ _ => trivial) (rememberTyped_meant session content _ _ _)
  | rememberTyped content memoryType tags metadata =>
      exact Prog.wp_mono (fun _ _ _ => trivial)
        (rememberTyped_meant session content memoryType tags metadata)
  | search query => exact hharmless (harmless_search session query _ _ _)
  | searchWithOptions query topK semantic filter =>
      exact hharmless (harmless_search session query topK semantic filter)
  | «recall» memoryIds => exact hharmless (harmless_authorize (harmless_getMemories memoryIds))
  | recallOne | listMemories | deleteMemory | updateMemory =>
      exact hharmless (harmless_authorize (Try.within_of ⟨fun _ => trivial, fun _ => trivial⟩))
  | transaction =>
      exact hharmless (harmless_authorize
        (Try.within_bind (Try.within_of ⟨fun _ => trivial, fun _ => trivial⟩) fun _ => trivial))
  | _ =>
      exact hharmless ((SessionCall.perform_within db session _).mono
        fun _ ho => harmless_of (by simp [SessionCall.resource]) ho)

variable (db) in
theorem calls_conform : Conforms (calls db) (watch db) := by
  intro call _
  cases call with
  | rememberTyped session content memoryType tags metadata =>
      exact Prog.wp_bind.mpr (rememberTyped_meant session content memoryType tags metadata)
  | searchWithOptions session query topK semantic filter =>
      refine Prog.wp_bind.mpr (wp_authorize ⟨trivial, fun _ => rfl⟩ ⟨trivial, fun _ => rfl⟩
        (fun _ _ _ => ⟨trivial, fun _ => rfl⟩) ?_ fun e => trivial)
      refine Try.wp_bind.mpr (Prog.wp_mono ?_ (hits_meant session query topK semantic filter))
      intro t reply h
      cases reply with
      | error e => exact trivial
      | ok hits => exact ⟨trivial, fun _ => ⟨trivial, fun _ => ⟨trivial, fun _ => h⟩⟩⟩
  | method session c => exact Prog.wp_bind.mpr (wp_method session c)
  | transaction session items commits =>
      refine Prog.wp_bind.mpr (wp_authorize ⟨trivial, fun _ => rfl⟩ ⟨trivial, fun _ => rfl⟩
        (fun _ _ _ => ⟨trivial, fun _ => rfl⟩) ?_ fun e => trivial)
      refine Try.wp_bind.mpr (Try.wp_of.mpr ⟨trivial, fun r => ?_⟩)
      cases r with
      | error e => exact trivial
      | ok tx => exact wp_fill commits fun p hp => nomatch hp

end Conforms

/-! ## What one operation can do -/

section Runs

variable [Crates] {w w' : World} {t t' : Trail}

inductive Did (w : World) (t : Trail) : World → Trail → Prop where
  | other {w' : World} : w'.docs = w.docs → (∀ id ∈ w.used, id ∈ w'.used) → Did w t w' t
  | draw (id : Uuid) : id ∉ w.used →
      Did w t { w with used := id :: w.used } { t with minted := id :: t.minted }
  | tell {w' : World} (id : Uuid) : id ∈ t.minted → w'.docs = w.docs → w'.used = w.used →
      Did w t w' { t with told := id :: t.told }
  | send (d : Doc) : (∃ id ∈ t.told, Names d.metadata id) →
      Did w t { w with docs := w.docs ++ [d], used := d.id :: w.used }
        { t with sent := d.metadata :: t.sent }
  | find (results : List SearchResult) :
      (∀ r ∈ results, ∃ d ∈ w.docs, r.metadata = d.metadata) →
      Did w t w { t with found := results ++ t.found }

theorem did_of_sem {o : Op} {r : o.Ret} (hp : permitted t o) (h : Op.sem o w r w') :
    Did w t w' (t.next o r) := by
  cases o with
  | guard o =>
      obtain rfl | ⟨g, -, -, rfl⟩ | ⟨id, rfl⟩ := GuardOp.sem_cases h
      · exact .other rfl fun _ h => h
      · exact .other rfl fun _ h => List.mem_cons_of_mem _ h
      · exact .other rfl fun _ h => h
  | core o =>
      have hframe : w'.docs = w.docs ∧ w'.used = w.used := by
        obtain ⟨_, _, _, rfl⟩ := CoreOp.sem_frame h
        exact ⟨rfl, rfl⟩
      have hother : Did w t w' t := .other hframe.1 fun _ h => hframe.2 ▸ h
      cases o with
      | insertMemory record =>
          cases r with
          | error e => exact hother
          | ok id =>
              obtain ⟨rfl, -, -⟩ := h
              exact .tell _ hp hframe.1 hframe.2
      | txInsertMemory tx record =>
          cases r with
          | error e => exact hother
          | ok id =>
              obtain ⟨rfl, -⟩ := h
              exact .tell _ hp hframe.1 hframe.2
      | _ => exact hother
  | vector o =>
      cases o with
      | upsertInWorkspace workspaceId collection text metadata =>
          cases r with
          | error e => obtain rfl := h; exact .other rfl fun _ h => h
          | ok id => obtain ⟨-, rfl⟩ := h; exact .send ⟨id, _, _, _, metadata⟩ hp
      | searchTextInWorkspace workspaceId collection query limit =>
          cases r with
          | error e => obtain rfl := h; exact .other rfl fun _ h => h
          | ok results =>
              obtain ⟨rfl, -, hall⟩ := h
              refine .find results fun r hr => ?_
              obtain ⟨d, hd, -, -, he⟩ := hall r hr
              exact ⟨d, hd, he ▸ rfl⟩
      | stats =>
          obtain rfl | ⟨_, -, rfl⟩ := fallible_cases h <;> exact .other rfl fun _ h => h
  | branch o => obtain ⟨rows, rfl⟩ := h; exact .other rfl fun _ h => h
  | sync o => obtain ⟨rows, rfl⟩ := h; exact .other rfl fun _ h => h
  | reflect o => obtain rfl := h; exact .other rfl fun _ h => h
  | host o =>
      cases o with
      | newV4 => obtain ⟨hid, rfl⟩ := h; exact .draw r hid
      | _ => obtain rfl := h; exact .other rfl fun _ h => h
  | txs o =>
      obtain ⟨_, rfl⟩ := TxsOp.sem_frame h
      exact .other rfl fun _ h => h

/-! ## Every run -/

/-- What a call remembers is so, and what it sent is in the index. -/
structure Trail.Sound (w₀ w : World) (t : Trail) : Prop where
  new : ∀ id ∈ t.minted, id ∉ w₀.used
  told : ∀ id ∈ t.told, id ∈ t.minted
  named : ∀ m ∈ t.sent, ∃ id ∈ t.told, Names m id
  sent : ∀ m ∈ t.sent, ∃ d ∈ w.docs, d.metadata = m
  found : ∀ r ∈ t.found, ∃ d ∈ w.docs, r.metadata = d.metadata

variable {w₀ : World}

theorem Trail.Sound.init : Trail.Sound w₀ w .init where
  new := by intro id h; cases h
  told := by intro id h; cases h
  named := by intro m h; cases h
  sent := by intro m h; cases h
  found := by intro r h; cases h

theorem Trail.Sound.mono (h : t.Sound w₀ w) (hdocs : ∀ d ∈ w.docs, d ∈ w'.docs) :
    t.Sound w₀ w' where
  new := h.new
  told := h.told
  named := h.named
  sent := by
    intro m hm
    obtain ⟨d, hd, he⟩ := h.sent m hm
    exact ⟨d, hdocs d hd, he⟩
  found := by
    intro r hr
    obtain ⟨d, hd, he⟩ := h.found r hr
    exact ⟨d, hdocs d hd, he⟩

theorem Did.docs (h : Did w t w' t') : ∀ d ∈ w.docs, d ∈ w'.docs := by
  intro d hd
  cases h with
  | other hdocs => rwa [hdocs]
  | draw => exact hd
  | tell _ _ hdocs => rwa [hdocs]
  | send => exact List.mem_append_left _ hd
  | find => exact hd

theorem Trail.Sound.did (hs : t.Sound w₀ w) (hused : ∀ id ∈ w₀.used, id ∈ w.used)
    (h : Did w t w' t') : t'.Sound w₀ w' := by
  have hs' := hs.mono h.docs
  cases h with
  | other => exact hs'
  | draw id hid =>
      exact { hs' with
        new := List.forall_mem_cons.mpr ⟨fun h => hid (hused id h), hs.new⟩
        told := fun k hk => List.mem_cons_of_mem _ (hs.told k hk) }
  | tell id hid =>
      refine { hs' with told := List.forall_mem_cons.mpr ⟨hid, hs.told⟩, named := ?_ }
      intro m hm
      obtain ⟨k, hk, hnames⟩ := hs.named m hm
      exact ⟨k, List.mem_cons_of_mem _ hk, hnames⟩
  | send d hnames =>
      exact { hs' with
        named := List.forall_mem_cons.mpr ⟨hnames, hs.named⟩
        sent := List.forall_mem_cons.mpr
          ⟨⟨d, List.mem_append_right _ (List.mem_singleton_self d), rfl⟩, hs'.sent⟩ }
  | find results hresults =>
      refine { hs' with found := fun r hr => ?_ }
      rcases List.mem_append.mp hr with hr | hr
      · exact hresults r hr
      · exact hs.found r hr

/-- The index set against what the calls remember. -/
structure Ledger (w₀ w : World) (l : List (Call × Trail)) : Prop where
  used : ∀ id ∈ w₀.used, id ∈ w.used
  drawn : Drawn w.used (l.map fun x => x.2.minted)
  sound : ∀ x ∈ l, x.2.Sound w₀ w
  docs : ∀ d ∈ w.docs, d ∈ w₀.docs ∨ ∃ x ∈ l, d.metadata ∈ x.2.sent

theorem Did.used (h : Did w t w' t') : ∀ id ∈ w.used, id ∈ w'.used := by
  intro id hid
  cases h with
  | other _ hused => exact hused id hid
  | draw => exact List.mem_cons_of_mem _ hid
  | tell _ _ _ hused => rwa [hused]
  | send => exact List.mem_cons_of_mem _ hid
  | find => exact hid

/-- A new document carries what the call sent, and nothing that was sent is forgotten. -/
theorem Did.sent (h : Did w t w' t') : (∀ d ∈ w'.docs, d ∈ w.docs ∨ d.metadata ∈ t'.sent) ∧
    ∀ m ∈ t.sent, m ∈ t'.sent := by
  cases h with
  | other hdocs => exact ⟨fun d hd => .inl (hdocs ▸ hd), fun m hm => hm⟩
  | draw => exact ⟨fun d hd => .inl hd, fun m hm => hm⟩
  | tell _ _ hdocs => exact ⟨fun d hd => .inl (hdocs ▸ hd), fun m hm => hm⟩
  | find => exact ⟨fun d hd => .inl hd, fun m hm => hm⟩
  | send d =>
      refine ⟨fun d' hd' => ?_, fun m hm => List.mem_cons_of_mem _ hm⟩
      rcases List.mem_append.mp hd' with hd' | hd'
      · exact .inl hd'
      · obtain rfl := List.mem_singleton.mp hd'
        exact .inr List.mem_cons_self

theorem Did.drawn {ls : List (List Uuid)} (hd : Drawn w.used (t.minted :: ls))
    (h : Did w t w' t') : Drawn w'.used (t'.minted :: ls) := by
  have hgrown := hd.grow h.used
  cases h with
  | draw id hid => exact hd.draw hid
  | other | tell | send | find => exact hgrown

theorem Ledger.did {call : Call} {l : List (Call × Trail)} (hl : Ledger w₀ w ((call, t) :: l))
    (h : Did w t w' t') : Ledger w₀ w' ((call, t') :: l) where
  used id hid := h.used id (hl.used id hid)
  drawn := h.drawn hl.drawn
  sound := by
    refine List.forall_mem_cons.mpr ⟨?_, fun x hx => ?_⟩
    · exact (hl.sound _ List.mem_cons_self).did hl.used h
    · exact (hl.sound x (List.mem_cons_of_mem _ hx)).mono h.docs
  docs := by
    obtain ⟨hnew, hkept⟩ := h.sent
    intro d hd
    rcases hnew d hd with hd | hmine
    · rcases hl.docs d hd with hold | ⟨x, hx, hm⟩
      · exact .inl hold
      · rcases List.mem_cons.mp hx with rfl | hx
        · exact .inr ⟨_, List.mem_cons_self, hkept _ hm⟩
        · exact .inr ⟨x, List.mem_cons_of_mem _ hx, hm⟩
    · exact .inr ⟨_, List.mem_cons_self, hmine⟩

variable {db : ClawDBEngine}

theorem ledger {b : Board World Call Answer Trail}
    (h : Board.Reachable (calls db) (watch db) (· = w₀) b) : Ledger w₀ b.world b.all := by
  refine (h.rule (I := fun w l _ => Ledger w₀ w l) ?_ ?_ ?_ ?_ ?_).2
  · intro w l l' ended hperm hl
    exact ⟨hl.used, hl.drawn.perm (hperm.map _), fun x hx => hl.sound x (hperm.mem_iff.mpr hx),
      fun d hd => (hl.docs d hd).imp_right fun ⟨x, hx, hm⟩ => ⟨x, hperm.mem_iff.mp hx, hm⟩⟩
  · rintro w rfl
    exact ⟨fun _ h => h, .nil, fun x hx => (nomatch hx), fun d hd => .inl hd⟩
  · intro w l ended call f _ _ hl
    refine ⟨hl.used, hl.drawn.arrive, List.forall_mem_cons.mpr ⟨.init, hl.sound⟩, fun d hd => ?_⟩
    exact (hl.docs d hd).imp_right fun ⟨x, hx, hm⟩ => ⟨x, List.mem_cons_of_mem _ hx, hm⟩
  · intro w w' l ended call t o r f _ hallowed hr _ hl
    exact hl.did (did_of_sem hallowed hr)
  · intro w l ended call t hl
    exact hl

/-- What the documents name at the start counts as drawn. -/
def NamesUsed (w : World) : Prop :=
  ∀ d ∈ w.docs, ∀ text, d.metadata.get "memory_id" = some (.string text) →
    ∃ id ∈ w.used, text = Crates.uuidToString id

/-- A document that names a memory was sent by the call that stored it. -/
theorem Ledger.mine {l : List (Call × Trail)} (hl : Ledger w₀ w l) (hw₀ : NamesUsed w₀)
    (hprint : PrintApart w.used) {x : Call × Trail} (hx : x ∈ l) {id : Uuid}
    (hminted : id ∈ x.2.minted) {d : Doc} (hd : d ∈ w.docs) (hnames : Names d.metadata id) :
    d.metadata ∈ x.2.sent := by
  have hused : id ∈ w.used := hl.drawn.mem_used hx hminted
  rcases hl.docs d hd with hold | ⟨y, hy, hm⟩
  · obtain ⟨id', hid', htext⟩ := hw₀ d hold _ hnames
    obtain rfl := hprint _ hused id' (hl.used id' hid') htext
    exact absurd hid' ((hl.sound x hx).new _ hminted)
  · obtain ⟨id', hid', hnames'⟩ := (hl.sound y hy).named _ hm
    have hid' : id' ∈ y.2.minted := (hl.sound y hy).told id' hid'
    have htext : Crates.uuidToString id = Crates.uuidToString id' :=
      Value.string.inj (Option.some.inj (hnames.symm.trans hnames'))
    obtain rfl := hprint _ hused id' (hl.drawn.mem_used hy hid') htext
    obtain rfl : y = x := by
      by_contra hne
      exact hl.drawn.apart hy hx hne hid' hminted
    exact hm

/-- The metadata a caller passed is kept where the memory was indexed, and `indexed` says
whether it was: then every semantic hit for the memory carries it, and otherwise there is
none.  A full-text hit carries no metadata. -/
theorem metadata_kept_iff (hw₀ : NamesUsed w₀) {c : Pool Sig World Call Answer Trail}
    (h : Pool.Reachable (calls db) (watch db) (· = w₀) c) (hprint : PrintApart c.world.used)
    {e : Ended Call Answer Trail} (he : e ∈ c.ended) {session : ClawDBSession}
    {content memoryType : String} {tags : List String} {metadata : Value}
    (hcall : e.req = .rememberTyped session content memoryType tags metadata)
    {result : RememberResult} (hrep : e.rep = some (.remembered (.ok result))) :
    (result.indexed = true ↔ ∃ d ∈ c.world.docs, Names d.metadata result.memoryId) ∧
    ∀ e' ∈ c.ended, ∀ session query topK semantic filter hits,
      e'.req = .searchWithOptions session query topK semantic filter →
      e'.rep = some (.hits (.ok hits)) → ∀ hit ∈ hits,
        if db.useSemantic semantic then
          Names hit.metadata result.memoryId →
            result.indexed = true ∧ hit.metadata.get "metadata" = some metadata
        else hit.metadata = .null := by
  have hreach := Pool.reachable_board (calls_conform db) h
  have hl := ledger hreach
  have hall : (e.req, e.mem) ∈ c.board.all := Board.mem_all_of_ended he
  have hmeant : meant db e.req e.mem (.remembered (.ok result)) := hreach.replied e he _ hrep
  rw [hcall] at hmeant
  obtain ⟨htold, hnone, hsome, hsent⟩ := hmeant
  have hminted : result.memoryId ∈ e.mem.minted := (hl.sound _ hall).told _ htold
  have hmine : ∀ d ∈ c.world.docs, Names d.metadata result.memoryId → d.metadata ∈ e.mem.sent :=
    fun d hd hnames => hl.mine hw₀ hprint hall hminted hd hnames
  have hindexed : ∀ d ∈ c.world.docs, Names d.metadata result.memoryId →
      result.indexed = true := by
    intro d hd hnames
    by_contra hno
    have := hmine d hd hnames
    rw [hnone (Bool.eq_false_iff.mpr hno)] at this
    cases this
  refine ⟨⟨fun hyes => ?_, fun ⟨d, hd, hnames⟩ => hindexed d hd hnames⟩, ?_⟩
  · obtain ⟨m, hm⟩ := List.exists_mem_of_ne_nil _ (hsome hyes)
    obtain ⟨d, hd, rfl⟩ := (hl.sound _ hall).sent m hm
    exact ⟨d, hd, (hsent _ hm).1⟩
  · intro e' he' session' query topK semantic filter hits hsearch hrep' hit hhit
    have hfound : meant db e'.req e'.mem (.hits (.ok hits)) := hreach.replied e' he' _ hrep'
    rw [hsearch] at hfound
    have hfound := hfound hit hhit
    split at hfound
    next hsem =>
      rw [if_pos hsem]
      intro hnames
      obtain ⟨r, hr, rfl⟩ := hfound
      obtain ⟨d, hd, hdoc⟩ := (hl.sound _ (Board.mem_all_of_ended he')).found r hr
      have hmetadata : (searchResultToHit r).metadata = d.metadata := hdoc
      rw [hmetadata] at hnames ⊢
      exact ⟨hindexed d hd hnames, (hsent _ (hmine d hd hnames)).2⟩
    next hsem => rw [if_neg hsem]; exact hfound

end Runs

/-! ## A run

A memory with metadata, searched for in both modes. -/

section Witnesses

attribute [local instance] Crates.sample

def given : Value := .object [("source", .string "test")]

def searchedCalls : List Call :=
  [.rememberTyped ownerSession "x" "semantic" [] given,
    .searchWithOptions ownerSession "x" 10 true none,
    .searchWithOptions ownerSession "x" 10 false none]

def searchedPool : Pool Sig World Call Answer Trail :=
  Pool.acts (calls vectorDb) (watch vectorDb) Op.reference ⟨ownerWorld, [], []⟩
    (Pool.oneByOne 8 searchedCalls)

theorem searchedPool_reachable :
    Pool.Reachable (calls vectorDb) (watch vectorDb) (· = ownerWorld) searchedPool :=
  Pool.acts_reachable Op.reference_refines _ (fun _ _ => trivial) (.init rfl)

theorem searchedPool_remembered : ∃ t, (⟨.rememberTyped ownerSession "x" "semantic" [] given, t,
    some (.remembered (.ok ⟨2, true⟩))⟩ : Ended Call Answer Trail) ∈ searchedPool.ended :=
  ⟨_, List.mem_cons_self⟩

/-- The hit of the semantic search. -/
def semanticHit : SearchHit :=
  ⟨3, 0, "x", "semantic", [], vectorMetadata 2 ⟨2, "x", .semantic, []⟩ given⟩

theorem searchedPool_semantic :
    ∃ t, (⟨.searchWithOptions ownerSession "x" 10 true none, t,
      some (.hits (.ok [semanticHit]))⟩ : Ended Call Answer Trail) ∈ searchedPool.ended :=
  ⟨_, List.mem_cons_of_mem _ List.mem_cons_self⟩

theorem ownerWorld_namesUsed : NamesUsed ownerWorld := fun _ hd => nomatch hd

theorem searchedPool_printApart : PrintApart searchedPool.world.used := by
  unfold PrintApart
  decide +kernel

theorem metadata_kept_iff_searched :
    (∃ d ∈ searchedPool.world.docs, Names d.metadata 2) ∧
    semanticHit.metadata.get "metadata" = some given := by
  obtain ⟨t, he⟩ := searchedPool_remembered
  obtain ⟨t', he'⟩ := searchedPool_semantic
  obtain ⟨hindexed, hhits⟩ := metadata_kept_iff ownerWorld_namesUsed searchedPool_reachable
    searchedPool_printApart he rfl rfl
  have hhit := hhits _ he' _ _ _ _ _ _ rfl rfl semanticHit (List.mem_singleton_self _)
  exact ⟨hindexed.mp rfl, (hhit rfl).2⟩

/-- The full-text search returns the same memory without its metadata. -/
theorem metadata_not_in_every_hit :
    ¬ ∀ (db : ClawDBEngine) (w₀ : World), NamesUsed w₀ → ∀ c,
      Pool.Reachable (calls db) (watch db) (· = w₀) c → PrintApart c.world.used →
      ∀ e ∈ c.ended, ∀ session content memoryType tags metadata result,
        e.req = .rememberTyped session content memoryType tags metadata →
        e.rep = some (.remembered (.ok result)) →
        ∀ e' ∈ c.ended, ∀ session query topK semantic filter hits,
          e'.req = .searchWithOptions session query topK semantic filter →
          e'.rep = some (.hits (.ok hits)) → ∀ hit ∈ hits,
            hit.id = result.memoryId ∨ Names hit.metadata result.memoryId →
            hit.metadata = metadata ∨ hit.metadata.get "metadata" = some metadata := by
  intro hclaim
  obtain ⟨t, he⟩ := searchedPool_remembered
  have hfound : ∃ t, (⟨.searchWithOptions ownerSession "x" 10 false none, t,
      some (.hits (.ok [recordToHit ⟨2, "x", .semantic, []⟩]))⟩ : Ended Call Answer Trail) ∈
        searchedPool.ended :=
    ⟨_, List.mem_cons_of_mem _ (List.mem_cons_of_mem _ List.mem_cons_self)⟩
  obtain ⟨t', he'⟩ := hfound
  have hkept := hclaim vectorDb ownerWorld ownerWorld_namesUsed searchedPool
    searchedPool_reachable searchedPool_printApart _ he _ _ _ _ _ _ rfl rfl _ he' _ _ _ _ _ _
    rfl rfl _ (List.mem_singleton_self _) (.inl rfl)
  revert hkept
  decide

end Witnesses

end Library

end ClawDB
