/-
# `Plugins.Runs` — what a plugin sees of the registry

An instance sees `on_load`, events, and at most one `on_unload` at the end, and one that is
replaced is unloaded, in every run in which

* a registration finds no plugin under its name as it inserts its own, and
* no plugin is unloaded while a running dispatch still has it before it.

Without the first a plugin is displaced without a word; without the second an event reaches a
plugin that was torn down.  `displaced` and `drawn` are the proof's own: the instances an insert
took the place of, and the numbers given out.

The invariant is that an instance is in one place: registered under one name, or in the hand of
one call.  So whoever unloads it is alone with it, but for the dispatches.
-/
import ClawDB.Lib.Pool
import ClawDB.Plugins.Registry
import ClawDB.World

namespace ClawDB.Plugins

open Effect Prog

/-! ## State and behaviour -/

inductive Hook (E : Type) where
  | onLoad
  | onEvent (event : E)
  | onUnload
deriving DecidableEq

variable {E : Type}

structure World (E : Type) where
  plugins : AList (fun _ : String => Instance) := ∅
  manifests : AList (fun _ : String => PluginManifest) := ∅
  log : List (Instance × Hook E) := []
  drawn : List Instance := []
  displaced : List Instance := []

namespace World

/-- An empty registry. -/
structure Init (w : World E) : Prop where
  plugins : w.plugins = ∅
  log : w.log = []
  displaced : w.displaced = []

/-- The hooks of one instance, in the order they were called. -/
def hooks (w : World E) (i : Instance) : List (Hook E) :=
  w.log.filterMap fun entry => if entry.1 = i then some entry.2 else none

def call (w : World E) (i : Instance) (hook : Hook E) : World E :=
  { w with log := w.log ++ [(i, hook)] }

theorem hooks_call_self (w : World E) (i : Instance) (hook : Hook E) :
    (w.call i hook).hooks i = w.hooks i ++ [hook] := by
  simp [hooks, call, List.filterMap_append]

theorem hooks_call_ne (w : World E) {i j : Instance} (hook : Hook E) (h : j ≠ i) :
    (w.call i hook).hooks j = w.hooks j := by
  simp [hooks, call, List.filterMap_append, h.symm]

/-- Loaded, and not unloaded. -/
def Live (w : World E) (i : Instance) : Prop :=
  ∃ events : List E, w.hooks i = .onLoad :: events.map .onEvent

end World

def sem : (o : Op E) → World E → o.Ret → World E → Prop
  | .containsKey name, w => fun present w' => present = (w.plugins.lookup name).isSome ∧ w' = w
  | .remove name, w => fun handle w' => handle = w.plugins.lookup name ∧
      w' = { w with plugins := w.plugins.erase name }
  | .removeManifest name, w => fun _ w' => w' = { w with manifests := w.manifests.erase name }
  | .onUnload i, w => fun _ w' => w' = w.call i .onUnload
  | .onLoad, w => fun r w' =>
      r.1 ∉ w.drawn ∧ w' = { w.call r.1 .onLoad with drawn := r.1 :: w.drawn }
  | .insert name i, w => fun _ w' => w' = { w with
      plugins := w.plugins.insert name i
      displaced := (w.plugins.lookup name).toList ++ w.displaced }
  | .insertManifest manifest, w => fun _ w' =>
      w' = { w with manifests := w.manifests.insert manifest.name manifest }
  | .handles, w => fun l w' => l.Perm (w.plugins.entries.map fun e => (e.1, e.2)) ∧ w' = w
  | .onEvent i event, w => fun _ w' => w' = w.call i (.onEvent event)

/-- The calls of the registry, interleaved. -/
def server (sandbox : PluginSandbox) : Server (Shared E) (World E) (Request E) Reply where
  handler := handler sandbox
  sem := sem
  accepts _ := True

/-! ## What a call remembers -/

/-- The instance in the call's hand, those it took out and those it unloaded, whether it has
registered its own, and the handles it still has to deliver to. -/
structure Memory where
  hand : Option Instance := none
  removed : List Instance := []
  unloaded : List Instance := []
  inserted : Bool := false
  todo : List Instance := []

namespace Memory

def allowed (m : Memory) : Op E → Prop
  | .remove _ => m.hand = none ∧ m.inserted = false
  | .onUnload i => m.hand = some i
  | .onLoad => m.hand = none
  | .insert _ i => m.hand = some i ∧ ∀ j ∈ m.removed, j ∈ m.unloaded
  | .onEvent i _ => m.todo.head? = some i
  | _ => True

def next (m : Memory) : (o : Op E) → o.Ret → Memory
  | .remove _, r =>
      match r with
      | some i => { m with hand := some i, removed := i :: m.removed }
      | none => m
  | .onUnload i, _ => { m with hand := none, unloaded := i :: m.unloaded }
  | .onLoad, r => { m with hand := some r.1 }
  | .insert .., _ => { m with hand := none, inserted := true }
  | .handles, l => { m with todo := l.map Prod.snd }
  | .onEvent .., _ => { m with todo := m.todo.tail }
  | _, _ => m

end Memory

def monitor : Monitor (Shared E) (Request E) Reply Memory where
  init _ := {}
  allowed _ := Memory.allowed
  next := Memory.next
  post _ _ _ := True

abbrev protocol : Protocol (Shared E) Memory := ⟨Memory.allowed, Memory.next⟩

/-! ## Every call keeps to the monitor -/

section Conforms

variable {m : Memory}

/-- The call gives nothing away half done: what it took out it has unloaded. -/
theorem returns_unregister {name : String} (hhand : m.hand = none) (hinserted : m.inserted = false)
    (hremoved : ∀ j ∈ m.removed, j ∈ m.unloaded) :
    (unregister name : Call E Unit).run.wp protocol
      (fun m' _ => m'.hand = none ∧ ∀ j ∈ m'.removed, j ∈ m'.unloaded) m := by
  refine ⟨⟨hhand, hinserted⟩, fun r => ?_⟩
  cases r with
  | none => exact ⟨hhand, hremoved⟩
  | some i =>
      refine ⟨trivial, fun _ => ⟨rfl, fun r => ⟨rfl, fun j hj => ?_⟩⟩⟩
      rcases List.mem_cons.mp hj with rfl | hj
      · exact List.mem_cons_self
      · exact List.mem_cons_of_mem _ (hremoved j hj)

theorem wp_unregister {name : String} :
    (unregister name : Call E Unit).run.wp protocol (fun _ _ => True) ({} : Memory) :=
  wp_mono (fun _ _ _ => trivial) (returns_unregister rfl rfl fun _ hj => nomatch hj)

/-- What `register` does from `on_load` on. -/
def loadAndInsert (manifest : PluginManifest) : Call E Unit := do
  let (plugin, loaded) ← Try.lift (ask .onLoad)
  match loaded with
  | .error reason => throw (.pluginLoad manifest.name reason)
  | .ok _ => do
      Try.lift (ask (.insert manifest.name plugin))
      Try.lift (ask (.insertManifest manifest))

theorem wp_load {manifest : PluginManifest} (hhand : m.hand = none)
    (hremoved : ∀ j ∈ m.removed, j ∈ m.unloaded) :
    (loadAndInsert manifest : Call E Unit).run.wp protocol (fun _ _ => True) m := by
  refine ⟨hhand, fun r => ?_⟩
  obtain ⟨plugin, loaded⟩ := r
  cases loaded with
  | error reason => trivial
  | ok u => exact ⟨⟨rfl, hremoved⟩, fun _ => ⟨trivial, fun _ => trivial⟩⟩

theorem wp_register {sandbox : PluginSandbox} {manifest : PluginManifest} :
    (register sandbox manifest : Call E Unit).run.wp protocol (fun _ _ => True)
      ({} : Memory) := by
  unfold register
  cases sandbox.validateCapabilities manifest with
  | error e => trivial
  | ok u =>
      refine ⟨trivial, fun present => ?_⟩
      cases present with
      | false => exact wp_load rfl fun _ hj => nomatch hj
      | true =>
          show (unregister manifest.name >>= _).run.wp protocol _ _
          rw [Try.wp_bind]
          refine wp_mono (fun m r h => ?_)
            (returns_unregister rfl rfl fun _ hj => nomatch hj)
          cases r with
          | error e => trivial
          | ok u => exact wp_load h.1 h.2

theorem wp_deliver {event : E} {handles : List (String × Instance)}
    (htodo : m.todo = handles.map Prod.snd) :
    (deliver event handles).wp protocol (fun _ _ => True) m := by
  induction handles generalizing m with
  | nil => trivial
  | cons handle handles ih =>
      refine ⟨?_, fun r => ih ?_⟩
      · show m.todo.head? = some handle.2
        rw [htodo]
        rfl
      · show m.todo.tail = handles.map Prod.snd
        rw [htodo]
        rfl

theorem conforms (sandbox : PluginSandbox) :
    Conforms (server sandbox : Server (Shared E) _ _ _) monitor := by
  intro req _
  cases req with
  | register manifest => exact wp_register
  | unregister name => exact wp_unregister
  | dispatchEvent event =>
      show (Except.ok <$> dispatchEvent event).wp protocol _ _
      rw [← bind_pure_comp, wp_bind]
      refine ⟨trivial, fun handles => ?_⟩
      exact wp_mono (fun _ _ _ => trivial) (wp_deliver rfl)

end Conforms

/-! ## Hooks in order -/

/-- `on_load`, any number of events, at most one `on_unload`. -/
def InOrder (hooks : List (Hook E)) : Prop :=
  hooks = [] ∨ ∃ events : List E, hooks = .onLoad :: events.map .onEvent ∨
    hooks = .onLoad :: events.map .onEvent ++ [.onUnload]

section Live

variable {w : World E} {i j : Instance}

theorem World.Live.call_ne (h : w.Live j) {hook : Hook E} (hne : j ≠ i) :
    (w.call i hook).Live j := by
  obtain ⟨events, h⟩ := h
  exact ⟨events, by rw [World.hooks_call_ne w hook hne, h]⟩

theorem World.Live.call_onEvent (h : w.Live j) {event : E} :
    (w.call i (.onEvent event)).Live j := by
  by_cases hne : j = i
  · subst hne
    obtain ⟨events, h⟩ := h
    refine ⟨events ++ [event], ?_⟩
    rw [World.hooks_call_self, h, List.map_append]
    rfl
  · exact h.call_ne hne

theorem World.Live.inOrder (h : w.Live i) : InOrder (w.hooks i) := by
  obtain ⟨events, h⟩ := h
  exact .inr ⟨events, .inl h⟩

theorem World.Live.inOrder_onUnload (h : w.Live i) :
    InOrder ((w.call i .onUnload).hooks i) := by
  obtain ⟨events, h⟩ := h
  exact .inr ⟨events, .inr (by rw [World.hooks_call_self, h])⟩

theorem inOrder_call_ne {hook : Hook E} (h : ∀ j, InOrder (w.hooks j))
    (hi : InOrder ((w.call i hook).hooks i)) (j : Instance) :
    InOrder ((w.call i hook).hooks j) := by
  by_cases hne : j = i
  · rw [hne]; exact hi
  · rw [World.hooks_call_ne w hook hne]; exact h j

end Live

/-- The condition on a step. -/
def undisturbed (w : World E) (l : List (Request E × Memory)) : Op E → Bool
  | .insert name _ => (w.plugins.lookup name).isNone
  | .onUnload i => l.all fun x => !x.2.todo.contains i
  | _ => true

/-- Every instance is in one place, and no running dispatch has an unloaded one before it. -/
structure Tidy (w : World E) (l : List (Request E × Memory)) : Prop where
  unseen : ∀ i ∉ w.drawn, w.hooks i = []
  inOrder : ∀ i, InOrder (w.hooks i)
  registered : ∀ name i, w.plugins.lookup name = some i → w.Live i
  once : ∀ name name' i, w.plugins.lookup name = some i → w.plugins.lookup name' = some i →
    name = name'
  hand : ∀ x ∈ l, ∀ i, x.2.hand = some i → w.Live i ∧ ∀ name, w.plugins.lookup name ≠ some i
  apart : l.Pairwise fun x y => ∀ i, x.2.hand = some i → y.2.hand ≠ some i
  todo : ∀ x ∈ l, ∀ i ∈ x.2.todo, w.Live i
  displaced : w.displaced = []

namespace Tidy

variable {w w' : World E} {l l' : List (Request E × Memory)} {x : Request E × Memory}
  {req : Request E} {m : Memory}

theorem init (h : w.Init) : Tidy w [] where
  unseen := by
    intro i _
    rw [World.hooks, h.log]
    rfl
  inOrder := by
    intro i
    rw [World.hooks, h.log]
    exact .inl rfl
  registered := by
    intro name i hi
    rw [h.plugins, AList.lookup_empty] at hi
    cases hi
  once := by
    intro name name' i hi
    rw [h.plugins, AList.lookup_empty] at hi
    cases hi
  hand := by
    intro x hx
    cases hx
  apart := List.Pairwise.nil
  todo := by
    intro x hx
    cases hx
  displaced := h.displaced

theorem drawn_of_live (h : Tidy w l) {i : Instance} (hi : w.Live i) : i ∈ w.drawn := by
  by_contra hnot
  obtain ⟨events, hi⟩ := hi
  rw [h.unseen i hnot] at hi
  cases hi

theorem perm (h : Tidy w l) (hp : l.Perm l') : Tidy w l' where
  unseen := h.unseen
  inOrder := h.inOrder
  registered := h.registered
  once := h.once
  hand x hx := h.hand x (hp.mem_iff.mpr hx)
  apart := (hp.pairwise_iff fun hxy i hi hx => hxy i hx hi).mp h.apart
  todo x hx := h.todo x (hp.mem_iff.mpr hx)
  displaced := h.displaced

theorem arrive (h : Tidy w l) : Tidy w ((req, {}) :: l) where
  unseen := h.unseen
  inOrder := h.inOrder
  registered := h.registered
  once := h.once
  hand := by
    intro x hx i hi
    rcases List.mem_cons.mp hx with rfl | hx
    · cases hi
    · exact h.hand x hx i hi
  apart := List.pairwise_cons.mpr ⟨fun _ _ _ hi => (nomatch hi), h.apart⟩
  todo := by
    intro x hx i hi
    rcases List.mem_cons.mp hx with rfl | hx
    · cases hi
    · exact h.todo x hx i hi
  displaced := h.displaced

theorem gone (h : Tidy w (x :: l)) : Tidy w l where
  unseen := h.unseen
  inOrder := h.inOrder
  registered := h.registered
  once := h.once
  hand y hy := h.hand y (List.mem_cons_of_mem _ hy)
  apart := (List.pairwise_cons.mp h.apart).2
  todo y hy := h.todo y (List.mem_cons_of_mem _ hy)
  displaced := h.displaced

/-- The others of the board, once one of it has changed the world. -/
theorem step {m' : Memory} (h : Tidy w ((req, m) :: l))
    (hunseen : ∀ i ∉ w'.drawn, w'.hooks i = [])
    (hinOrder : ∀ i, InOrder (w'.hooks i))
    (hregistered : ∀ name i, w'.plugins.lookup name = some i → w'.Live i)
    (honce : ∀ name name' i, w'.plugins.lookup name = some i → w'.plugins.lookup name' = some i →
      name = name')
    (hhand : ∀ i, m'.hand = some i → w'.Live i ∧ ∀ name, w'.plugins.lookup name ≠ some i)
    (hothers : ∀ x ∈ l, ∀ i, x.2.hand = some i → w.Live i →
      (∀ name, w.plugins.lookup name ≠ some i) → m.hand ≠ some i →
      m'.hand ≠ some i ∧ w'.Live i ∧ ∀ name, w'.plugins.lookup name ≠ some i)
    (htodo : ∀ i ∈ m'.todo, w'.Live i)
    (htodos : ∀ x ∈ l, ∀ i ∈ x.2.todo, w.Live i → w'.Live i)
    (hdisplaced : w'.displaced = []) : Tidy w' ((req, m') :: l) := by
  obtain ⟨happart, hrest⟩ := List.pairwise_cons.mp h.apart
  have hothers' : ∀ x ∈ l, ∀ i, x.2.hand = some i →
      m'.hand ≠ some i ∧ w'.Live i ∧ ∀ name, w'.plugins.lookup name ≠ some i := by
    intro x hx i hi
    obtain ⟨hlive, hnot⟩ := h.hand x (List.mem_cons_of_mem _ hx) i hi
    exact hothers x hx i hi hlive hnot fun hm => happart x hx i hm hi
  refine ⟨hunseen, hinOrder, hregistered, honce, ?_, ?_, ?_, hdisplaced⟩
  · intro x hx i hi
    rcases List.mem_cons.mp hx with rfl | hx
    · exact hhand i hi
    · exact (hothers' x hx i hi).2
  · refine List.pairwise_cons.mpr ⟨fun x hx i hi hx' => ?_, hrest⟩
    exact (hothers' x hx i hx').1 hi
  · intro x hx i hi
    rcases List.mem_cons.mp hx with rfl | hx
    · exact htodo i hi
    · exact htodos x hx i hi (h.todo x (List.mem_cons_of_mem _ hx) i hi)

/-- What an erased map still holds. -/
theorem lookup_erase {map : AList (fun _ : String => Instance)} {name name' : String}
    {i : Instance} (h : (map.erase name).lookup name' = some i) :
    name' ≠ name ∧ map.lookup name' = some i := by
  by_cases hne : name' = name
  · subst hne
    rw [AList.lookup_erase] at h
    cases h
  · rw [AList.lookup_erase_ne hne] at h
    exact ⟨hne, h⟩

theorem lookup_insert {map : AList (fun _ : String => Instance)} {name name' : String}
    {i j : Instance} (h : (map.insert name i).lookup name' = some j) :
    name' = name ∧ j = i ∨ name' ≠ name ∧ map.lookup name' = some j := by
  by_cases hne : name' = name
  · subst hne
    rw [AList.lookup_insert] at h
    exact .inl ⟨rfl, (Option.some.inj h).symm⟩
  · rw [AList.lookup_insert_ne hne] at h
    exact .inr ⟨hne, h⟩

/-- A handle that is collected is one that is registered. -/
theorem live_of_handles (h : Tidy w l) {handles : List (String × Instance)}
    (hperm : handles.Perm (w.plugins.entries.map fun e => (e.1, e.2))) {i : Instance}
    (hi : i ∈ handles.map Prod.snd) : w.Live i := by
  obtain ⟨handle, hmem, rfl⟩ := List.mem_map.mp hi
  obtain ⟨e, he, rfl⟩ := List.mem_map.mp (hperm.mem_iff.mp hmem)
  exact h.registered e.1 e.2 (AList.mem_lookup_iff.mpr he)

theorem handles (h : Tidy w ((req, m) :: l)) {handles : List (String × Instance)}
    (hperm : handles.Perm (w.plugins.entries.map fun e => (e.1, e.2))) :
    Tidy w ((req, m.next (.handles : Op E) handles) :: l) := by
  refine h.step h.unseen h.inOrder h.registered h.once (h.hand _ List.mem_cons_self) ?_ ?_ ?_
    h.displaced
  · intro x _ i _ hlive hnot hm
    exact ⟨hm, hlive, hnot⟩
  · intro i hi
    exact h.live_of_handles hperm hi
  · intro x _ i _ hlive
    exact hlive

theorem remove (h : Tidy w ((req, m) :: l)) {name : String} (hhand : m.hand = none) :
    Tidy { w with plugins := w.plugins.erase name }
      ((req, m.next (.remove name : Op E) (w.plugins.lookup name)) :: l) := by
  have hnot : ∀ name' i, (w.plugins.erase name).lookup name' = some i →
      w.plugins.lookup name' = some i := fun name' i hi => (lookup_erase hi).2
  have hregistered : ∀ name' i, (w.plugins.erase name).lookup name' = some i → w.Live i :=
    fun name' i hi => h.registered name' i (hnot name' i hi)
  have honce : ∀ name₁ name₂ i, (w.plugins.erase name).lookup name₁ = some i →
      (w.plugins.erase name).lookup name₂ = some i → name₁ = name₂ :=
    fun name₁ name₂ i h₁ h₂ => h.once name₁ name₂ i (hnot _ _ h₁) (hnot _ _ h₂)
  cases hfound : w.plugins.lookup name with
  | none =>
      refine h.step h.unseen h.inOrder hregistered honce ?_ ?_ (h.todo _ List.mem_cons_self)
        (fun x _ i _ hlive => hlive) h.displaced
      · intro i hi
        rw [show (m.next (.remove name) none : Memory).hand = m.hand from rfl, hhand] at hi
        cases hi
      · intro x _ i _ hlive hout hm
        exact ⟨hm, hlive, fun name' hi => hout name' (hnot name' i hi)⟩
  | some found =>
      refine h.step h.unseen h.inOrder hregistered honce ?_ ?_ (h.todo _ List.mem_cons_self)
        (fun x _ i _ hlive => hlive) h.displaced
      · intro i hi
        obtain rfl : found = i := Option.some.inj hi
        refine ⟨h.registered name found hfound, fun name' hi => ?_⟩
        obtain ⟨hne, hi⟩ := lookup_erase hi
        exact hne (h.once name' name found hi hfound)
      · intro x _ i _ hlive hout _
        refine ⟨fun hi => ?_, hlive, fun name' hi => hout name' (hnot name' i hi)⟩
        obtain rfl : found = i := Option.some.inj hi
        exact hout name hfound

/-- Whoever unloads an instance has it in its hand, and no dispatch has it before it. -/
theorem onUnload (h : Tidy w ((req, m) :: l)) {i : Instance}
    {unloaded : (Op.onUnload i : Op E).Ret} (hhand : m.hand = some i)
    (hok : undisturbed w ((req, m) :: l) (.onUnload i) = true) :
    Tidy (w.call i .onUnload) ((req, m.next (.onUnload i : Op E) unloaded) :: l) := by
  obtain ⟨hlive, hout⟩ := h.hand _ List.mem_cons_self i hhand
  have hclear : ∀ x ∈ (req, m) :: l, i ∉ x.2.todo := by
    intro x hx hi
    have hx := List.all_eq_true.mp hok x hx
    rw [List.contains_iff_mem.mpr hi] at hx
    cases hx
  refine h.step ?_ ?_ ?_ h.once (fun j hj => nomatch hj) ?_ ?_ ?_ h.displaced
  · intro j hj
    have hne : j ≠ i := by
      rintro rfl
      exact hj (h.drawn_of_live hlive)
    rw [World.hooks_call_ne w _ hne]
    exact h.unseen j hj
  · exact inOrder_call_ne h.inOrder hlive.inOrder_onUnload
  · intro name j hj
    refine (h.registered name j hj).call_ne ?_
    rintro rfl
    exact hout name hj
  · intro x _ j _ hj hnot hm
    refine ⟨fun hj => (nomatch hj), hj.call_ne ?_, hnot⟩
    rintro rfl
    exact hm hhand
  · intro j hj
    refine (h.todo _ List.mem_cons_self j hj).call_ne ?_
    rintro rfl
    exact hclear _ List.mem_cons_self hj
  · intro x hx j hj hlive'
    refine hlive'.call_ne ?_
    rintro rfl
    exact hclear x (List.mem_cons_of_mem _ hx) hj

theorem onLoad (h : Tidy w ((req, m) :: l)) {loaded : (Op.onLoad : Op E).Ret}
    (hfresh : loaded.1 ∉ w.drawn) :
    Tidy { w.call loaded.1 .onLoad with drawn := loaded.1 :: w.drawn }
      ((req, m.next (.onLoad : Op E) loaded) :: l) := by
  have hempty := h.unseen loaded.1 hfresh
  have hnew : (w.call loaded.1 .onLoad).Live loaded.1 :=
    ⟨[], by rw [World.hooks_call_self, hempty]; rfl⟩
  have hne : ∀ {j}, w.Live j → j ≠ loaded.1 := by
    rintro j hj rfl
    exact hfresh (h.drawn_of_live hj)
  have hlive : ∀ {j}, w.Live j → (w.call loaded.1 .onLoad).Live j := fun hj => hj.call_ne (hne hj)
  refine h.step ?_ ?_ ?_ h.once ?_ ?_ ?_ ?_ h.displaced
  · intro j hj
    obtain ⟨hj₁, hj₂⟩ := not_or.mp (mt List.mem_cons.mpr hj)
    show (w.call loaded.1 .onLoad).hooks j = []
    rw [World.hooks_call_ne w _ hj₁]
    exact h.unseen j hj₂
  · exact inOrder_call_ne h.inOrder hnew.inOrder
  · exact fun name j hj => hlive (h.registered name j hj)
  · intro j hj
    obtain rfl : loaded.1 = j := Option.some.inj hj
    exact ⟨hnew, fun name hi => hne (h.registered name _ hi) rfl⟩
  · intro x _ j _ hj hnot _
    refine ⟨fun hi => ?_, hlive hj, hnot⟩
    exact hne hj (Option.some.inj hi).symm
  · exact fun j hj => hlive (h.todo _ List.mem_cons_self j hj)
  · exact fun x _ j _ hj => hlive hj

theorem insert (h : Tidy w ((req, m) :: l)) {name : String} {i : Instance}
    (hhand : m.hand = some i) (hfree : w.plugins.lookup name = none) :
    Tidy { w with
        plugins := w.plugins.insert name i
        displaced := (w.plugins.lookup name).toList ++ w.displaced }
      ((req, m.next (.insert name i : Op E) ()) :: l) := by
  obtain ⟨hlive, hout⟩ := h.hand _ List.mem_cons_self i hhand
  refine h.step h.unseen h.inOrder ?_ ?_ (fun j hj => nomatch hj) ?_
    (h.todo _ List.mem_cons_self) (fun x _ j _ hj => hj) ?_
  · intro name' j hj
    rcases lookup_insert hj with ⟨-, rfl⟩ | ⟨-, hj⟩
    · exact hlive
    · exact h.registered name' j hj
  · intro name₁ name₂ j h₁ h₂
    rcases lookup_insert h₁ with ⟨rfl, rfl⟩ | ⟨-, hj₁⟩
    · rcases lookup_insert h₂ with ⟨rfl, -⟩ | ⟨-, hj₂⟩
      · rfl
      · exact absurd hj₂ (hout name₂)
    · rcases lookup_insert h₂ with ⟨-, rfl⟩ | ⟨-, hj₂⟩
      · exact absurd hj₁ (hout name₁)
      · exact h.once name₁ name₂ j hj₁ hj₂
  · intro x _ j _ hj hnot hm
    refine ⟨fun hj => (nomatch hj), hj, fun name' hi => ?_⟩
    rcases lookup_insert hi with ⟨-, rfl⟩ | ⟨-, hi⟩
    · exact hm hhand
    · exact hnot name' hi
  · show (w.plugins.lookup name).toList ++ w.displaced = []
    rw [hfree, h.displaced]
    rfl

theorem onEvent (h : Tidy w ((req, m) :: l)) {i : Instance} {event : E}
    {handled : (Op.onEvent i event).Ret} (hhead : m.todo.head? = some i) :
    Tidy (w.call i (.onEvent event)) ((req, m.next (.onEvent i event) handled) :: l) := by
  have hlive : w.Live i := h.todo _ List.mem_cons_self i (List.mem_of_head? hhead)
  refine h.step ?_ ?_ ?_ h.once ?_ ?_ ?_ (fun x _ j _ hj => hj.call_onEvent) h.displaced
  · intro j hj
    have hne : j ≠ i := by
      rintro rfl
      exact hj (h.drawn_of_live hlive)
    rw [World.hooks_call_ne w _ hne]
    exact h.unseen j hj
  · exact inOrder_call_ne h.inOrder hlive.call_onEvent.inOrder
  · exact fun name j hj => (h.registered name j hj).call_onEvent
  · intro j hj
    obtain ⟨hj, hnot⟩ := h.hand _ List.mem_cons_self j hj
    exact ⟨hj.call_onEvent, hnot⟩
  · intro x _ j _ hj hnot hm
    exact ⟨hm, hj.call_onEvent, hnot⟩
  · intro j hj
    exact (h.todo _ List.mem_cons_self j (List.mem_of_mem_tail hj)).call_onEvent

variable {o : Op E} {r : o.Ret}

theorem next (hok : undisturbed w ((req, m) :: l) o = true) (ho : m.allowed o)
    (hr : sem o w r w') (h : Tidy w ((req, m) :: l)) : Tidy w' ((req, m.next o r) :: l) := by
  cases o with
  | containsKey name =>
      obtain ⟨-, rfl⟩ := hr
      exact h
  | removeManifest name =>
      obtain rfl := hr
      exact ⟨h.unseen, h.inOrder, h.registered, h.once, h.hand, h.apart, h.todo, h.displaced⟩
  | insertManifest manifest =>
      obtain rfl := hr
      exact ⟨h.unseen, h.inOrder, h.registered, h.once, h.hand, h.apart, h.todo, h.displaced⟩
  | handles =>
      obtain ⟨hperm, rfl⟩ := hr
      exact h.handles hperm
  | remove name =>
      obtain ⟨rfl, rfl⟩ := hr
      exact h.remove ho.1
  | onUnload i =>
      obtain rfl := hr
      exact h.onUnload ho hok
  | onLoad =>
      obtain ⟨hfresh, rfl⟩ := hr
      exact h.onLoad hfresh
  | insert name i =>
      obtain rfl := hr
      exact h.insert ho.1 (Option.isNone_iff_eq_none.mp hok)
  | onEvent i event =>
      obtain rfl := hr
      exact h.onEvent ho

end Tidy

theorem undisturbed_perm {w : World E} {l l' : List (Request E × Memory)} {o : Op E}
    (hp : l.Perm l') (h : undisturbed w l o = true) : undisturbed w l' o = true := by
  cases o with
  | onUnload i =>
      refine List.all_eq_true.mpr fun x hx => ?_
      exact List.all_eq_true.mp h x (hp.mem_iff.mpr hx)
  | insert name i => exact h
  | _ => rfl

/-! ## Replaced plugins -/

/-- What a registration took out, it has unloaded by the time it registers its own. -/
structure Replaces (w : World E) (m : Memory) : Prop where
  unloaded : ∀ i ∈ m.unloaded, .onUnload ∈ w.hooks i
  removed : m.inserted = true → ∀ i ∈ m.removed, i ∈ m.unloaded

section Replaces

variable {w w' : World E} {m : Memory} {o : Op E} {r : o.Ret}

/-- No hook is forgotten. -/
theorem hooks_grow (hr : sem o w r w') {i : Instance} {hook : Hook E} (h : hook ∈ w.hooks i) :
    hook ∈ w'.hooks i := by
  have hcall : ∀ (j : Instance) (hook' : Hook E), hook ∈ (w.call j hook').hooks i := by
    intro j hook'
    by_cases hne : i = j
    · subst hne
      rw [World.hooks_call_self]
      exact List.mem_append_left _ h
    · rw [World.hooks_call_ne w hook' hne]
      exact h
  cases o with
  | containsKey name => obtain ⟨-, rfl⟩ := hr; exact h
  | remove name => obtain ⟨-, rfl⟩ := hr; exact h
  | removeManifest name => obtain rfl := hr; exact h
  | onUnload j => obtain rfl := hr; exact hcall j _
  | onLoad => obtain ⟨-, rfl⟩ := hr; exact hcall r.1 _
  | insert name j => obtain rfl := hr; exact h
  | insertManifest manifest => obtain rfl := hr; exact h
  | handles => obtain ⟨-, rfl⟩ := hr; exact h
  | onEvent j event => obtain rfl := hr; exact hcall j _

theorem Replaces.later (h : Replaces w m) (hr : sem o w r w') : Replaces w' m :=
  ⟨fun i hi => hooks_grow hr (h.unloaded i hi), h.removed⟩

theorem Replaces.next (h : Replaces w m) (ho : m.allowed o) (hr : sem o w r w') :
    Replaces w' (m.next o r) := by
  obtain ⟨hunloaded, hremoved⟩ := h.later hr
  cases o with
  | remove name =>
      obtain ⟨-, hinserted⟩ : m.hand = none ∧ m.inserted = false := ho
      cases r with
      | none => exact ⟨hunloaded, hremoved⟩
      | some i => exact ⟨hunloaded, fun h => absurd (hinserted.symm.trans h) Bool.false_ne_true⟩
  | onUnload i =>
      obtain rfl := hr
      refine ⟨fun j hj => ?_, fun h j hj => List.mem_cons_of_mem _ (hremoved h j hj)⟩
      rcases List.mem_cons.mp hj with rfl | hj
      · rw [World.hooks_call_self]
        exact List.mem_append_right _ List.mem_cons_self
      · exact hunloaded j hj
  | insert name i => exact ⟨hunloaded, fun _ => ho.2⟩
  | _ => exact ⟨hunloaded, hremoved⟩

end Replaces

/-! ## Runs -/

abbrev Registry (E : Type) := Pool (Shared E) (World E) (Request E) Reply Memory

/-- The registry as it starts. -/
structure Fresh (c : Registry E) : Prop where
  world : c.world.Init
  running : c.running = []
  ended : c.ended = []

/-- Every instance saw its hooks in order, and one that was replaced was unloaded: displaced by
an insert, or taken out by the registration of another. -/
structure Orderly (c : Registry E) : Prop where
  inOrder : ∀ i, InOrder (c.world.hooks i)
  displaced : ∀ i ∈ c.world.displaced, .onUnload ∈ c.world.hooks i
  replaced : ∀ x ∈ c.board.all, x.2.inserted = true → ∀ i ∈ x.2.removed,
    .onUnload ∈ c.world.hooks i

section Runs

variable {sandbox : PluginSandbox} {c₀ c : Registry E}

theorem reachable_of_fresh (h : Fresh c) :
    Pool.Reachable (server sandbox) monitor World.Init c :=
  .of_empty h.world h.running h.ended

theorem replaces_reachable (h : Pool.Reachable (server sandbox) monitor World.Init c) :
    ∀ x ∈ c.board.all, Replaces c.world x.2 := by
  refine (Board.Reachable.each (J := fun _ => True) (I := fun w x => Replaces w x.2) ?_ ?_ ?_ ?_
    (Pool.reachable_board (conforms sandbox) h)).2
  · intro w _
    trivial
  · intro w req _
    exact ⟨fun i hi => (nomatch hi), fun hi => (nomatch hi)⟩
  · intro w w' req m o r ho hr _ hm
    exact ⟨trivial, hm.next ho hr⟩
  · intro w w' req m o r x _ hr _ hx
    exact hx.later hr

theorem tidy_run (h₀ : Fresh c₀)
    (h : Pool.RunWhen (server sandbox) monitor (fun w l o => undisturbed w l o = true) c₀ c) :
    Tidy c.world c.board.running := by
  refine Pool.RunWhen.rule (conforms sandbox) h (reachable_of_fresh h₀) (I := Tidy)
    undisturbed_perm (fun hp hI => hI.perm hp) Tidy.arrive
    (fun hok ho hr hI => hI.next hok ho hr) Tidy.gone ?_
  rw [Pool.board, h₀.running]
  exact .init h₀.world

/-- In every undisturbed run. -/
theorem hooks_in_order (h₀ : Fresh c₀)
    (h : Pool.RunWhen (server sandbox) monitor (fun w l o => undisturbed w l o = true) c₀ c) :
    Orderly c := by
  have htidy : Tidy c.world c.board.running := tidy_run h₀ h
  have hreplaces := replaces_reachable (Pool.RunWhen.reachable h (reachable_of_fresh h₀))
  refine ⟨htidy.inOrder, ?_, ?_⟩
  · rw [htidy.displaced]
    intro i hi
    cases hi
  · intro x hx hinserted i hi
    have hx := hreplaces x hx
    exact hx.unloaded i (hx.removed hinserted i hi)

end Runs

/-! ## Two schedules

Instances are numbered by counting up, and no plugin fails. -/

section Witnesses

def serve : Handler (Shared E) (World E)
  | .containsKey name, w => ((w.plugins.lookup name).isSome, w)
  | .remove name, w => (w.plugins.lookup name, { w with plugins := w.plugins.erase name })
  | .removeManifest name, w => ((), { w with manifests := w.manifests.erase name })
  | .onUnload i, w => (.ok (), w.call i .onUnload)
  | .onLoad, w =>
      let i := ClawDB.World.fresh w.drawn
      ((i, .ok ()), { w.call i .onLoad with drawn := i :: w.drawn })
  | .insert name i, w => ((), { w with
      plugins := w.plugins.insert name i
      displaced := (w.plugins.lookup name).toList ++ w.displaced })
  | .insertManifest manifest, w =>
      ((), { w with manifests := w.manifests.insert manifest.name manifest })
  | .handles, w => (w.plugins.entries.map fun e => (e.1, e.2), w)
  | .onEvent i event, w => (.ok (), w.call i (.onEvent event))

theorem refines_serve (sandbox : PluginSandbox) :
    Pool.RefinesWhen (fun _ _ => true) serve (server sandbox : Server (Shared E) _ _ _).sem := by
  intro o w _
  cases o with
  | containsKey name => exact ⟨rfl, rfl⟩
  | remove name => exact ⟨rfl, rfl⟩
  | onLoad => exact ⟨ClawDB.World.fresh_notMem _, rfl⟩
  | handles => exact ⟨List.Perm.refl _, rfl⟩
  | _ => exact rfl

def empty : Registry String := ⟨{}, [], []⟩

theorem fresh_empty : Fresh empty := ⟨⟨rfl, rfl, rfl⟩, rfl, rfl⟩

abbrev schedule (c : Registry String) (as : List (Pool.Act (Request String))) :
    Registry String :=
  Pool.turns (server (.new true)) monitor (fun _ _ => true) serve c as

def audit : PluginManifest := ⟨"audit", [.readMemory, .emitEvents]⟩

/-- A plugin is registered, called, replaced, and its successor called and unregistered. -/
theorem hooks_in_order_replaced :
    Orderly (schedule empty (Pool.oneByOne 7 [.register audit, .dispatchEvent "a",
      .register audit, .dispatchEvent "b", .unregister "audit"])) :=
  hooks_in_order fresh_empty
    (Pool.turns_along (refines_serve _) (fun _ => trivial) (by decide +kernel))

/-- The dispatch has its handles; the plugin is unregistered; the dispatch goes on. -/
def late : Registry String :=
  schedule empty (Pool.oneByOne 4 [.register audit] ++ [.arrive (.dispatchEvent "a"), .run 0,
    .arrive (.unregister "audit"), .run 1, .run 1, .run 1, .run 0])

/-- Two registrations of one name both find it free. -/
def crossed : Registry String :=
  schedule empty [.arrive (.register audit), .arrive (.register audit), .run 0, .run 1, .run 0,
    .run 1, .run 0, .run 0, .run 0]

/-- An event reaches an unloaded plugin, and a displaced one is never unloaded. -/
theorem torn_down_and_displaced :
    (¬ ∀ (c₀ c : Registry String), Fresh c₀ →
      Relation.ReflTransGen (Pool.Step (server (.new true)) monitor) c₀ c →
        ∀ i, InOrder (c.world.hooks i)) ∧
    ¬ ∀ (c₀ c : Registry String), Fresh c₀ →
      Relation.ReflTransGen (Pool.Step (server (.new true)) monitor) c₀ c →
        ∀ i ∈ c.world.displaced, .onUnload ∈ c.world.hooks i := by
  constructor
  · intro hclaim
    have h := hclaim empty late fresh_empty
      (Pool.turns_later (refines_serve _) (fun _ => trivial) _ _) 1
    have hhooks : late.world.hooks 1 = [.onLoad, .onUnload, .onEvent "a"] := by decide +kernel
    rw [hhooks] at h
    rcases h with h | ⟨events, h | h⟩
    · cases h
    · cases events <;> simp at h
    · cases events <;> simp at h
  · intro hclaim
    have h := hclaim empty crossed fresh_empty
      (Pool.turns_later (refines_serve _) (fun _ => trivial) _ _) 1 (by decide +kernel)
    revert h
    decide +kernel

end Witnesses

end ClawDB.Plugins
