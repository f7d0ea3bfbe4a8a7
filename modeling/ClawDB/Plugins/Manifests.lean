/-
# `Plugins.Manifests` — which manifest a plugin is filed with

The registry keeps the plugins and their manifests in two maps, and changes one after the other:
`register` inserts the plugin and then its manifest, `unregister` takes the plugin out and then
the manifest.  The manifest is what the sandbox has approved, so a plugin under a name must be
paired with the manifest that came, and was checked, in the same call.

That holds, once all calls have returned, in every run in which a manifest is filed or taken out
only while the plugin under its name is as a call left it that has yet to change the manifest:
the same call, or one that will come after it (`maps_paired`).  Two calls on one name that cross
may change the manifests in the other order than the plugins, and leave a plugin with the manifest
of another, or with none.
-/
import ClawDB.Plugins.Runs

namespace ClawDB.Plugins

open Effect Prog

variable {E : Type}

/-! ## What a call remembers -/

/-- The instance the call brought, and the name under which it has changed the plugins and not
yet the manifests. -/
structure Filing where
  brought : Option Instance := none
  pending : Option String := none

namespace Filing

/-- A manifest that the sandbox lets pass, of the call `req`. -/
structure Checked (sandbox : PluginSandbox) (req : Request E) (manifest : PluginManifest) :
    Prop where
  passed : req = .register manifest
  valid : sandbox.validateCapabilities manifest = .ok ()

def allowed (sandbox : PluginSandbox) (req : Request E) (m : Filing) : Op E → Prop
  | .remove _ => m.brought = none ∧ m.pending = none
  | .removeManifest name => m.brought = none ∧ m.pending = some name
  | .onLoad => m.brought = none ∧ m.pending = none
  | .insert name i => m.brought = some i ∧ m.pending = none ∧
      ∃ manifest, Checked sandbox req manifest ∧ manifest.name = name
  | .insertManifest manifest => m.brought ≠ none ∧ m.pending = some manifest.name ∧
      Checked sandbox req manifest
  | _ => True

def next (m : Filing) : (o : Op E) → o.Ret → Filing
  | .remove name, r =>
      match r with
      | some _ => { m with pending := some name }
      | none => m
  | .removeManifest _, _ => { m with pending := none }
  | .onLoad, r => { m with brought := some r.1 }
  | .insert name _, _ => { m with pending := some name }
  | .insertManifest _, _ => { m with pending := none }
  | _, _ => m

end Filing

def filing (sandbox : PluginSandbox) : Monitor (Shared E) (Request E) Reply Filing where
  init _ := {}
  allowed := Filing.allowed sandbox
  next := Filing.next
  post _ m _ := m.pending = none

/-! ## Every call keeps to it -/

section Conforms

variable {sandbox : PluginSandbox} {req : Request E}

abbrev filingProtocol (sandbox : PluginSandbox) (req : Request E) : Protocol (Shared E) Filing :=
  ⟨Filing.allowed sandbox req, Filing.next⟩

theorem files_unregister {name : String} :
    (unregister name : Call E Unit).run.wp (filingProtocol sandbox req) (fun m _ => m = {})
      ({} : Filing) := by
  refine ⟨⟨rfl, rfl⟩, fun r => ?_⟩
  cases r with
  | none => exact rfl
  | some i => exact ⟨⟨rfl, rfl⟩, fun _ => ⟨trivial, fun _ => rfl⟩⟩

theorem files_load {manifest : PluginManifest} (hchecked : Filing.Checked sandbox req manifest) :
    (loadAndInsert manifest : Call E Unit).run.wp (filingProtocol sandbox req)
      (fun m _ => m.pending = none) ({} : Filing) := by
  refine ⟨⟨rfl, rfl⟩, fun r => ?_⟩
  obtain ⟨plugin, loaded⟩ := r
  cases loaded with
  | error reason => exact rfl
  | ok u =>
      refine ⟨⟨rfl, rfl, manifest, hchecked, rfl⟩, fun _ => ⟨⟨?_, rfl, hchecked⟩, fun _ => rfl⟩⟩
      exact fun h => nomatch h

theorem files_register {manifest : PluginManifest} :
    (register sandbox manifest : Call E Unit).run.wp
      (filingProtocol sandbox (.register manifest)) (fun m _ => m.pending = none)
      ({} : Filing) := by
  unfold register
  cases hvalid : sandbox.validateCapabilities manifest with
  | error e => exact rfl
  | ok u =>
      have hchecked : Filing.Checked sandbox (.register manifest : Request E) manifest :=
        ⟨rfl, hvalid⟩
      refine ⟨trivial, fun present => ?_⟩
      cases present with
      | false => exact files_load hchecked
      | true =>
          show (unregister manifest.name >>= _).run.wp (filingProtocol sandbox _) _ _
          rw [Try.wp_bind]
          refine wp_mono (fun m r h => ?_) files_unregister
          subst h
          cases r with
          | error e => exact rfl
          | ok u => exact files_load hchecked

theorem files_deliver {event : E} {m : Filing} (handles : List (String × Instance)) :
    (deliver event handles).wp (filingProtocol sandbox req) (fun m' _ => m' = m) m := by
  induction handles with
  | nil => exact rfl
  | cons handle handles ih => exact ⟨trivial, fun _ => ih⟩

theorem files_conforms (sandbox : PluginSandbox) :
    Conforms (server sandbox : Server (Shared E) _ _ _) (filing sandbox) := by
  intro req _
  cases req with
  | register manifest => exact files_register
  | unregister name =>
      refine wp_mono (fun m _ h => ?_) files_unregister
      rw [h]
      rfl
  | dispatchEvent event =>
      show (Except.ok <$> dispatchEvent event).wp (filingProtocol sandbox _) _ _
      rw [← bind_pure_comp, wp_bind]
      refine ⟨trivial, fun handles => ?_⟩
      refine wp_mono (fun m _ h => ?_) (files_deliver (m := {}) handles)
      rw [h]
      exact rfl

end Conforms

/-! ## The maps agree, but for what calls have yet to do -/

/-- The plugin under the name is as a call left it that has yet to change the manifest. -/
def owed (w : World E) (l : List (Request E × Filing)) (name : String) : Bool :=
  l.any fun x => decide (x.2.pending = some name) && decide (x.2.brought = w.plugins.lookup name)

/-- The condition on a step. -/
def inTurn (w : World E) (l : List (Request E × Filing)) : Op E → Bool
  | .insertManifest manifest => owed w l manifest.name
  | .removeManifest name => owed w l name
  | _ => true

theorem owed_iff {w : World E} {l : List (Request E × Filing)} {name : String} :
    owed w l name = true ↔
      ∃ x ∈ l, x.2.pending = some name ∧ x.2.brought = w.plugins.lookup name := by
  simp only [owed, List.any_eq_true, Bool.and_eq_true, decide_eq_true_eq]

theorem owed_perm {w : World E} {l l' : List (Request E × Filing)} {name : String}
    (hp : l.Perm l') (h : owed w l name = true) : owed w l' name = true := by
  obtain ⟨x, hx, howes⟩ := owed_iff.mp h
  exact owed_iff.mpr ⟨x, hp.mem_iff.mp hx, howes⟩

theorem inTurn_perm {w : World E} {l l' : List (Request E × Filing)} {o : Op E}
    (hp : l.Perm l') (h : inTurn w l o = true) : inTurn w l' o = true := by
  cases o with
  | insertManifest manifest => exact owed_perm hp h
  | removeManifest name => exact owed_perm hp h
  | _ => rfl

/-- The calls there ever were. -/
def calls (l : List (Request E × Filing)) (ended : List (Ended (Request E) Reply Filing)) :
    List (Request E × Filing) :=
  l ++ ended.map fun e => (e.req, e.mem)

/-- The plugin `i` came with the manifest, which the sandbox lets pass, in one of the calls. -/
structure CameWith (sandbox : PluginSandbox) (xs : List (Request E × Filing)) (i : Instance)
    (manifest : PluginManifest) : Prop where
  valid : sandbox.validateCapabilities manifest = .ok ()
  call : ∃ x ∈ xs, x.1 = .register manifest ∧ x.2.brought = some i

/-- The maps agree under the name. -/
structure Agree (sandbox : PluginSandbox) (w : World E) (xs : List (Request E × Filing))
    (name : String) : Prop where
  free : w.plugins.lookup name = none → w.manifests.lookup name = none
  filed : ∀ i, w.plugins.lookup name = some i → ∃ manifest,
    w.manifests.lookup name = some manifest ∧ CameWith sandbox xs i manifest

/-- Under every name the maps agree, or a call has yet to bring the manifests to it. -/
structure Filed (sandbox : PluginSandbox) (w : World E) (l : List (Request E × Filing))
    (ended : List (Ended (Request E) Reply Filing)) : Prop where
  agree : ∀ name, owed w l name = true ∨ Agree sandbox w (calls l ended) name
  checked : ∀ x ∈ l, ∀ i name, x.2.brought = some i → x.2.pending = some name →
    ∃ manifest, Filing.Checked sandbox x.1 manifest ∧ manifest.name = name

section Filed

variable {sandbox : PluginSandbox} {w w' : World E} {l l' : List (Request E × Filing)}
  {ended : List (Ended (Request E) Reply Filing)} {req : Request E} {m m' : Filing}
  {name : String}

/-- What a call brought stays brought, so a name whose entries did not change still agrees. -/
theorem Agree.of_same {xs ys : List (Request E × Filing)} (h : Agree sandbox w xs name)
    (hplugins : w'.plugins.lookup name = w.plugins.lookup name)
    (hmanifests : w'.manifests.lookup name = w.manifests.lookup name)
    (hcalls : ∀ x ∈ xs, ∀ i, x.2.brought = some i → ∃ y ∈ ys, y.1 = x.1 ∧ y.2.brought = some i) :
    Agree sandbox w' ys name where
  free hfree := by
    rw [hmanifests]
    exact h.free (hplugins ▸ hfree)
  filed i hi := by
    rw [hplugins] at hi
    obtain ⟨manifest, hfiled, hvalid, x, hx, hreq, hbrought⟩ := h.filed i hi
    obtain ⟨y, hy, hsame, hy'⟩ := hcalls x hx i hbrought
    exact ⟨manifest, hmanifests.trans hfiled, hvalid, y, hy, hsame.trans hreq, hy'⟩

theorem Agree.subset {xs ys : List (Request E × Filing)} (h : Agree sandbox w xs name)
    (hcalls : xs ⊆ ys) : Agree sandbox w ys name :=
  h.of_same rfl rfl fun x hx _ hi => ⟨x, hcalls hx, rfl, hi⟩

/-- A call that owes nothing under the name has no part in it. -/
theorem owed_tail (hm : m.pending ≠ some name) (h : owed w ((req, m) :: l) name = true) :
    owed w l name = true := by
  obtain ⟨x, hx, howes⟩ := owed_iff.mp h
  rcases List.mem_cons.mp hx with rfl | hx
  · exact absurd howes.1 hm
  · exact owed_iff.mpr ⟨x, hx, howes⟩

theorem owed_cons {x : Request E × Filing} (h : owed w l name = true) :
    owed w (x :: l) name = true := by
  obtain ⟨y, hy, howes⟩ := owed_iff.mp h
  exact owed_iff.mpr ⟨y, List.mem_cons_of_mem _ hy, howes⟩

theorem owed_congr (hplugins : w'.plugins.lookup name = w.plugins.lookup name) :
    owed w' l name = owed w l name := by
  rw [owed, owed, hplugins]

namespace Filed

theorem start (hplugins : w.plugins = ∅) (hmanifests : w.manifests = ∅) :
    Filed sandbox w [] [] where
  agree name := by
    refine .inr ⟨fun _ => ?_, fun i hi => ?_⟩
    · rw [hmanifests, AList.lookup_empty]
    · rw [hplugins, AList.lookup_empty] at hi
      cases hi
  checked x hx := nomatch hx

theorem perm (h : Filed sandbox w l ended) (hp : l.Perm l') : Filed sandbox w l' ended where
  agree name := (h.agree name).imp (owed_perm hp) fun hagree =>
    hagree.subset (hp.append_right _).subset
  checked x hx := h.checked x (hp.mem_iff.mpr hx)

theorem arrive (h : Filed sandbox w l ended) : Filed sandbox w ((req, {}) :: l) ended where
  agree name := (h.agree name).imp owed_cons fun hagree => hagree.subset (List.subset_cons_self _ _)
  checked x hx i name hi := by
    rcases List.mem_cons.mp hx with rfl | hx
    · cases hi
    · exact h.checked x hx i name hi

/-- A call that owes nothing may go. -/
theorem reply {rep : Option Reply} (h : Filed sandbox w ((req, m) :: l) ended)
    (hm : m.pending = none) : Filed sandbox w l (ended ++ [⟨req, m, rep⟩]) where
  agree name := by
    refine (h.agree name).imp (owed_tail fun hp => nomatch hm.symm.trans hp) fun hagree => ?_
    refine hagree.subset fun x hx => ?_
    simp only [calls, List.map_append, List.map_cons, List.map_nil, List.mem_append,
      List.mem_cons, List.cons_append] at hx ⊢
    rcases hx with rfl | hx | hx
    · exact .inr (.inr (.inl rfl))
    · exact .inl hx
    · exact .inr (.inl hx)
  checked x hx := h.checked x (List.mem_cons_of_mem _ hx)

/-- What one operation does to the maps: under a name the call brings them to agree or owes it,
or it leaves the name as it was and owed nothing there. -/
theorem step (h : Filed sandbox w ((req, m) :: l) ended)
    (hbrought : ∀ i, m.brought = some i → m'.brought = some i)
    (hchecked : ∀ i name, m'.brought = some i → m'.pending = some name →
      ∃ manifest, Filing.Checked sandbox req manifest ∧ manifest.name = name)
    (hagree : ∀ name, (owed w' ((req, m') :: l) name = true ∨
        Agree sandbox w' (calls ((req, m') :: l) ended) name) ∨
      (w'.plugins.lookup name = w.plugins.lookup name ∧
        w'.manifests.lookup name = w.manifests.lookup name ∧ m.pending ≠ some name)) :
    Filed sandbox w' ((req, m') :: l) ended where
  agree name := by
    rcases hagree name with hdone | ⟨hplugins, hmanifests, hm⟩
    · exact hdone
    rcases h.agree name with howed | hsame
    · refine .inl (owed_cons ?_)
      rw [owed_congr hplugins]
      exact owed_tail hm howed
    · refine .inr (hsame.of_same hplugins hmanifests fun x hx i hi => ?_)
      rcases List.mem_cons.mp hx with rfl | hx
      · exact ⟨(req, m'), List.mem_cons_self, rfl, hbrought i hi⟩
      · exact ⟨x, List.mem_cons_of_mem _ hx, rfl, hi⟩
  checked x hx := by
    rcases List.mem_cons.mp hx with rfl | hx
    · exact hchecked
    · exact h.checked x (List.mem_cons_of_mem _ hx)

theorem of_same (h : Filed sandbox w l ended)
    (hplugins : ∀ name, w'.plugins.lookup name = w.plugins.lookup name)
    (hmanifests : w'.manifests = w.manifests) : Filed sandbox w' l ended where
  agree name := by
    refine (h.agree name).imp (fun howed => ?_) fun hagree => ?_
    · rw [owed_congr (hplugins name)]
      exact howed
    · exact hagree.of_same (hplugins name) (by rw [hmanifests]) fun x hx _ hi => ⟨x, hx, rfl, hi⟩
  checked := h.checked

/-- The call changes the plugin under the name, and owes the manifest. -/
theorem touch (h : Filed sandbox w ((req, m) :: l) ended) (hpending : m.pending = none)
    (hmine : m.brought = w'.plugins.lookup name)
    (hchecked : ∀ i, m.brought = some i →
      ∃ manifest, Filing.Checked sandbox req manifest ∧ manifest.name = name)
    (hothers : ∀ name', name' ≠ name → w'.plugins.lookup name' = w.plugins.lookup name')
    (hmanifests : w'.manifests = w.manifests) :
    Filed sandbox w' ((req, { m with pending := some name }) :: l) ended := by
  refine h.step (fun _ hi => hi) ?_ ?_
  · intro i name' hi hp
    obtain rfl := Option.some.inj hp
    exact hchecked i hi
  · intro name'
    by_cases hne : name' = name
    · subst hne
      exact .inl (.inl (owed_iff.mpr ⟨_, List.mem_cons_self, rfl, hmine⟩))
    · refine .inr ⟨hothers name' hne, by rw [hmanifests], fun hp => ?_⟩
      exact nomatch hpending.symm.trans hp

/-- The call changes the manifest under the name, in its turn. -/
theorem settle (h : Filed sandbox w ((req, m) :: l) ended) (hpending : m.pending = some name)
    (hok : owed w ((req, m) :: l) name = true) (hplugins : w'.plugins = w.plugins)
    (hothers : ∀ name', name' ≠ name → w'.manifests.lookup name' = w.manifests.lookup name')
    (hmine : m.brought = w.plugins.lookup name →
      Agree sandbox w' (calls ((req, { m with pending := none }) :: l) ended) name) :
    Filed sandbox w' ((req, { m with pending := none }) :: l) ended := by
  refine h.step (fun _ hi => hi) ?_ ?_
  · intro i name' _ hp
    cases hp
  · intro name'
    by_cases hne : name' = name
    · subst hne
      refine .inl ?_
      obtain ⟨x, hx, hx₁, hx₂⟩ := owed_iff.mp hok
      rcases List.mem_cons.mp hx with rfl | hx
      · exact .inr (hmine hx₂)
      -- A later call still owes the name.
      · refine .inl (owed_cons (owed_iff.mpr ⟨x, hx, hx₁, ?_⟩))
        rw [hx₂, hplugins]
    · refine .inr ⟨by rw [hplugins], hothers name' hne, fun hp => hne ?_⟩
      exact (Option.some.inj (hpending.symm.trans hp)).symm

theorem remove (h : Filed sandbox w ((req, m) :: l) ended) (hbrought : m.brought = none)
    (hpending : m.pending = none) :
    Filed sandbox { w with plugins := w.plugins.erase name }
      ((req, m.next (.remove name : Op E) (w.plugins.lookup name)) :: l) ended := by
  cases hfound : w.plugins.lookup name with
  | none =>
      refine h.of_same (fun name' => ?_) rfl
      by_cases hne : name' = name
      · rw [hne, hfound, AList.lookup_erase]
      · exact AList.lookup_erase_ne hne
  | some i =>
      refine h.touch hpending ?_ ?_ (fun name' hne => AList.lookup_erase_ne hne) rfl
      · rw [hbrought, AList.lookup_erase]
      · intro j hj
        exact nomatch hbrought.symm.trans hj

theorem removeManifest (h : Filed sandbox w ((req, m) :: l) ended) (hbrought : m.brought = none)
    (hpending : m.pending = some name) (hok : owed w ((req, m) :: l) name = true) :
    Filed sandbox { w with manifests := w.manifests.erase name }
      ((req, m.next (.removeManifest name : Op E) ()) :: l) ended := by
  refine h.settle hpending hok rfl (fun name' hne => AList.lookup_erase_ne hne) fun hmine => ?_
  refine ⟨fun _ => AList.lookup_erase .., fun i hi => ?_⟩
  exact nomatch hbrought.symm.trans (hmine.trans hi)

theorem insert (h : Filed sandbox w ((req, m) :: l) ended) {i : Instance}
    (hbrought : m.brought = some i) (hpending : m.pending = none)
    (hchecked : ∃ manifest, Filing.Checked sandbox req manifest ∧ manifest.name = name) :
    Filed sandbox { w with
        plugins := w.plugins.insert name i
        displaced := (w.plugins.lookup name).toList ++ w.displaced }
      ((req, m.next (.insert name i : Op E) ()) :: l) ended := by
  refine h.touch hpending ?_ (fun _ _ => hchecked) (fun name' hne => ?_) rfl
  · rw [hbrought, AList.lookup_insert]
  · exact AList.lookup_insert_ne hne

theorem insertManifest (h : Filed sandbox w ((req, m) :: l) ended) {manifest : PluginManifest}
    (hbrought : m.brought ≠ none) (hpending : m.pending = some manifest.name)
    (hchecked : Filing.Checked sandbox req manifest)
    (hok : owed w ((req, m) :: l) manifest.name = true) :
    Filed sandbox { w with manifests := w.manifests.insert manifest.name manifest }
      ((req, m.next (.insertManifest manifest : Op E) ()) :: l) ended := by
  refine h.settle hpending hok rfl (fun name' hne => AList.lookup_insert_ne hne) fun hmine => ?_
  refine ⟨fun hfree => absurd (hmine.trans hfree) hbrought, fun i hi => ?_⟩
  refine ⟨manifest, AList.lookup_insert .., hchecked.valid, _, List.mem_cons_self, hchecked.passed,
    ?_⟩
  exact hmine.trans hi

variable {o : Op E} {r : o.Ret}

theorem next (hok : inTurn w ((req, m) :: l) o = true) (ho : Filing.allowed sandbox req m o)
    (hr : sem o w r w') (h : Filed sandbox w ((req, m) :: l) ended) :
    Filed sandbox w' ((req, m.next o r) :: l) ended := by
  cases o with
  | containsKey name =>
      obtain ⟨-, rfl⟩ := hr
      exact h
  | remove name =>
      obtain ⟨rfl, rfl⟩ := hr
      exact h.remove ho.1 ho.2
  | removeManifest name =>
      obtain rfl := hr
      exact h.removeManifest ho.1 ho.2 hok
  | onUnload i =>
      obtain rfl := hr
      exact h.of_same (fun _ => rfl) rfl
  | onLoad =>
      obtain ⟨-, rfl⟩ := hr
      obtain ⟨hbrought, hpending⟩ : m.brought = none ∧ m.pending = none := ho
      refine h.step ?_ ?_ fun name => .inr ⟨rfl, rfl, fun hp => nomatch hpending.symm.trans hp⟩
      · intro i hi
        exact nomatch hbrought.symm.trans hi
      · intro i name _ hp
        exact nomatch hpending.symm.trans hp
  | insert name i =>
      obtain rfl := hr
      exact h.insert ho.1 ho.2.1 ho.2.2
  | insertManifest manifest =>
      obtain rfl := hr
      exact h.insertManifest ho.1 ho.2.1 ho.2.2 hok
  | handles =>
      obtain ⟨-, rfl⟩ := hr
      exact h
  | onEvent i event =>
      obtain rfl := hr
      exact h.of_same (fun _ => rfl) rfl

end Filed

end Filed

/-! ## Runs -/

abbrev Files (E : Type) := Pool (Shared E) (World E) (Request E) Reply Filing

/-- The registry as it starts. -/
structure Blank (c : Files E) : Prop where
  world : c.world.Init
  manifests : c.world.manifests = ∅
  running : c.running = []
  ended : c.ended = []

/-- Every call has returned. -/
structure Quiet (c : Files E) : Prop where
  running : c.running = []
  returned : ∀ e ∈ c.ended, e.rep ≠ none

/-- Both maps have the same names, and the plugin under a name came in one call with the manifest
there, which the sandbox let pass. -/
structure Paired (sandbox : PluginSandbox) (c : Files E) : Prop where
  names : ∀ name, name ∈ c.world.plugins ↔ name ∈ c.world.manifests
  together : ∀ name i manifest, c.world.plugins.lookup name = some i →
    c.world.manifests.lookup name = some manifest →
    sandbox.validateCapabilities manifest = .ok () ∧
      ∃ e ∈ c.ended, e.req = .register manifest ∧ e.mem.brought = some i

section Runs

variable {sandbox : PluginSandbox} {c₀ c : Files E}

/-- Dropped calls apart, the maps agree but for what calls have yet to do. -/
theorem filed_run (h₀ : Blank c₀)
    (h : Pool.RunWhen (server sandbox) (filing sandbox) (fun w l o => inTurn w l o = true) c₀ c) :
    (∃ e ∈ c.ended, e.rep = none) ∨ Filed sandbox c.world c.board.running c.ended := by
  have hreached : Pool.Reachable (server sandbox) (filing sandbox) World.Init c₀ :=
    .of_empty h₀.world h₀.running h₀.ended
  refine Pool.RunWhen.induct (files_conforms sandbox) h hreached
    (I := fun w l ended => (∃ e ∈ ended, e.rep = none) ∨ Filed sandbox w l ended)
    inTurn_perm ?_ ?_ ?_ ?_ ?_ (.inr ?_)
  · intro w l l' ended hp hI
    exact hI.imp id fun h => h.perm hp
  · intro w l ended req hI
    exact hI.imp id Filed.arrive
  · intro w w' l ended req m o r hok ho hr hI
    exact hI.imp id fun h => h.next hok ho hr
  · intro w l ended req m a hpost hI
    refine hI.imp (fun ⟨e, he, hrep⟩ => ?_) fun h => h.reply hpost
    exact ⟨e, List.mem_append_left _ he, hrep⟩
  · intro w l ended req m _
    exact .inl ⟨_, List.mem_append_right _ List.mem_cons_self, rfl⟩
  · rw [Pool.board, h₀.running, h₀.ended]
    exact .start h₀.world.plugins h₀.manifests

theorem paired_of_filed (h : Filed sandbox c.world c.board.running c.ended)
    (hrunning : c.running = []) : Paired sandbox c := by
  have hboard : c.board.running = [] := by
    rw [Pool.board, hrunning]
    rfl
  have hagree : ∀ name, Agree sandbox c.world (calls [] c.ended) name := by
    intro name
    rcases h.agree name with howed | hagree
    · rw [hboard] at howed
      cases howed
    · rwa [hboard] at hagree
  constructor
  · intro name
    rw [← AList.lookup_isSome, ← AList.lookup_isSome]
    cases hname : c.world.plugins.lookup name with
    | none =>
        rw [(hagree name).free hname]
        exact Iff.rfl
    | some i =>
        obtain ⟨manifest, hfiled, -⟩ := (hagree name).filed i hname
        rw [hfiled]
        rfl
  · intro name i manifest hi hmanifest
    obtain ⟨manifest', hfiled, hvalid, x, hx, hreq, hbrought⟩ := (hagree name).filed i hi
    obtain rfl := Option.some.inj (hfiled.symm.trans hmanifest)
    obtain ⟨e, he, rfl⟩ := List.mem_map.mp hx
    exact ⟨hvalid, e, he, hreq, hbrought⟩

/-- In every run that changes the manifests in turn. -/
theorem maps_paired (h₀ : Blank c₀)
    (h : Pool.RunWhen (server sandbox) (filing sandbox) (fun w l o => inTurn w l o = true) c₀ c)
    (hquiet : Quiet c) : Paired sandbox c := by
  rcases filed_run h₀ h with ⟨e, he, hrep⟩ | hfiled
  · exact absurd hrep (hquiet.returned e he)
  · exact paired_of_filed hfiled hquiet.running

end Runs

/-! ## Two calls on one name -/

section Witnesses

def blank : Files String := ⟨{}, [], []⟩

theorem blank_blank : Blank blank := ⟨⟨rfl, rfl, rfl⟩, rfl, rfl, rfl⟩

abbrev files (c : Files String) (as : List (Pool.Act (Request String))) : Files String :=
  Pool.turns (server (.new true)) (filing (.new true)) (fun _ _ => true) serve c as

/-- Another plugin by the name of `audit`. -/
def reader : PluginManifest := ⟨"audit", [.readMemory]⟩

/-- While `audit` is unregistered `reader` is registered, up to the insertion of its plugin. -/
def entering : List (Pool.Act (Request String)) :=
  Pool.oneByOne 4 [.register audit] ++ [.arrive (.unregister "audit"), .run 0,
    .arrive (.register reader), .run 1, .run 1, .run 1]

/-- The old manifest is taken out before the new one is filed. -/
theorem maps_paired_entering : Paired (.new true) (files blank (entering ++
    [.run 0, .run 1, .run 0])) :=
  maps_paired blank_blank
    (Pool.turns_along (refines_serve _) (fun _ => trivial) (by decide +kernel))
    ⟨rfl, by decide +kernel⟩

/-- The new manifest is filed, and then the old one taken out. -/
def stripped : Files String :=
  files blank (entering ++ [.run 1, .run 0, .run 0])

/-- Two registrations insert their plugins, and then file their manifests in the other order. -/
def swapped : Files String :=
  files blank [.arrive (.register audit), .arrive (.register reader), .run 0, .run 1, .run 0,
    .run 1, .run 0, .run 1, .run 1, .run 0]

/-- A plugin is left without a manifest, or filed with one that came in another call. -/
theorem stripped_and_swapped :
    (¬ ∀ (c₀ c : Files String), Blank c₀ →
      Relation.ReflTransGen (Pool.Step (server (.new true)) (filing (.new true))) c₀ c →
        Quiet c → ∀ name, name ∈ c.world.plugins ↔ name ∈ c.world.manifests) ∧
    ¬ ∀ (c₀ c : Files String), Blank c₀ →
      Relation.ReflTransGen (Pool.Step (server (.new true)) (filing (.new true))) c₀ c →
        Quiet c → ∀ name i manifest, c.world.plugins.lookup name = some i →
          c.world.manifests.lookup name = some manifest →
            ∃ e ∈ c.ended, e.req = .register manifest ∧ e.mem.brought = some i := by
  constructor
  · intro hclaim
    have h := hclaim blank stripped blank_blank
      (Pool.turns_later (refines_serve _) (fun _ => trivial) _ _)
      ⟨rfl, by decide +kernel⟩ "audit"
    have hplugin : stripped.world.plugins.lookup "audit" = some 2 := by decide +kernel
    have hmanifest : stripped.world.manifests.lookup "audit" = none := by rfl
    rw [← AList.lookup_isSome, ← AList.lookup_isSome, hplugin, hmanifest] at h
    exact absurd (h.mp rfl) Bool.false_ne_true
  · intro hclaim
    have hplugin : swapped.world.plugins.lookup "audit" = some 2 := by decide +kernel
    have hmanifest : swapped.world.manifests.lookup "audit" = some audit := by rfl
    obtain ⟨e, he, hreq, hbrought⟩ := hclaim blank swapped blank_blank
      (Pool.turns_later (refines_serve _) (fun _ => trivial) _ _)
      ⟨rfl, by decide +kernel⟩ "audit" 2 audit hplugin hmanifest
    have hended : swapped.ended = [⟨.register reader, ⟨some 2, none⟩, some (.ok ())⟩,
        ⟨.register audit, ⟨some 1, none⟩, some (.ok ())⟩] := by rfl
    rw [hended] at he
    rcases List.mem_cons.mp he with rfl | he
    · injection hreq with hmanifests
      exact absurd (congrArg (fun manifest => manifest.capabilities.length) hmanifests) (by decide)
    · obtain rfl := List.mem_singleton.mp he
      exact absurd hbrought (by decide)

end Witnesses

end ClawDB.Plugins
