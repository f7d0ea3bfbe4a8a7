/-
# `Plugins.Loader` — which library a directory of plugins gets opened

`plugins/loader.rs` on a Unix target.  A plugin is a subdirectory with a manifest; the manifest
names the shared library next to it, and a library runs code of its own as soon as it is opened.
So what counts is what was asked before `dlopen`, and what becomes of the library after it:

    the subdirectory was listed, is a directory and is enabled
    its manifest was read, parsed and passed by the sandbox
    the library is the first of the candidates found to exist, and it was found last
    a library stays open if it gave a plugin, and is closed if it did not

The file system and the linker are not asked for anything: each reply may be any, and other
processes may change the directory between any two questions.  `Plugins/Registry.lean` says
what becomes of a plugin that was loaded.
-/
import ClawDB.Lib.Path
import ClawDB.Lib.Trace
import ClawDB.Plugins.Registry

namespace ClawDB.Plugins.Loader

open Effect Unix

/-- The manifest, as far as the loader reads it. -/
structure Manifest extends PluginManifest where
  entrySymbol : String

inductive LoadError where
  | io (e : String)
  | plugin (e : PluginError)

/-- The Unix targets that the names of shared libraries are told apart by.  Windows is none of
them: a path has other separators there, and a library ends in `.dll`. -/
inductive UnixTarget where
  | macos
  | other
deriving DecidableEq

def extensions : UnixTarget → List String
  | .macos => ["dylib", "so"]
  | .other => ["so"]

/-! ## What the loader asks -/

inductive Op (Library : Type) where
  | pathExists (path : PathBuf)
  /-- the names that `next_entry` gives, up to the first that cannot be read -/
  | readDir (path : PathBuf)
  | isDir (path : PathBuf)
  | readToString (path : PathBuf)
  | libraryNew (path : PathBuf)
  | libraryGet (library : Library) (symbol : String)
  /-- a call of the entry symbol; `none` is the null pointer -/
  | create (library : Library) (symbol : String)
  /-- `Drop for Library` -/
  | libraryClose (library : Library)

@[reducible] def Op.Ret {Library : Type} (Plugin : Type) : Op Library → Type
  | .pathExists _ => Bool
  | .readDir _ => Except String (List (Except String OsString))
  | .isDir _ => Bool
  | .readToString _ => Except String String
  | .libraryNew _ => Except String Library
  | .libraryGet .. => Except String Unit
  | .create .. => Option Plugin
  | .libraryClose _ => Unit

abbrev Host (Library Plugin : Type) : Effect.Sig := ⟨Op Library, Op.Ret Plugin⟩

abbrev Event (Library Plugin : Type) := Exchange (Host Library Plugin)

/-- The rules of the loader, the enabled plugins and `toml::from_str`. -/
structure Setup where
  target : UnixTarget
  sandbox : PluginSandbox
  enabled : List String
  fromStr : String → Except String Manifest

variable {Library Plugin : Type} (cfg : Setup)

def ask (o : Op Library) : Prog (Host Library Plugin) (o.Ret Plugin) :=
  Prog.perform (F := Host Library Plugin) o

/-! ## The loader -/

def withExtension (pluginDir : PathBuf) (name ext : String) : PathBuf :=
  join pluginDir (path (name ++ "." ++ ext))

def findIn (pluginDir : PathBuf) (name : String) :
    List String → Try (Host Library Plugin) PluginError PathBuf
  | [] => throw (.pluginLoad name ("no shared library found in " ++ display pluginDir))
  | ext :: exts => do
      let found : Bool ← Try.lift (ask (.pathExists (withExtension pluginDir name ext)))
      if found then pure (withExtension pluginDir name ext)
      else do
        -- the name with the prefix comes second
        let found : Bool ←
          Try.lift (ask (.pathExists (withExtension pluginDir ("lib" ++ name) ext)))
        if found then pure (withExtension pluginDir ("lib" ++ name) ext)
        else findIn pluginDir name exts

def findLibrary (pluginDir : PathBuf) (name : String) :
    Try (Host Library Plugin) PluginError PathBuf :=
  findIn pluginDir name (extensions cfg.target)

def loadLibrary (libPath : PathBuf) (manifest : Manifest) :
    Try (Host Library Plugin) PluginError Plugin := do
  let lib : Library ← Try.of (ask (.libraryNew libPath)) fun e =>
    .pluginLoad manifest.name ("dlopen failed: " ++ e)
  let symbol : Except String Unit ← Try.lift (ask (.libraryGet lib manifest.entrySymbol))
  match symbol with
  | .error e => do
      Try.lift (ask (.libraryClose lib))
      throw (.pluginLoad manifest.name
        ("entry symbol '" ++ manifest.entrySymbol ++ "' not found: " ++ e))
  | .ok _ => do
      let raw : Option Plugin ← Try.lift (ask (.create lib manifest.entrySymbol))
      match raw with
      | none => do
          Try.lift (ask (.libraryClose lib))
          throw (.pluginLoad manifest.name "entry symbol returned null")
      -- the library is forgotten, and so stays open
      | some plugin => pure plugin

def manifestPath (pluginDir : PathBuf) : PathBuf := join pluginDir (path "manifest.toml")

def loadOne (pluginDir : PathBuf) : Try (Host Library Plugin) PluginError (Manifest × Plugin) := do
  let text : String ← Try.of (ask (.readToString (manifestPath pluginDir))) fun e =>
    .pluginLoad (display pluginDir) ("cannot read manifest.toml: " ++ e)
  match cfg.fromStr text with
  | .error e => throw (.pluginLoad (display pluginDir) ("manifest parse error: " ++ e))
  | .ok manifest =>
      match cfg.sandbox.validateCapabilities manifest.toPluginManifest with
      | .error e => throw e
      | .ok _ => do
          let libPath ← findLibrary cfg pluginDir manifest.name
          let plugin ← loadLibrary libPath manifest
          pure (manifest, plugin)

/-- A directory whose name is not a text goes by the empty name. -/
def dirName (dirPath : PathBuf) : String := ((fileName dirPath).bind toStr).getD ""

def isEnabled (dirPath : PathBuf) : Bool :=
  cfg.enabled.isEmpty || cfg.enabled.contains (dirName dirPath)

def loadEntries (pluginsDir : PathBuf) (loaded : List (Manifest × Plugin)) :
    List (Except String OsString) →
      Try (Host Library Plugin) LoadError (List (Manifest × Plugin))
  | [] => pure loaded
  | .error e :: _ => throw (.io e)
  | .ok name :: entries => do
      let dirPath := join pluginsDir name
      let dir : Bool ← Try.lift (ask (.isDir dirPath))
      if !dir then loadEntries pluginsDir loaded entries
      else if !isEnabled cfg dirPath then loadEntries pluginsDir loaded entries
      else do
        let one : Except PluginError (Manifest × Plugin) ← Try.lift (loadOne cfg dirPath).run
        match one with
        | .ok pair => loadEntries pluginsDir (loaded ++ [pair]) entries
        | .error _ => loadEntries pluginsDir loaded entries

def loadFromDir (pluginsDir : PathBuf) :
    Try (Host Library Plugin) LoadError (List (Manifest × Plugin)) := do
  let present : Bool ← Try.lift (ask (.pathExists pluginsDir))
  if !present then pure []
  else do
    let entries : List (Except String OsString) ←
      Try.of (ask (.readDir pluginsDir)) LoadError.io
    loadEntries cfg pluginsDir [] entries

/-! ## A directory at rest -/

/-- A file system and a linker that nobody changes. -/
structure Resting (Library Plugin : Type) where
  pathExists : PathBuf → Bool
  isDir : PathBuf → Bool
  readToString : PathBuf → Except String String
  new : PathBuf → Except String Library
  get : Library → String → Except String Unit
  create : Library → String → Option Plugin

/-- The listing of the directory of plugins, in its order; it can fail, at once or half-way. -/
abbrev Listing := Except String (List (Except String OsString))

/-- A directory that can be listed to its end. -/
def listed (names : List OsString) : Listing := .ok (names.map .ok)

def Resting.handler (fs : Resting Library Plugin) (listing : Listing) :
    Prog.Handler (Host Library Plugin) Unit := fun o s =>
  match o with
  | .pathExists p => (fs.pathExists p, s)
  | .readDir _ => (listing, s)
  | .isDir p => (fs.isDir p, s)
  | .readToString p => (fs.readToString p, s)
  | .libraryNew p => (fs.new p, s)
  | .libraryGet lib symbol => (fs.get lib symbol, s)
  | .create lib symbol => (fs.create lib symbol, s)
  | .libraryClose _ => ((), s)

/-- Two subdirectories of which one is without a manifest. -/
def bareSetup : Setup where
  target := .other
  sandbox := .new true
  enabled := []
  fromStr text := .ok ⟨⟨text, [.readMemory]⟩, "create_plugin"⟩

def shelf : Resting Nat Nat where
  pathExists p := p = path "plugins" ∨ p = path "plugins/good/libgood.so"
  isDir _ := true
  readToString p := if p = path "plugins/good/manifest.toml" then .ok "good" else .error "missing"
  new _ := .ok 1
  get _ _ := .ok ()
  create _ _ := some 7

/-! ## What a history shows -/

section History

variable (pluginsDir : PathBuf)

/-- The library that is open and has yet to give a plugin. -/
def holdingAfter : Option Library → Event Library Plugin → Option Library
  | _, ⟨.libraryNew _, .ok lib⟩ => some lib
  | _, ⟨.create .., some _⟩ => none
  | _, ⟨.libraryClose _, _⟩ => none
  | held, _ => held

def holding (evs : List (Event Library Plugin)) : Option Library := evs.foldl holdingAfter none

def openedBy : Event Library Plugin → Option Library
  | ⟨.libraryNew _, .ok lib⟩ => some lib
  | _ => none

def closedBy : Event Library Plugin → Option Library
  | ⟨.libraryClose lib, _⟩ => some lib
  | _ => none

/-- The plugin that was made, with its library. -/
def madeBy : Event Library Plugin → Option (Library × Plugin)
  | ⟨.create lib _, some plugin⟩ => some (lib, plugin)
  | _ => none

def opened (evs : List (Event Library Plugin)) : List Library := evs.filterMap openedBy

def closed (evs : List (Event Library Plugin)) : List Library := evs.filterMap closedBy

def made (evs : List (Event Library Plugin)) : List (Library × Plugin) := evs.filterMap madeBy

/-- The places a library is looked for, in order. -/
def candidates (pluginDir : PathBuf) (name : String) (exts : List String) : List PathBuf :=
  exts.flatMap fun ext =>
    [withExtension pluginDir name ext, withExtension pluginDir ("lib" ++ name) ext]

def answered (found : Bool) (libPath : PathBuf) : Event Library Plugin :=
  ⟨.pathExists libPath, found⟩

/-- The questions that end in `libPath`: it is the first candidate to exist. -/
def Chosen (pluginDir : PathBuf) (name : String) (probes : List (Event Library Plugin))
    (libPath : PathBuf) : Prop :=
  ∃ missing rest, candidates pluginDir name (extensions cfg.target) = missing ++ libPath :: rest ∧
    probes = missing.map (answered false) ++ [answered true libPath]

/-- The directory was listed, and the name was in it. -/
def Listed (name : OsString) (evs : List (Event Library Plugin)) : Prop :=
  ∃ entries, ⟨.readDir pluginsDir, .ok entries⟩ ∈ evs ∧ .ok name ∈ entries

/-- What came before, when `libPath` may be opened as the library of a manifest: all that was
asked since the subdirectory was found to be one. -/
def Vetted (name : OsString) (manifest : Manifest) (pre : List (Event Library Plugin))
    (libPath : PathBuf) : Prop :=
  ∃ earlier text probes,
    pre = earlier ++ [⟨.isDir (join pluginsDir name), true⟩,
      ⟨.readToString (manifestPath (join pluginsDir name)), .ok text⟩] ++ probes ∧
    Listed pluginsDir name earlier ∧
    isEnabled cfg (join pluginsDir name) = true ∧
    cfg.fromStr text = .ok manifest ∧
    cfg.sandbox.validateCapabilities manifest.toPluginManifest = .ok () ∧
    Chosen cfg (join pluginsDir name) manifest.name probes libPath

/-- A manifest that names a library with a separator in it may lead out of the directory of its
plugin, and no other. -/
def Warranted (pre : List (Event Library Plugin)) (libPath : PathBuf) : Prop :=
  ∃ name manifest, Vetted cfg pluginsDir name manifest pre libPath ∧
    ('/' ∉ manifest.name.toList → Under (join pluginsDir name) libPath)

/-- What the loader may ask next.  A library is asked for its symbol, called and closed while it
is the one held, and it is called by the symbol it has just been found to have. -/
def Allowed (pre : List (Event Library Plugin)) : Op Library → Prop
  | .libraryNew libPath => holding pre = none ∧ Warranted cfg pluginsDir pre libPath
  | .libraryGet lib _ => holding pre = some lib
  | .create lib symbol =>
      holding pre = some lib ∧ pre.getLast? = some ⟨.libraryGet lib symbol, .ok ()⟩
  | .libraryClose lib => holding pre = some lib
  | _ => True

/-- The library of each plugin made is still open, and every other library is closed. -/
def Accounted (evs : List (Event Library Plugin)) : Prop :=
  holding evs = none ∧ (opened evs).Perm (closed evs ++ (made evs).map Prod.fst)

end History

/-! ## Histories that go on -/

section Growing

variable {pre evs : List (Event Library Plugin)}

@[simp] theorem holding_snoc (ev : Event Library Plugin) :
    holding (pre ++ [ev]) = holdingAfter (holding pre) ev := by
  simp [holding]

/-- What neither opens, calls nor closes a library. -/
def Op.idle : Op Library → Bool
  | .libraryNew _ | .create .. | .libraryClose _ => false
  | _ => true

theorem holdingAfter_idle {ev : Event Library Plugin} (h : ev.1.idle = true)
    (held : Option Library) : holdingAfter held ev = held := by
  obtain ⟨o, r⟩ := ev
  cases o <;> first | rfl | exact absurd h Bool.false_ne_true

theorem holding_append_idle (h : ∀ ev ∈ evs, ev.1.idle = true) :
    holding (pre ++ evs) = holding pre := by
  induction evs generalizing pre with
  | nil => rw [List.append_nil]
  | cons ev evs ih =>
      rw [← List.singleton_append, ← List.append_assoc, ih fun ev' h' => h ev' (.tail _ h'),
        holding_snoc, holdingAfter_idle (h ev List.mem_cons_self)]

theorem made_append : made (pre ++ evs) = made pre ++ made evs := List.filterMap_append

theorem made_idle (h : ∀ ev ∈ evs, ev.1.idle = true) : made evs = [] := by
  refine List.filterMap_eq_nil_iff.mpr fun ev hev => ?_
  have hidle := h ev hev
  obtain ⟨o, r⟩ := ev
  cases o <;> first | rfl | exact absurd hidle Bool.false_ne_true

theorem filterMap_snoc {β γ : Type} (f : β → Option γ) (l : List β) (b : β) :
    (l ++ [b]).filterMap f = l.filterMap f ++ (f b).toList := by
  rw [List.filterMap_append, List.filterMap_cons]
  cases f b <;> rfl

/-- Of a history that keeps to the rules, the libraries opened are those closed, those that gave
a plugin and the one that is held. -/
theorem balanced {pluginsDir : PathBuf}
    (h : ∀ pre ev post, evs = pre ++ ev :: post → Allowed cfg pluginsDir pre ev.1) :
    (opened evs).Perm (closed evs ++ (made evs).map Prod.fst ++ (holding evs).toList) := by
  induction evs using List.reverseRecOn with
  | nil => exact .nil
  | append_singleton evs ev ih =>
      have hbal := ih fun pre ev' post hsplit => h pre ev' (post ++ [ev]) (by simp [hsplit])
      have hallowed := h evs ev [] rfl
      classical
      rw [List.perm_iff_count] at hbal ⊢
      intro lib
      have hcount := hbal lib
      rw [opened, closed, made, filterMap_snoc, filterMap_snoc, filterMap_snoc, holding_snoc]
      rw [opened, closed, made] at hcount
      obtain ⟨o, r⟩ := ev
      cases o with
      | libraryNew libPath =>
          cases r with
          | error e => simpa [openedBy, closedBy, madeBy, holdingAfter] using hcount
          | ok lib' =>
              rw [hallowed.1] at hcount
              simp [openedBy, closedBy, madeBy, holdingAfter, List.count_cons] at hcount ⊢
              omega
      | create lib' symbol =>
          cases r with
          | none => simpa [openedBy, closedBy, madeBy, holdingAfter] using hcount
          | some plugin =>
              rw [hallowed.1] at hcount
              simpa [openedBy, closedBy, madeBy, holdingAfter, Nat.add_assoc] using hcount
      | libraryClose lib' =>
          rw [show holding evs = some lib' from hallowed] at hcount
          simp [openedBy, closedBy, madeBy, holdingAfter, List.count_cons] at hcount ⊢
          omega
      | _ => simpa [openedBy, closedBy, madeBy, holdingAfter] using hcount

end Growing

/-! ## Inside the directory -/

theorem isName_append {name : String} (h : '/' ∉ name.toList) {ext : String}
    (hext : ext = "so" ∨ ext = "dylib") : IsName (path (name ++ "." ++ ext)) := by
  have hmem : ∀ c, OsChar.char c ∈ path (name ++ "." ++ ext) → c ∈ name.toList ∨ c = '.' ∨
      c ∈ ext.toList := by
    intro c hc
    simpa [path, osString, or_assoc] using hc
  constructor
  · intro hsep
    rcases hmem _ hsep with hc | hc | hc
    · exact h hc
    · cases hc
    · rcases hext with rfl | rfl <;> revert hc <;> decide
  · have hlen : 3 ≤ (path (name ++ "." ++ ext)).length := by
      have : 2 ≤ ext.toList.length := by rcases hext with rfl | rfl <;> decide
      simp [path, osString] at this ⊢
      omega
    unfold named
    rw [if_neg, if_neg]
    · intro hdots
      rw [hdots] at hlen
      exact absurd hlen (by decide)
    · rintro (hnil | hdot)
      · rw [hnil] at hlen
        exact absurd hlen (by decide)
      · rw [hdot] at hlen
        exact absurd hlen (by decide)

/-- A candidate lies in the directory, unless the name has a separator in it. -/
theorem under_of_candidate {pluginDir libPath : PathBuf} {name : String} (h : '/' ∉ name.toList)
    (hmem : libPath ∈ candidates pluginDir name (extensions cfg.target)) :
    Under pluginDir libPath := by
  obtain ⟨ext, hext, hmem⟩ := List.mem_flatMap.mp hmem
  have hext : ext = "so" ∨ ext = "dylib" := by
    revert hext
    cases cfg.target with
    | macos => simp [extensions, or_comm]
    | other => simpa [extensions] using .inl
  rcases List.mem_pair.mp hmem with rfl | rfl
  · exact under_join (isName_append h hext)
  · exact under_join (isName_append (by simpa using h) hext)

/-! ## The loader keeps to the rules -/

section Rules

variable {pluginsDir : PathBuf} {past evs : List (Event Library Plugin)}

abbrev rules (pluginsDir : PathBuf) :
    Prog.Protocol (Host Library Plugin) (List (Event Library Plugin)) :=
  Prog.recorded (Allowed cfg pluginsDir)

/-- What a piece of the loader leaves: no library is held, and the plugins made since. -/
structure Settled (past evs : List (Event Library Plugin)) (plugins : List Plugin) : Prop where
  grown : past <+: evs
  holding : holding evs = none
  made : (made evs).map Prod.snd = (made past).map Prod.snd ++ plugins

theorem Settled.trans {mid : List (Event Library Plugin)} {first second : List Plugin}
    (h : Settled past mid first) (h' : Settled mid evs second) :
    Settled past evs (first ++ second) where
  grown := h.grown.trans h'.grown
  holding := h'.holding
  made := by rw [h'.made, h.made, List.append_assoc]

/-- The events of `l`, one after the other. -/
theorem settled_after (l : List (Event Library Plugin)) {plugins : List Plugin}
    (hheld : holding (l.foldl (fun evs ev => evs ++ [ev]) past) = none)
    (hmade : (made l).map Prod.snd = plugins) :
    Settled past (l.foldl (fun evs ev => evs ++ [ev]) past) plugins := by
  have hl : l.foldl (fun evs ev => evs ++ [ev]) past = past ++ l := by
    rw [List.foldl_append_eq_append, ← List.flatMap_def, List.flatMap_singleton']
  rw [hl] at hheld ⊢
  exact ⟨List.prefix_append _ _, hheld, by rw [made_append, List.map_append, hmade]⟩

theorem settled_idle (hpast : holding past = none) (h : ∀ ev ∈ evs, ev.1.idle = true) :
    Settled past (past ++ evs) [] where
  grown := List.prefix_append _ _
  holding := by rw [holding_append_idle h, hpast]
  made := by rw [made_append, made_idle h, List.append_nil, List.append_nil]

/-- It leaves plugins with manifests that the sandbox passes. -/
structure Loads (past evs : List (Event Library Plugin)) (loaded : List (Manifest × Plugin)) :
    Prop extends Settled past evs (loaded.map Prod.snd) where
  passed : ∀ pair ∈ loaded, cfg.sandbox.validateCapabilities pair.1.toPluginManifest = .ok ()

variable {cfg} in
theorem Loads.trans {mid : List (Event Library Plugin)} {first second : List (Manifest × Plugin)}
    (h : Loads cfg past mid first) (h' : Loads cfg mid evs second) :
    Loads cfg past evs (first ++ second) where
  toSettled := by
    rw [List.map_append]
    exact h.toSettled.trans h'.toSettled
  passed pair hpair := (List.mem_append.mp hpair).elim (h.passed pair) (h'.passed pair)

theorem loads_nil (h : Settled past evs []) : Loads cfg past evs [] := ⟨h, fun _ h => nomatch h⟩

theorem idle_answered {found : Bool} {paths : List PathBuf} :
    ∀ ev ∈ paths.map (answered found : PathBuf → Event Library Plugin),
      ev.1.idle = true := by
  intro ev hev
  obtain ⟨libPath, -, rfl⟩ := List.mem_map.mp hev
  rfl

theorem idle_probes (missing : List PathBuf) (libPath : PathBuf) :
    ∀ ev ∈ missing.map (answered false : PathBuf → Event Library Plugin) ++
      [answered true libPath], ev.1.idle = true := by
  intro ev hev
  rcases List.mem_append.mp hev with hev | hev
  · exact idle_answered ev hev
  · rw [List.mem_singleton.mp hev]
    rfl

theorem warranted_of_chosen {name : OsString} {manifest : Manifest} {text : String}
    {missing rest : List PathBuf} {libPath : PathBuf} {earlier : List (Event Library Plugin)}
    (hlisted : Listed pluginsDir name earlier)
    (henabled : isEnabled cfg (join pluginsDir name) = true)
    (hdir : past = earlier ++ [⟨.isDir (join pluginsDir name), true⟩])
    (hparse : cfg.fromStr text = .ok manifest)
    (hvalid : cfg.sandbox.validateCapabilities manifest.toPluginManifest = .ok ())
    (hsplit : candidates (join pluginsDir name) manifest.name (extensions cfg.target) =
      missing ++ libPath :: rest) :
    Warranted cfg pluginsDir (past ++ [⟨.readToString (manifestPath (join pluginsDir name)),
      .ok text⟩] ++ (missing.map (answered false) ++ [answered true libPath])) libPath := by
  refine ⟨name, manifest, ⟨earlier, text, _, by simp [hdir], hlisted, henabled, hparse, hvalid,
    missing, rest, hsplit, rfl⟩, fun hname => under_of_candidate cfg hname ?_⟩
  rw [hsplit]
  exact List.mem_append_right _ List.mem_cons_self

theorem wp_findIn {pluginDir : PathBuf} {name : String} {exts : List String}
    {Q : List (Event Library Plugin) → Except PluginError PathBuf → Prop}
    (hfound : ∀ missing libPath rest,
      candidates pluginDir name exts = missing ++ libPath :: rest →
      Q (past ++ (missing.map (answered false) ++ [answered true libPath])) (.ok libPath))
    (hnone : ∀ e, Q (past ++ (candidates pluginDir name exts).map (answered false)) (.error e)) :
    (findIn pluginDir name exts).run.wp (rules cfg pluginsDir) Q past := by
  induction exts generalizing past with
  | nil =>
      have hend := hnone (.pluginLoad name ("no shared library found in " ++ display pluginDir))
      rwa [show candidates pluginDir name [] = [] from rfl, List.map_nil, List.append_nil] at hend
  | cons ext exts ih =>
      have hsplit : candidates pluginDir name (ext :: exts) = withExtension pluginDir name ext ::
          withExtension pluginDir ("lib" ++ name) ext :: candidates pluginDir name exts := rfl
      refine Try.wp_lift_bind.mpr ⟨trivial, fun found => ?_⟩
      cases found with
      | true => exact hfound [] _ _ hsplit
      | false =>
          refine Try.wp_lift_bind.mpr ⟨trivial, fun found => ?_⟩
          cases found with
          | true =>
              have hsecond := hfound [withExtension pluginDir name ext] _ _ hsplit
              rwa [← List.append_assoc] at hsecond
          | false =>
              have hpast : ∀ l : List (Event Library Plugin),
                  past ++ [answered false (withExtension pluginDir name ext)] ++
                    [answered false (withExtension pluginDir ("lib" ++ name) ext)] ++ l =
                  past ++ (answered false (withExtension pluginDir name ext) ::
                    answered false (withExtension pluginDir ("lib" ++ name) ext) :: l) := by
                intro l
                simp
              refine ih (fun missing libPath rest h => ?_) fun e => ?_
              · have hlater := hfound (withExtension pluginDir name ext ::
                  withExtension pluginDir ("lib" ++ name) ext :: missing) libPath rest
                  (by rw [hsplit, h]; rfl)
                exact (hpast _).symm ▸ hlater
              · have hend := hnone e
                rw [hsplit] at hend
                exact (hpast _).symm ▸ hend

/-- A library that is opened for good reason gives a plugin and stays open, or is closed. -/
theorem wp_loadLibrary {libPath : PathBuf} {manifest : Manifest} (hpast : holding past = none)
    (hwarrant : Warranted cfg pluginsDir past libPath) :
    (loadLibrary libPath manifest).run.wp (rules cfg pluginsDir)
      (fun evs (r : Except PluginError Plugin) => Settled past evs r.toOption.toList) past := by
  refine Try.wp_of_bind.mpr ⟨⟨hpast, hwarrant⟩, fun r => ?_⟩
  cases r with
  | error e => exact settled_after [_] ((holding_snoc _).trans hpast) rfl
  | ok lib =>
      have hopen : holding (past ++ [⟨.libraryNew libPath, .ok lib⟩]) = some lib := holding_snoc _
      refine Try.wp_lift_bind.mpr ⟨hopen, fun symbol => ?_⟩
      have hheld : holding (past ++ [⟨.libraryNew libPath, .ok lib⟩] ++
          [⟨.libraryGet lib manifest.entrySymbol, symbol⟩]) = some lib :=
        (holding_snoc _).trans hopen
      cases symbol with
      | error e =>
          refine Try.wp_lift_bind.mpr ⟨hheld, fun u => ?_⟩
          exact settled_after [_, _, _] (holding_snoc _) rfl
      | ok u =>
          refine Try.wp_lift_bind.mpr ⟨⟨hheld, List.getLast?_concat⟩, fun raw => ?_⟩
          cases raw with
          | none =>
              have hstill : holding (past ++ [⟨.libraryNew libPath, .ok lib⟩] ++
                  [⟨.libraryGet lib manifest.entrySymbol, .ok u⟩] ++
                  [⟨.create lib manifest.entrySymbol, none⟩]) = some lib :=
                (holding_snoc _).trans hheld
              refine Try.wp_lift_bind.mpr ⟨hstill, fun u => ?_⟩
              exact settled_after [_, _, _, _] (holding_snoc _) rfl
          | some plugin => exact settled_after [_, _, _] (holding_snoc _) rfl

/-- A subdirectory that was listed, is one and is enabled. -/
theorem wp_loadOne {name : OsString} {earlier : List (Event Library Plugin)}
    (hpast : holding past = none) (hlisted : Listed pluginsDir name earlier)
    (henabled : isEnabled cfg (join pluginsDir name) = true)
    (hdir : past = earlier ++ [⟨.isDir (join pluginsDir name), true⟩]) :
    (loadOne cfg (join pluginsDir name)).run.wp (rules cfg pluginsDir)
      (fun evs (r : Except PluginError (Manifest × Plugin)) =>
        Loads cfg past evs r.toOption.toList) past := by
  refine Try.wp_of_bind.mpr ⟨trivial, fun r => ?_⟩
  cases r with
  | error e => exact loads_nil cfg (settled_after [_] ((holding_snoc _).trans hpast) rfl)
  | ok text =>
      have hread : Settled past (past ++ [⟨.readToString (manifestPath (join pluginsDir name)),
          .ok text⟩]) [] := settled_after [_] ((holding_snoc _).trans hpast) rfl
      simp only [Prog.wp_pure]
      cases hparse : cfg.fromStr text with
      | error e => exact loads_nil cfg hread
      | ok manifest =>
          simp only
          cases hvalid : cfg.sandbox.validateCapabilities manifest.toPluginManifest with
          | error e => exact loads_nil cfg hread
          | ok u =>
              refine Try.wp_bind.mpr (wp_findIn cfg (fun missing libPath rest hsplit => ?_)
                fun e => loads_nil cfg (hread.trans (settled_idle hread.holding idle_answered)))
              have hprobed := hread.trans (settled_idle hread.holding
                (idle_probes missing libPath))
              have hwarrant := warranted_of_chosen cfg hlisted henabled hdir hparse hvalid hsplit
              refine Try.wp_bind.mpr (Prog.wp_mono (fun evs r h => ?_)
                (wp_loadLibrary cfg hprobed.holding hwarrant))
              cases r with
              | error e => exact loads_nil cfg (hprobed.trans h)
              | ok plugin =>
                  refine ⟨hprobed.trans h, fun pair hpair => ?_⟩
                  rw [List.mem_singleton.mp hpair]
                  exact hvalid

/-- The loop over what is left of a listing. -/
theorem wp_loadEntries {all entries : List (Except String OsString)}
    {loaded : List (Manifest × Plugin)} (hpast : holding past = none)
    (hlisted : ⟨.readDir pluginsDir, .ok all⟩ ∈ past) (hentries : entries ⊆ all) :
    (loadEntries cfg pluginsDir loaded entries).run.wp (rules cfg pluginsDir)
      (fun evs (r : Except LoadError (List (Manifest × Plugin))) => holding evs = none ∧
        ∀ result, r = .ok result → ∃ more, result = loaded ++ more ∧ Loads cfg past evs more)
      past := by
  induction entries generalizing past loaded with
  | nil =>
      refine ⟨hpast, fun result hresult => ⟨[], ?_, ?_⟩⟩
      · rw [List.append_nil, Except.ok.inj hresult]
      · exact loads_nil cfg (settled_after [] hpast rfl)
  | cons entry entries ih =>
      have hrest : entries ⊆ all := fun _ h => hentries (List.mem_cons_of_mem _ h)
      cases entry with
      | error e => exact ⟨hpast, fun _ h => nomatch h⟩
      | ok name =>
          -- what the rest of the loop does, behind a piece that gave `one`
          have hgoes : ∀ mid one, Loads cfg past mid one →
              (loadEntries cfg pluginsDir (loaded ++ one) entries).run.wp (rules cfg pluginsDir)
                (fun evs (r : Except LoadError (List (Manifest × Plugin))) => holding evs = none ∧
                  ∀ result, r = .ok result → ∃ more, result = loaded ++ more ∧
                    Loads cfg past evs more) mid := by
            intro mid one hone
            refine Prog.wp_mono (fun evs r h => ⟨h.1, fun result hresult => ?_⟩)
              (ih hone.holding (hone.grown.subset hlisted) hrest)
            obtain ⟨more, rfl, hmore⟩ := h.2 result hresult
            exact ⟨one ++ more, List.append_assoc .., hone.trans hmore⟩
          refine Try.wp_lift_bind.mpr ⟨trivial, fun dir => ?_⟩
          have hasked : Settled past (past ++ [⟨.isDir (join pluginsDir name), dir⟩]) [] :=
            settled_after [_] ((holding_snoc _).trans hpast) rfl
          have hskip := hgoes _ [] (loads_nil cfg hasked)
          rw [List.append_nil] at hskip
          cases dir with
          | false => exact hskip
          | true =>
              simp only [Prog.wp_pure, Bool.not_true, Bool.false_eq_true, if_false]
              cases henabled : isEnabled cfg (join pluginsDir name) with
              | false => exact hskip
              | true =>
                  have hname : Listed pluginsDir name past :=
                    ⟨all, hlisted, hentries List.mem_cons_self⟩
                  refine Try.wp_lift_bind.mpr (Prog.wp_mono (fun evs r h => ?_)
                    (wp_loadOne cfg hasked.holding hname henabled rfl))
                  have hone := hgoes _ _ ((loads_nil cfg hasked).trans h)
                  rw [List.nil_append] at hone
                  cases r with
                  | error e =>
                      simp only [Except.toOption, Option.toList_none, List.append_nil] at hone
                      exact hone
                  | ok pair => exact hone

/-- The whole of the loader. -/
theorem wp_loadFromDir :
    (loadFromDir cfg pluginsDir).run.wp (rules cfg pluginsDir)
      (fun evs (r : Except LoadError (List (Manifest × Plugin))) =>
        holding (evs : List (Event Library Plugin)) = none ∧
          ∀ loaded, r = .ok loaded → Loads cfg [] evs loaded) [] := by
  refine Try.wp_lift_bind.mpr ⟨trivial, fun present => ?_⟩
  cases present with
  | false =>
      refine ⟨rfl, fun loaded hloaded => ?_⟩
      obtain rfl := Except.ok.inj hloaded
      exact loads_nil cfg (settled_after [_] rfl rfl)
  | true =>
      refine Try.wp_of_bind.mpr ⟨trivial, fun r => ?_⟩
      cases r with
      | error e => exact ⟨rfl, fun _ h => nomatch h⟩
      | ok all =>
          simp only [Prog.wp_pure]
          refine Prog.wp_mono (fun evs r h => ⟨h.1, fun loaded hloaded => ?_⟩)
            (wp_loadEntries cfg rfl (List.mem_append_right _ List.mem_cons_self)
              (List.Subset.refl all))
          obtain ⟨more, rfl, hmore⟩ := h.2 loaded hloaded
          exact (loads_nil cfg (settled_after [_, _] rfl rfl)).trans hmore

end Rules

/-! ## The loader -/

/-- Whatever the file system and the linker reply, and whatever others do to the directory
meanwhile: a library is opened for a listed, enabled directory with a manifest that the sandbox
passes, as the first candidate found to exist; it is called by a symbol it has just been found
to have, and closed if it gives no plugin; and what is returned are the plugins made, in order,
with manifests that the sandbox passes. -/
theorem loadFromDir_warranted {σ : Type} {R : Prog.Rel (Host Library Plugin) σ}
    {pluginsDir : PathBuf} {s s' : σ} {evs : List (Event Library Plugin)}
    {result : Except LoadError (List (Manifest × Plugin))}
    (h : Prog.ExecTrace R (loadFromDir cfg pluginsDir).run s evs result s') :
    (∀ pre ev post, evs = pre ++ ev :: post → Allowed cfg pluginsDir pre ev.1) ∧
      Accounted evs ∧
      ∀ loaded, result = .ok loaded →
        (made evs).map Prod.snd = loaded.map Prod.snd ∧
        ∀ pair ∈ loaded, cfg.sandbox.validateCapabilities pair.1.toPluginManifest = .ok () := by
  obtain ⟨hallowed, hholding, hloaded⟩ := h.keeps (wp_loadFromDir cfg)
  rw [List.nil_append] at hholding hloaded
  have hrules : ∀ pre ev post, evs = pre ++ ev :: post → Allowed cfg pluginsDir pre ev.1 :=
    fun pre ev post hsplit => List.nil_append pre ▸ hallowed pre ev post hsplit
  refine ⟨hrules, ⟨hholding, ?_⟩, fun loaded hresult => ?_⟩
  · have hbalance := balanced cfg hrules
    rwa [hholding, Option.toList_none, List.append_nil] at hbalance
  · have hloads := hloaded loaded hresult
    exact ⟨hloads.made, hloads.passed⟩

theorem loadFromDir_warranted_shelf :
    Accounted ((loadFromDir bareSetup (path "plugins")).run.events
      (shelf.handler (listed [path "bad", path "good"])) ()) ∧
    made ((loadFromDir bareSetup (path "plugins")).run.events
      (shelf.handler (listed [path "bad", path "good"])) ()) = [(1, 7)] :=
  ⟨(loadFromDir_warranted bareSetup (Prog.traced_events _ _ _)).2.1, rfl⟩

/-! ## What a directory at rest holds -/

section Rest

/-- A directory that holds a plugin to be loaded, with its manifest. -/
def Loadable (fs : Resting Library Plugin) (dirPath : PathBuf) (pair : Manifest × Plugin) : Prop :=
  fs.isDir dirPath = true ∧ isEnabled cfg dirPath = true ∧
  (∃ text, fs.readToString (manifestPath dirPath) = .ok text ∧ cfg.fromStr text = .ok pair.1) ∧
  cfg.sandbox.validateCapabilities pair.1.toPluginManifest = .ok () ∧
  ∃ libPath lib,
    (candidates dirPath pair.1.name (extensions cfg.target)).find? fs.pathExists = some libPath ∧
    fs.new libPath = .ok lib ∧ fs.get lib pair.1.entrySymbol = .ok () ∧
    fs.create lib pair.1.entrySymbol = some pair.2

variable (fs : Resting Library Plugin) (listing : Listing)

@[simp] theorem run_pathExists (p : PathBuf) :
    (ask (.pathExists p)).run (fs.handler listing) () = (fs.pathExists p, ()) := rfl

@[simp] theorem run_isDir (p : PathBuf) :
    (ask (.isDir p)).run (fs.handler listing) () = (fs.isDir p, ()) := rfl

@[simp] theorem run_readToString (p : PathBuf) :
    (ask (.readToString p)).run (fs.handler listing) () = (fs.readToString p, ()) := rfl

@[simp] theorem run_libraryNew (p : PathBuf) :
    (ask (.libraryNew p)).run (fs.handler listing) () = (fs.new p, ()) := rfl

@[simp] theorem run_libraryGet (lib : Library) (symbol : String) :
    (ask (.libraryGet lib symbol)).run (fs.handler listing) () = (fs.get lib symbol, ()) := rfl

@[simp] theorem run_create (lib : Library) (symbol : String) :
    (ask (.create lib symbol)).run (fs.handler listing) () = (fs.create lib symbol, ()) := rfl

/-- A library is found where the first candidate is. -/
theorem eval_findIn (dirPath : PathBuf) (name : String) (exts : List String) :
    ((findIn dirPath name exts).eval (fs.handler listing) ()).1.toOption =
      (candidates dirPath name exts).find? fs.pathExists := by
  induction exts with
  | nil => rfl
  | cons ext exts ih =>
      have hsplit : candidates dirPath name (ext :: exts) = withExtension dirPath name ext ::
          withExtension dirPath ("lib" ++ name) ext :: candidates dirPath name exts := rfl
      rw [hsplit, List.find?_cons, List.find?_cons, findIn, Try.eval_lift_bind, run_pathExists]
      cases fs.pathExists (withExtension dirPath name ext) with
      | true => rfl
      | false =>
          simp only [Bool.false_eq_true, if_false]
          rw [Try.eval_lift_bind, run_pathExists]
          cases fs.pathExists (withExtension dirPath ("lib" ++ name) ext) with
          | true => rfl
          | false => exact ih

theorem eval_loadLibrary (libPath : PathBuf) (manifest : Manifest) (plugin : Plugin) :
    ((loadLibrary libPath manifest).eval (fs.handler listing) ()).1.toOption = some plugin ↔
      ∃ lib, fs.new libPath = .ok lib ∧ fs.get lib manifest.entrySymbol = .ok () ∧
        fs.create lib manifest.entrySymbol = some plugin := by
  rw [loadLibrary, Try.eval_of_bind, run_libraryNew]
  cases fs.new libPath with
  | error e => simp [Except.toOption]
  | ok lib =>
      simp only
      rw [Try.eval_lift_bind, run_libraryGet]
      cases hget : fs.get lib manifest.entrySymbol with
      | error e => simp [Try.eval_lift_bind, Except.toOption, hget]
      | ok u =>
          simp only
          rw [Try.eval_lift_bind, run_create]
          cases hcreate : fs.create lib manifest.entrySymbol with
          | none => simp [Try.eval_lift_bind, Except.toOption, hcreate]
          | some plugin' => simp [Except.toOption, hget, hcreate]

/-- What is found and loaded for a manifest that the sandbox passes. -/
theorem eval_found (dirPath : PathBuf) (manifest : Manifest) (pair : Manifest × Plugin) :
    ((findLibrary cfg dirPath manifest.name >>= fun libPath =>
      loadLibrary libPath manifest >>= fun plugin => pure (manifest, plugin)).eval
        (fs.handler listing) ()).1.toOption = some pair ↔
      pair.1 = manifest ∧ ∃ libPath lib,
        (candidates dirPath manifest.name (extensions cfg.target)).find? fs.pathExists =
          some libPath ∧
        fs.new libPath = .ok lib ∧ fs.get lib manifest.entrySymbol = .ok () ∧
        fs.create lib manifest.entrySymbol = some pair.2 := by
  have hfind := eval_findIn fs listing dirPath manifest.name (extensions cfg.target)
  rw [Try.eval_bind, findLibrary, ← hfind]
  cases (findIn dirPath manifest.name (extensions cfg.target)).eval (fs.handler listing) () with
  | mk r s =>
      cases r with
      | error e => simp [Except.toOption]
      | ok libPath =>
          have hload := eval_loadLibrary fs listing libPath manifest
          simp only
          rw [Try.eval_bind]
          cases hr : (loadLibrary libPath manifest).eval (fs.handler listing) s with
          | mk r s' =>
              rw [hr] at hload
              cases r with
              | error e =>
                  constructor
                  · intro h
                    cases h
                  · rintro ⟨-, libPath', lib, hpath, hlib⟩
                    obtain rfl := Option.some.inj hpath
                    cases (hload pair.2).mpr ⟨lib, hlib⟩
              | ok plugin =>
                  constructor
                  · intro h
                    obtain rfl := Option.some.inj h
                    obtain ⟨lib, hlib⟩ := (hload plugin).mp rfl
                    exact ⟨rfl, libPath, lib, rfl, hlib⟩
                  · rintro ⟨hmanifest, libPath', lib, hpath, hlib⟩
                    obtain rfl := Option.some.inj hpath
                    have hplugin := Option.some.inj ((hload pair.2).mpr ⟨lib, hlib⟩)
                    exact congrArg some (Prod.ext hmanifest.symm hplugin)

/-- A subdirectory is loaded if it holds a plugin to be loaded, and gives nothing else. -/
theorem eval_loadOne {dirPath : PathBuf} (hdir : fs.isDir dirPath = true)
    (henabled : isEnabled cfg dirPath = true) (pair : Manifest × Plugin) :
    ((loadOne cfg dirPath).eval (fs.handler listing) ()).1.toOption = some pair ↔
      Loadable cfg fs dirPath pair := by
  unfold Loadable
  rw [and_iff_right hdir, and_iff_right henabled, loadOne, Try.eval_of_bind, run_readToString]
  cases hread : fs.readToString (manifestPath dirPath) with
  | error e => simp [Except.toOption]
  | ok text =>
      simp only
      cases hparse : cfg.fromStr text with
      | error e => simp [Except.toOption, hparse]
      | ok manifest =>
          simp only
          cases hvalid : cfg.sandbox.validateCapabilities manifest.toPluginManifest with
          | error e =>
              simp only [Try.eval_throw, Except.toOption]
              constructor
              · intro h
                cases h
              · rintro ⟨⟨text', htext, hmanifest⟩, hpassed, -⟩
                obtain rfl := Except.ok.inj htext
                rw [hparse] at hmanifest
                rw [← Except.ok.inj hmanifest, hvalid] at hpassed
                cases hpassed
          | ok u =>
              simp only
              rw [eval_found]
              constructor
              · rintro ⟨hmanifest, hfound⟩
                rw [hmanifest]
                exact ⟨⟨text, rfl, hparse⟩, hvalid, hfound⟩
              · rintro ⟨⟨text', htext, hmanifest⟩, -, hfound⟩
                obtain rfl := Except.ok.inj htext
                rw [hparse] at hmanifest
                rw [← Except.ok.inj hmanifest] at hfound
                exact ⟨(Except.ok.inj hmanifest).symm, hfound⟩

/-- What is loaded from a subdirectory. -/
def loads (dirPath : PathBuf) : Option (Manifest × Plugin) :=
  if fs.isDir dirPath && isEnabled cfg dirPath then
    ((loadOne cfg dirPath).eval (fs.handler (listed [])) ()).1.toOption
  else none

theorem loads_iff (dirPath : PathBuf) (pair : Manifest × Plugin) :
    loads cfg fs dirPath = some pair ↔ Loadable cfg fs dirPath pair := by
  unfold loads
  split
  next h =>
    obtain ⟨hdir, henabled⟩ := Bool.and_eq_true_iff.mp h
    exact eval_loadOne cfg fs (listed []) hdir henabled pair
  next h =>
    refine iff_of_false (fun h => nomatch h) fun hpair => h ?_
    exact Bool.and_eq_true_iff.mpr ⟨hpair.1, hpair.2.1⟩

/-- What the loop adds for one subdirectory does not depend on the listing. -/
theorem eval_loadOne_eq {dirPath : PathBuf} (hdir : fs.isDir dirPath = true)
    (henabled : isEnabled cfg dirPath = true) :
    ((loadOne cfg dirPath).eval (fs.handler listing) ()).1.toOption = loads cfg fs dirPath := by
  ext pair
  rw [eval_loadOne cfg fs listing hdir henabled, loads_iff]

/-- Names that can be read are gone through one by one. -/
theorem eval_loadEntries (pluginsDir : PathBuf) (loaded : List (Manifest × Plugin))
    (names : List OsString) (more : List (Except String OsString)) :
    (loadEntries cfg pluginsDir loaded (names.map .ok ++ more)).eval (fs.handler listing) () =
      (loadEntries cfg pluginsDir
        (loaded ++ names.filterMap fun name => loads cfg fs (join pluginsDir name)) more).eval
          (fs.handler listing) () := by
  induction names generalizing loaded with
  | nil => simp
  | cons name names ih =>
      rw [List.map_cons, List.cons_append, loadEntries, Try.eval_lift_bind, run_isDir,
        List.filterMap_cons]
      cases hdir : fs.isDir (join pluginsDir name) with
      | false =>
          have hnone : loads cfg fs (join pluginsDir name) = none := by simp [loads, hdir]
          rw [hnone]
          exact ih loaded
      | true =>
          simp only [Bool.not_true, Bool.false_eq_true, if_false]
          cases henabled : isEnabled cfg (join pluginsDir name) with
          | false =>
              have hnone : loads cfg fs (join pluginsDir name) = none := by simp [loads, henabled]
              rw [hnone]
              exact ih loaded
          | true =>
              have hone := eval_loadOne_eq cfg fs listing hdir henabled
              simp only [Bool.not_true, Bool.false_eq_true, if_false]
              rw [Try.eval_lift_bind, ← hone]
              unfold Try.eval
              cases Prog.run (fs.handler listing) (loadOne cfg (join pluginsDir name)).run () with
              | mk r s =>
                  cases r with
                  | error e => exact ih loaded
                  | ok pair =>
                      refine (ih (loaded ++ [pair])).trans ?_
                      rw [List.append_assoc]
                      rfl

/-- A listing ends, or it breaks off. -/
theorem listed_or_broken (entries : List (Except String OsString)) :
    (∃ names : List OsString, entries = names.map .ok) ∨
      ∃ (names : List OsString) (e : String) (rest : List (Except String OsString)),
        entries = names.map .ok ++ .error e :: rest := by
  induction entries with
  | nil => exact .inl ⟨[], rfl⟩
  | cons entry entries ih =>
      cases entry with
      | error e => exact .inr ⟨[], e, entries, rfl⟩
      | ok name =>
          obtain ⟨names, rfl⟩ | ⟨names, e, rest, rfl⟩ := ih
          · exact .inl ⟨name :: names, rfl⟩
          · exact .inr ⟨name :: names, e, rest, rfl⟩

section Present

variable {pluginsDir : PathBuf} (hpresent : fs.pathExists pluginsDir = true)
include hpresent

theorem eval_loadFromDir (entries : List (Except String OsString)) :
    (loadFromDir cfg pluginsDir).eval (fs.handler (.ok entries)) () =
      (loadEntries cfg pluginsDir [] entries).eval (fs.handler (.ok entries)) () := by
  rw [loadFromDir, Try.eval_lift_bind, run_pathExists, hpresent]
  rfl

theorem eval_listed (names : List OsString) :
    ((loadFromDir cfg pluginsDir).eval (fs.handler (listed names)) ()).1 =
      .ok (names.filterMap fun name => loads cfg fs (join pluginsDir name)) := by
  have hentries := eval_loadEntries cfg fs (listed names) pluginsDir [] names []
  rw [List.append_nil, List.nil_append] at hentries
  rw [listed, eval_loadFromDir cfg fs hpresent, ← listed, hentries]
  rfl

/-- A listing that breaks off is the end of the loading, whatever was loaded before. -/
theorem eval_broken (names : List OsString) (e : String) (rest : List (Except String OsString)) :
    ((loadFromDir cfg pluginsDir).eval
      (fs.handler (.ok (names.map .ok ++ .error e :: rest))) ()).1 = .error (.io e) := by
  rw [eval_loadFromDir cfg fs hpresent, eval_loadEntries]
  rfl

theorem eval_unlisted (e : String) :
    ((loadFromDir cfg pluginsDir).eval (fs.handler (.error e)) ()).1 = .error (.io e) := by
  rw [loadFromDir, Try.eval_lift_bind, run_pathExists, hpresent]
  rfl

end Present

/-- In a directory at rest the loading succeeds just when the directory can be listed to its end.
Then a plugin is loaded if its own subdirectory is in order, whatever the others hold, and the
order of the listing only orders what is returned. -/
theorem loadFromDir_at_rest (pluginsDir : PathBuf) (hpresent : fs.pathExists pluginsDir = true) :
    (∀ listing, (∃ loaded, ((loadFromDir cfg pluginsDir).eval (fs.handler listing) ()).1 =
      .ok loaded) ↔ ∃ names, listing = listed names) ∧
    ∀ names, ∃ loaded,
      ((loadFromDir cfg pluginsDir).eval (fs.handler (listed names)) ()).1 = .ok loaded ∧
      (∀ pair, pair ∈ loaded ↔ ∃ name ∈ names, Loadable cfg fs (join pluginsDir name) pair) ∧
      ∀ names', names.Perm names' → ∃ loaded',
        ((loadFromDir cfg pluginsDir).eval (fs.handler (listed names')) ()).1 = .ok loaded' ∧
          loaded.Perm loaded' := by
  have heval := eval_listed cfg fs hpresent
  refine ⟨fun listing => ⟨?_, ?_⟩, fun names => ?_⟩
  · rintro ⟨loaded, h⟩
    cases listing with
    | error e =>
        rw [eval_unlisted cfg fs hpresent] at h
        cases h
    | ok entries =>
        obtain ⟨names, rfl⟩ | ⟨names, e, rest, rfl⟩ := listed_or_broken entries
        · exact ⟨names, rfl⟩
        · rw [eval_broken cfg fs hpresent] at h
          cases h
  · rintro ⟨names, rfl⟩
    exact ⟨_, heval names⟩
  · refine ⟨_, heval names, fun pair => ?_, fun names' h => ⟨_, heval names', h.filterMap _⟩⟩
    simp only [List.mem_filterMap, loads_iff]

theorem loadFromDir_at_rest_shelf : ∃ loaded loaded',
    ((loadFromDir bareSetup (path "plugins")).eval
      (shelf.handler (listed [path "bad", path "good"])) ()).1 = .ok loaded ∧
    ((loadFromDir bareSetup (path "plugins")).eval
      (shelf.handler (listed [path "good", path "bad"])) ()).1 = .ok loaded' ∧
    loaded.Perm loaded' ∧ loaded.map Prod.snd = [7] := by
  obtain ⟨loaded, heval, -, hperm⟩ := (loadFromDir_at_rest bareSetup shelf (path "plugins") rfl).2
    [path "bad", path "good"]
  obtain ⟨loaded', heval', hloaded⟩ := hperm [path "good", path "bad"] (.swap ..)
  have hgood : loaded = [(⟨⟨"good", [.readMemory]⟩, "create_plugin"⟩, 7)] :=
    Except.ok.inj (heval.symm.trans rfl)
  exact ⟨loaded, loaded', heval, heval', hloaded, by rw [hgood]; rfl⟩

end Rest

end ClawDB.Plugins.Loader
