/-
# `Plugins.Manager` — loading the plugins of a directory

`load_from_dir` of `plugins/manager.rs`.  The directory is listed in no particular order, and
the loop ends at the first entry that fails; `ClawDB::new` goes on with what was loaded until
then.  So it depends on the order which plugins of a directory with a broken entry are loaded.
-/
import ClawDB.Lib.Path
import ClawDB.Types

namespace ClawDB.Plugins

open Unix

/-- `libloading`: the library a file holds, and the constructor behind a symbol, or the text of
an error. -/
structure Libloading (Library Plugin : Type) where
  new : PathBuf → Except String Library
  get : Library → String → Except String (Unit → Plugin)

/-- A directory, and an order in which `read_dir` lists it; an entry may fail to be read. -/
structure PluginDir where
  pathExists : Bool
  readDir : Except String (List (Except String PathBuf))

structure PluginManager (Plugin : Type) where
  plugins : List Plugin

def PluginManager.new {Plugin : Type} : PluginManager Plugin := ⟨[]⟩

def isDynamicLibrary (path : PathBuf) : Bool :=
  match (extension path).bind toStr with
  | some "so" | some "dylib" | some "dll" => true
  | _ => false

section Loading

variable {Library Plugin : Type} (libloading : Libloading Library Plugin)

/-- One turn of the loop. -/
def loadEntry (entry : Except String PathBuf) : Except ClawDBError (Option Plugin) := do
  let path ← entry.mapError .io
  if isDynamicLibrary path then
    let library ← (libloading.new path).mapError (.componentInit "plugin")
    let constructor ← (libloading.get library "clawdb_create_plugin").mapError
      (.componentInit "plugin")
    pure (some (constructor ()))
  else
    pure none

def loadEntries (manager : PluginManager Plugin) (loaded : Nat) :
    List (Except String PathBuf) → Except ClawDBError Nat × PluginManager Plugin
  | [] => (.ok loaded, manager)
  | entry :: entries =>
      match loadEntry libloading entry with
      | .error e => (.error e, manager)
      | .ok none => loadEntries manager loaded entries
      | .ok (some plugin) => loadEntries ⟨manager.plugins ++ [plugin]⟩ (loaded + 1) entries

/-- What it returns, and the manager it leaves. -/
def loadFromDir (manager : PluginManager Plugin) (dir : PluginDir) :
    Except ClawDBError Nat × PluginManager Plugin :=
  if dir.pathExists then
    match dir.readDir with
    | .error e => (.error (.io e), manager)
    | .ok entries => loadEntries libloading manager 0 entries
  else
    (.ok 0, manager)

/-- `ClawDB::new` throws away what `load_from_dir` returned. -/
def startPlugins (dir : PluginDir) : PluginManager Plugin :=
  (loadFromDir libloading .new dir).2

/-! ## What an entry holds -/

/-- The plugin of an entry: of a dynamic library that opens and exports the constructor. -/
def exported (entry : Except String PathBuf) : Option Plugin := do
  let path ← entry.toOption
  if isDynamicLibrary path then
    let library ← (libloading.new path).toOption
    let constructor ← (libloading.get library "clawdb_create_plugin").toOption
    some (constructor ())
  else
    none

/-- An entry that cannot be read, or a dynamic library that does not open or lacks the
constructor. -/
def Broken (entry : Except String PathBuf) : Prop :=
  ∀ path, entry = .ok path → isDynamicLibrary path = true ∧
    ∀ library, libloading.new path = .ok library →
      ∀ constructor, libloading.get library "clawdb_create_plugin" ≠ .ok constructor

/-- A turn fails at a broken entry, and else gives the plugin of the entry, if it has one. -/
theorem loadEntry_spec (entry : Except String PathBuf) :
    (Broken libloading entry ∧ ∃ e, loadEntry libloading entry = .error e) ∨
      (¬ Broken libloading entry ∧
        loadEntry libloading entry = .ok (exported libloading entry)) := by
  cases entry with
  | error e => exact .inl ⟨(fun _ h => nomatch h), _, rfl⟩
  | ok path =>
      by_cases hlib : isDynamicLibrary path = true
      · simp only [loadEntry, exported, Except.mapError, bind, Except.bind, pure, Except.pure,
          hlib, if_true]
        cases hnew : libloading.new path with
        | error e =>
            refine .inl ⟨fun path' h => ?_, _, rfl⟩
            obtain rfl := Except.ok.inj h
            exact ⟨hlib, fun library hlibrary => nomatch hnew.symm.trans hlibrary⟩
        | ok library =>
            cases hget : libloading.get library "clawdb_create_plugin" with
            | error e =>
                refine .inl ⟨fun path' h => ?_, .componentInit "plugin" e, by simp only [hget]⟩
                obtain rfl := Except.ok.inj h
                refine ⟨hlib, fun library' hlibrary constructor hconstructor => ?_⟩
                obtain rfl := Except.ok.inj (hnew.symm.trans hlibrary)
                exact nomatch hget.symm.trans hconstructor
            | ok constructor =>
                refine .inr ⟨fun hbroken => ?_, ?_⟩
                · exact (hbroken path rfl).2 library hnew constructor hget
                · simp [Except.toOption, hlib, hnew, hget]
      · refine .inr ⟨fun hbroken => hlib (hbroken path rfl).1, ?_⟩
        simp [loadEntry, exported, Except.mapError, Except.toOption, bind, Except.bind, pure,
          Except.pure, hlib]

variable {libloading}

/-! ## The loop -/

theorem loadEntries_broken {entry : Except String PathBuf} (h : Broken libloading entry)
    (manager : PluginManager Plugin) (loaded : Nat) (entries : List (Except String PathBuf)) :
    (loadEntries libloading manager loaded (entry :: entries)).2 = manager := by
  rcases loadEntry_spec libloading entry with ⟨-, e, he⟩ | ⟨hno, -⟩
  · rw [loadEntries, he]
  · exact absurd h hno

/-- As long as no entry is broken, each is loaded. -/
theorem loadEntries_plugins {entries : List (Except String PathBuf)}
    (h : ∀ entry ∈ entries, ¬ Broken libloading entry) (manager : PluginManager Plugin)
    (loaded : Nat) :
    (loadEntries libloading manager loaded entries).2.plugins =
      manager.plugins ++ entries.filterMap (exported libloading) := by
  induction entries generalizing manager loaded with
  | nil => exact (List.append_nil _).symm
  | cons entry entries ih =>
      have hrest := fun e he => h e (List.mem_cons_of_mem _ he)
      rcases loadEntry_spec libloading entry with ⟨hbroken, -⟩ | ⟨-, hentry⟩
      · exact absurd hbroken (h entry List.mem_cons_self)
      · rw [loadEntries, hentry, List.filterMap_cons]
        cases exported libloading entry with
        | none => exact ih hrest _ _
        | some plugin =>
            dsimp only
            rw [ih hrest, List.append_assoc]
            rfl

/-- Nothing is ever loaded but what the entries hold. -/
theorem loadEntries_none {entries : List (Except String PathBuf)}
    (h : ∀ entry ∈ entries, exported libloading entry = none) (manager : PluginManager Plugin)
    (loaded : Nat) : (loadEntries libloading manager loaded entries).2 = manager := by
  induction entries generalizing loaded with
  | nil => rfl
  | cons entry entries ih =>
      rcases loadEntry_spec libloading entry with ⟨hbroken, -⟩ | ⟨-, hentry⟩
      · exact loadEntries_broken hbroken _ _ _
      · rw [loadEntries, hentry, h entry List.mem_cons_self]
        exact ih (fun e he => h e (List.mem_cons_of_mem _ he)) _

/-! ## Every order of a listing -/

/-- What is registered once the directory was listed in this order. -/
def registered (libloading : Libloading Library Plugin) (manager : PluginManager Plugin)
    (listing : List (Except String PathBuf)) : List Plugin :=
  (loadFromDir libloading manager ⟨true, .ok listing⟩).2.plugins

/-- Every two orders of the listing register the same plugins, one for each entry that holds
one. -/
def LoadsAll (libloading : Libloading Library Plugin) (manager : PluginManager Plugin)
    (listing : List (Except String PathBuf)) : Prop :=
  ∀ l₁ l₂, l₁.Perm listing → l₂.Perm listing →
    (registered libloading manager l₁).Perm (registered libloading manager l₂) ∧
    (registered libloading manager l₁).Perm
      (manager.plugins ++ listing.filterMap (exported libloading))

theorem LoadsAll.of_registered {manager : PluginManager Plugin}
    {listing : List (Except String PathBuf)}
    (h : ∀ l, l.Perm listing → (registered libloading manager l).Perm
      (manager.plugins ++ listing.filterMap (exported libloading))) :
    LoadsAll libloading manager listing :=
  fun l₁ l₂ h₁ h₂ => ⟨(h l₁ h₁).trans (h l₂ h₂).symm, h l₁ h₁⟩

/-- A broken entry that happens to be listed first keeps every other one out. -/
theorem nothing_registered (manager : PluginManager Plugin)
    {listing : List (Except String PathBuf)} {entry : Except String PathBuf}
    (hmem : entry ∈ listing) (hbroken : Broken libloading entry) :
    ∃ l, l.Perm listing ∧ registered libloading manager l = manager.plugins := by
  obtain ⟨front, rest, rfl⟩ := List.append_of_mem hmem
  refine ⟨entry :: (front ++ rest), List.perm_middle.symm, ?_⟩
  exact congrArg PluginManager.plugins (loadEntries_broken hbroken manager 0 _)

/-- The order does not matter, and nothing is left out, if and only if no entry is broken or
none holds a plugin. -/
theorem loadsAll_iff (libloading : Libloading Library Plugin) (manager : PluginManager Plugin)
    (listing : List (Except String PathBuf)) :
    LoadsAll libloading manager listing ↔
      (∀ entry ∈ listing, ¬ Broken libloading entry) ∨
        ∀ entry ∈ listing, exported libloading entry = none := by
  constructor
  · intro hall
    by_contra hno
    push Not at hno
    obtain ⟨⟨broken, hmem, hbroken⟩, held, hheld, hsome⟩ := hno
    obtain ⟨l, hperm, hl⟩ := nothing_registered manager hmem hbroken
    have hlength := (hall l l hperm hperm).2.length_eq
    rw [hl, List.length_append, Nat.left_eq_add, List.length_eq_zero_iff,
      List.filterMap_eq_nil_iff] at hlength
    exact hsome (hlength held hheld)
  · rintro (hsound | hnone)
    · refine .of_registered fun l hperm => ?_
      have hl : registered libloading manager l =
          manager.plugins ++ l.filterMap (exported libloading) :=
        loadEntries_plugins (fun entry hmem => hsound entry (hperm.mem_iff.mp hmem)) manager 0
      rw [hl]
      exact (hperm.filterMap _).append_left _
    · refine .of_registered fun l hperm => ?_
      have hl : registered libloading manager l = manager.plugins :=
        congrArg PluginManager.plugins (loadEntries_none
          (fun entry hmem => hnone entry (hperm.mem_iff.mp hmem)) manager 0)
      rw [hl, List.filterMap_eq_nil_iff.mpr hnone, List.append_nil]

end Loading

/-! ## A broken library beside a good one -/

/-- Libraries are named by their files; `bad.so` does not open. -/
def twoLibraries : Libloading PathBuf PathBuf where
  new file := if file = path "plugins/bad.so" then .error "invalid ELF header" else .ok file
  get library _ := .ok fun _ => library

/-- `good.so` is registered when it is listed first, and not when `bad.so` is. -/
theorem good_plugin_dropped :
    (¬ ∀ (manager : PluginManager PathBuf) (listing : List (Except String PathBuf)),
      LoadsAll twoLibraries manager listing) ∧
    (startPlugins twoLibraries ⟨true, .ok [.ok (path "plugins/good.so"),
      .ok (path "plugins/bad.so")]⟩).plugins = [path "plugins/good.so"] ∧
    (startPlugins twoLibraries ⟨true, .ok [.ok (path "plugins/bad.so"),
      .ok (path "plugins/good.so")]⟩).plugins = [] := by
  have hfirst : registered twoLibraries .new [.ok (path "plugins/good.so"),
      .ok (path "plugins/bad.so")] = [path "plugins/good.so"] := by decide
  have hlast : registered twoLibraries .new [.ok (path "plugins/bad.so"),
      .ok (path "plugins/good.so")] = [] := by decide
  refine ⟨fun hclaim => ?_, hfirst, hlast⟩
  have hswap : List.Perm [.ok (path "plugins/bad.so"), .ok (path "plugins/good.so")]
      ([.ok (path "plugins/good.so"), .ok (path "plugins/bad.so")] :
        List (Except String PathBuf)) := .swap ..
  have hsame := (hclaim .new _ _ _ (.refl _) hswap).1
  rw [hfirst, hlast] at hsame
  exact absurd hsame.length_eq (by decide)

end ClawDB.Plugins
