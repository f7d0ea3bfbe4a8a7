/-
# `Lib.Toml` — TOML tables as `serde` reads and writes them

A struct is read field by field: a key that no field has is dropped.  It is written field by
field: a field that is `None` is left out.  `rewritten_iff` says what a table keeps when it is
written anew from the fields of a struct.

A `Codec` says how the values of a type are written, and that they come back; a `Field` how one
field of a struct is, and a list of them is the struct (`Struct.read_write`).  A struct is
written as it is, and read into what may be there of it.
-/
import Mathlib.Data.List.Basic

namespace Toml

inductive Value where
  | string (s : String)
  | integer (i : Int)
  | float (bits : UInt64)
  | boolean (b : Bool)
  | datetime (text : String)
  | array (vs : List Value)
  | table (entries : List (String × Value))

abbrev Table := List (String × Value)

/-- The value under a key. -/
def get (t : Table) (key : String) : Option Value := t.lookup key

/-- A key with a value is one of the table's. -/
theorem mem_of_get_isSome {t : Table} {key : String} (h : (get t key).isSome = true) :
    key ∈ t.map Prod.fst := by
  induction t with
  | nil => cases h
  | cons kv t ih =>
      obtain ⟨k, v⟩ := kv
      by_cases he : key = k
      · exact List.mem_cons.mpr (.inl he)
      · have hk : (key == k) = false := beq_eq_false_iff_ne.mpr he
        rw [get, List.lookup_cons, hk] at h
        exact List.mem_cons_of_mem _ (ih h)

/-! ## Reading -/

/-- `Deserialize for String` -/
def string : Value → Except String String
  | .string s => .ok s
  | _ => .error "invalid type: expected a string"

/-- A field of type `Option`. -/
def field {α : Type} (key : String) (decode : Value → Except String α) (t : Table) :
    Except String (Option α) :=
  match get t key with
  | none => .ok none
  | some v => (decode v).map some

section Field

variable {α : Type} {key : String} {decode : Value → Except String α} {t : Table}
  {o : Option α}

theorem map_some_ok {x : Except String α} :
    x.map some = .ok o ↔ ∃ a, x = .ok a ∧ o = some a := by
  cases x with
  | ok a => simp [Except.map, eq_comm]
  | error e => simp [Except.map]

theorem field_ok : field key decode t = .ok o ↔
    (get t key = none ∧ o = none) ∨ ∃ v a, get t key = some v ∧ decode v = .ok a ∧ o = some a := by
  unfold field
  cases get t key with
  | none => simp [eq_comm]
  | some v =>
      show (decode v).map some = .ok o ↔ _
      rw [map_some_ok]
      simp

theorem string_ok {v : Value} {s : String} : string v = .ok s ↔ v = .string s := by
  cases v <;> simp [string]

/-- A text is kept as it is. -/
theorem field_string {o : Option String} (h : field key string t = .ok o) :
    get t key = o.map .string := by
  obtain ⟨hnone, rfl⟩ | ⟨v, s, hv, hs, rfl⟩ := field_ok.mp h
  · exact hnone
  · rw [hv, string_ok.mp hs]
    rfl

/-- A field is read from what was written of it. -/
theorem field_of_get {written : α → Value} (hget : get t key = o.map written)
    (hread : ∀ a, o = some a → decode (written a) = .ok a) : field key decode t = .ok o := by
  rw [field_ok, hget]
  cases o with
  | none => exact .inl ⟨rfl, rfl⟩
  | some a => exact .inr ⟨_, a, rfl, hread a rfl, rfl⟩

end Field

/-! ## Writing -/

/-- The fields of a struct, without those that are `None`. -/
def ofFields (fields : List (String × Option Value)) : Table :=
  fields.filterMap fun f => f.2.map fun v => (f.1, v)

section Fields

variable {fields : List (String × Option Value)} {key : String} {t : Table}

theorem get_ofFields_of_notMem (h : key ∉ fields.map Prod.fst) :
    get (ofFields fields) key = none := by
  induction fields with
  | nil => rfl
  | cons f fs ih =>
      obtain ⟨k, v⟩ := f
      simp only [List.map_cons, List.mem_cons, not_or] at h
      cases v with
      | none => exact ih h.2
      | some v =>
          have hk : (key == k) = false := beq_eq_false_iff_ne.mpr h.1
          show List.lookup key ((k, v) :: ofFields fs) = none
          rw [List.lookup_cons, hk]
          exact ih h.2

/-- With a key of its own for each field, a field is found under its key. -/
theorem get_ofFields (hkeys : (fields.map Prod.fst).Nodup) {o : Option Value}
    (h : (key, o) ∈ fields) : get (ofFields fields) key = o := by
  induction fields with
  | nil => cases h
  | cons f fs ih =>
      obtain ⟨k, v⟩ := f
      simp only [List.map_cons, List.nodup_cons] at hkeys
      rcases List.mem_cons.mp h with he | hmem
      · obtain ⟨rfl, rfl⟩ := Prod.mk.inj he
        cases o with
        | none =>
            show get (ofFields fs) key = none
            exact get_ofFields_of_notMem hkeys.1
        | some v =>
            show List.lookup key ((key, v) :: ofFields fs) = some v
            rw [List.lookup_cons, beq_self_eq_true]
      · have hne : key ≠ k := by
          rintro rfl
          exact hkeys.1 (List.mem_map_of_mem (f := Prod.fst) hmem)
        cases v with
        | none => exact ih hkeys.2 hmem
        | some v =>
            have hk : (key == k) = false := beq_eq_false_iff_ne.mpr hne
            show List.lookup key ((k, v) :: ofFields fs) = o
            rw [List.lookup_cons, hk]
            exact ih hkeys.2 hmem

/-- A table that is written anew keeps what it has under the keys `k` with `p k`, exactly if
the fields have it, and the table has no more keys than the fields. -/
theorem rewritten_iff (hkeys : (fields.map Prod.fst).Nodup) (p : String → Prop) :
    (∀ k, p k → get (ofFields fields) k = get t k) ↔
      (∀ f ∈ fields, p f.1 → f.2 = get t f.1) ∧
        ∀ k, p k → (get t k).isSome = true → k ∈ fields.map Prod.fst := by
  constructor
  · intro h
    constructor
    · intro f hf hp
      rw [← h f.1 hp]
      exact (get_ofFields hkeys hf).symm
    · intro k hp hsome
      by_contra hk
      rw [← h k hp, get_ofFields_of_notMem hk] at hsome
      cases hsome
  · rintro ⟨hfields, hrest⟩ k hp
    by_cases hk : k ∈ fields.map Prod.fst
    · obtain ⟨f, hf, rfl⟩ := List.mem_map.mp hk
      rw [get_ofFields hkeys (o := f.2) hf]
      exact hfields f hf hp
    · rw [get_ofFields_of_notMem hk]
      cases ht : get t k with
      | none => rfl
      | some v => exact absurd (hrest k hp (by rw [ht]; rfl)) hk

end Fields

/-! ## Structs as lists of fields -/

/-- How the values of a type are written and read; `Valid` are the values that come back. -/
structure Codec (α : Type) where
  Valid : α → Prop
  write : α → Except String Value
  read : Value → Except String α
  back : ∀ a v, Valid a → write a = .ok v → read v = .ok a

namespace Codec

def text : Codec String where
  Valid _ := True
  write s := .ok (.string s)
  read := string
  back s v _ h := by
    obtain rfl := Except.ok.inj h
    rfl

def bool : Codec Bool where
  Valid _ := True
  write b := .ok (.boolean b)
  read
    | .boolean b => .ok b
    | _ => .error "invalid type: expected a boolean"
  back b v _ h := by
    obtain rfl := Except.ok.inj h
    rfl

/-- An integer type with `size` values from 0 on.  A TOML integer is an `i64`. -/
def unsigned (size : Nat) : Codec Nat where
  Valid n := n < size
  write n := if n < 9223372036854775808 then .ok (.integer n) else .error "out-of-range value"
  read
    | .integer i =>
        if 0 ≤ i ∧ i.toNat < size then .ok i.toNat else .error "invalid value: integer"
    | _ => .error "invalid type: expected an integer"
  back n v hn h := by
    split at h
    next =>
        obtain rfl := Except.ok.inj h
        have hfits : 0 ≤ (n : Int) ∧ (n : Int).toNat < size := ⟨by omega, by simpa using hn⟩
        show (if _ then _ else _) = _
        rw [if_pos hfits]
        rfl
    next => cases h

@[simp] theorem valid_text (s : String) : text.Valid s := trivial

@[simp] theorem valid_bool (b : Bool) : bool.Valid b := trivial

@[simp] theorem valid_unsigned (size n : Nat) : (unsigned size).Valid n ↔ n < size := Iff.rfl

def texts : Codec (List String) where
  Valid _ := True
  write ss := .ok (.array (ss.map .string))
  read
    | .array vs => vs.mapM string
    | _ => .error "invalid type: expected a sequence"
  back ss v _ h := by
    obtain rfl := Except.ok.inj h
    clear h
    show (ss.map Value.string).mapM string = .ok ss
    induction ss with
    | nil => rfl
    | cons s ss ih =>
        rw [List.map_cons, List.mapM_cons, ih]
        rfl

@[simp] theorem valid_texts (ss : List String) : texts.Valid ss := trivial

end Codec

/-- A field of the struct `C`, which is read into `T`: `fill` is what reading what was written
comes to, and `other` is the name of its `alias` attribute. -/
structure Field (C T : Type) where
  key : String
  other : Option String
  Valid : C → Prop
  write : C → Except String (Option Value)
  read : Value → T → Except String T
  fill : C → T → T
  back : ∀ c t v, Valid c → write c = .ok (some v) → read v t = .ok (fill c t)
  out : ∀ c t, write c = .ok none → fill c t = t

namespace Field

variable {C T α : Type}

/-- A field that is always written. -/
def plain (key : String) (codec : Codec α) (get : C → α) (set : α → T → T) : Field C T where
  key := key
  other := none
  Valid c := codec.Valid (get c)
  write c := (codec.write (get c)).map some
  read v t := (codec.read v).map fun a => set a t
  fill c t := set (get c) t
  back c t v hvalid h := by
    obtain ⟨v', hv, he⟩ := map_some_ok.mp h
    obtain rfl := Option.some.inj he
    rw [codec.back _ _ hvalid hv]
    rfl
  out c t h := by
    obtain ⟨v', -, he⟩ := map_some_ok.mp h
    cases he

@[simp] theorem valid_plain (key : String) (codec : Codec α) (get : C → α) (set : α → T → T)
    (c : C) : (plain key codec get set).Valid c ↔ codec.Valid (get c) := Iff.rfl

/-- A field of type `Option`. -/
def optional (key : String) (other : Option String) (codec : Codec α) (get : C → Option α)
    (set : α → T → T) : Field C T where
  key := key
  other := other
  Valid c := ∀ a, get c = some a → codec.Valid a
  write c := match get c with
    | none => .ok none
    | some a => (codec.write a).map some
  read v t := (codec.read v).map fun a => set a t
  fill c t := match get c with
    | none => t
    | some a => set a t
  back c t v hvalid h := by
    cases hget : get c with
    | none =>
        rw [hget] at h
        cases h
    | some a =>
        rw [hget] at h
        obtain ⟨v', hv, he⟩ := map_some_ok.mp h
        obtain rfl := Option.some.inj he
        rw [codec.back _ _ (hvalid a hget) hv]
        rfl
  out c t h := by
    cases hget : get c with
    | none => rfl
    | some a =>
        rw [hget] at h
        obtain ⟨v', -, he⟩ := map_some_ok.mp h
        cases he

@[simp] theorem valid_optional (key : String) (other : Option String) (codec : Codec α)
    (get : C → Option α) (set : α → T → T) (c : C) :
    (optional key other codec get set).Valid c ↔ ∀ a, get c = some a → codec.Valid a := Iff.rfl

/-- The key it is written under, and those it is read from. -/
def keys (f : Field C T) : List String := f.key :: f.other.toList

end Field

namespace Struct

variable {C T : Type}

/-- `Serialize`, field by field. -/
def entries : List (Field C T) → C → Except String (List (String × Option Value))
  | [], _ => .ok []
  | f :: fs, c => do
      let v ← f.write c
      let rest ← entries fs c
      pure ((f.key, v) :: rest)

def write (fields : List (Field C T)) (c : C) : Except String Table :=
  (entries fields c).map ofFields

/-- The value a field is read from: a field that is there twice is an error. -/
def find (f : Field C T) (t : Table) : Except String (Option Value) :=
  match get t f.key, f.other.bind (get t) with
  | some _, some _ => .error ("duplicate field: " ++ f.key)
  | some v, none => .ok (some v)
  | none, o => .ok o

/-- `Deserialize` into `given`, which has what was read so far. -/
def read : List (Field C T) → Table → T → Except String T
  | [], _, given => .ok given
  | f :: fs, t, given => do
      match ← find f t with
      | none => read fs t given
      | some v => read fs t (← f.read v given)

/-- What a struct is when all its fields have been read. -/
def fill (fields : List (Field C T)) (c : C) (given : T) : T :=
  fields.foldl (fun given f => f.fill c given) given

/-- The fields have keys of their own. -/
def Distinct (fields : List (Field C T)) : Prop := (fields.flatMap Field.keys).Nodup

instance (fields : List (Field C T)) : Decidable (Distinct fields) :=
  inferInstanceAs (Decidable (List.Nodup _))

def Valid (fields : List (Field C T)) (c : C) : Prop := ∀ f ∈ fields, f.Valid c

variable {fields : List (Field C T)} {c : C} {t : Table} {es : List (String × Option Value)}

theorem entries_keys (h : entries fields c = .ok es) :
    es.map Prod.fst = fields.map Field.key := by
  induction fields generalizing es with
  | nil =>
      obtain rfl := Except.ok.inj h
      rfl
  | cons f fs ih =>
      unfold entries at h
      cases hw : f.write c with
      | error e => rw [hw] at h; cases h
      | ok v =>
          cases hr : entries fs c with
          | error e => rw [hw, hr] at h; cases h
          | ok rest =>
              rw [hw, hr] at h
              obtain rfl := Except.ok.inj h
              exact congrArg (f.key :: ·) (ih hr)

theorem entries_mem (h : entries fields c = .ok es) {f : Field C T} (hf : f ∈ fields) :
    ∃ v, f.write c = .ok v ∧ (f.key, v) ∈ es := by
  induction fields generalizing es with
  | nil => cases hf
  | cons g fs ih =>
      unfold entries at h
      cases hw : g.write c with
      | error e => rw [hw] at h; cases h
      | ok v =>
          cases hr : entries fs c with
          | error e => rw [hw, hr] at h; cases h
          | ok rest =>
              rw [hw, hr] at h
              obtain rfl := Except.ok.inj h
              rcases List.mem_cons.mp hf with rfl | hf
              · exact ⟨v, hw, List.mem_cons_self⟩
              · obtain ⟨v', hv', hmem⟩ := ih hr hf
                exact ⟨v', hv', List.mem_cons_of_mem _ hmem⟩

theorem key_mem_keys (f : Field C T) : f.key ∈ f.keys := List.mem_cons_self

theorem Distinct.keys_nodup (h : Distinct fields) : (fields.map Field.key).Nodup := by
  refine h.sublist ?_
  induction fields with
  | nil => exact .slnil
  | cons f fs ih =>
      rw [List.map_cons, List.flatMap_cons]
      have hrest : Distinct fs := (List.nodup_append.mp h).2.1
      exact ((List.Sublist.cons_cons f.key (List.nil_sublist _)).append (ih hrest) :
        ([f.key] ++ fs.map Field.key).Sublist _)

/-- The other name of a field is the key of no field. -/
theorem Distinct.other_notMem (h : Distinct fields) {f : Field C T} (hf : f ∈ fields) {key : String}
    (hkey : f.other = some key) : key ∉ fields.map Field.key := by
  induction fields with
  | nil => cases hf
  | cons g fs ih =>
      obtain ⟨hhead, hrest, hdisjoint⟩ := List.nodup_append.mp h
      intro hmem
      have hother : key ∈ f.keys := List.mem_cons_of_mem _ (Option.mem_toList.mpr hkey)
      rcases List.mem_cons.mp hf with rfl | hf <;> rcases List.mem_cons.mp hmem with rfl | hmem
      · have hnot := (List.nodup_cons.mp hhead).1
        exact hnot (Option.mem_toList.mpr hkey)
      · obtain ⟨g', hg', rfl⟩ := List.mem_map.mp hmem
        exact hdisjoint _ hother _ (List.mem_flatMap.mpr ⟨g', hg', key_mem_keys g'⟩) rfl
      · exact hdisjoint _ (key_mem_keys g) _ (List.mem_flatMap.mpr ⟨f, hf, hother⟩) rfl
      · exact ih hrest hf hmem

/-- A field is found as it was written. -/
theorem find_written (hfields : Distinct fields) (h : entries fields c = .ok es) {f : Field C T}
    (hf : f ∈ fields) : ∃ v, f.write c = .ok v ∧ find f (ofFields es) = .ok v := by
  obtain ⟨v, hv, hmem⟩ := entries_mem h hf
  have hkeys : (es.map Prod.fst).Nodup := by
    rw [entries_keys h]
    exact hfields.keys_nodup
  have hget : get (ofFields es) f.key = v := get_ofFields hkeys hmem
  have hother : f.other.bind (get (ofFields es)) = none := by
    cases ha : f.other with
    | none => rfl
    | some key =>
        refine get_ofFields_of_notMem ?_
        rw [entries_keys h]
        exact hfields.other_notMem hf ha
  refine ⟨v, hv, ?_⟩
  unfold find
  rw [hget, hother]
  cases v <;> rfl

/-- A struct that was written is read as it was. -/
theorem read_write (hfields : Distinct fields) (hvalid : Valid fields c)
    (h : write fields c = .ok t) (given : T) : read fields t given = .ok (fill fields c given) := by
  unfold write at h
  cases he : entries fields c with
  | error e => rw [he] at h; cases h
  | ok es =>
      rw [he] at h
      obtain rfl := Except.ok.inj h
      suffices ∀ (fs : List (Field C T)) (given : T), (∀ f ∈ fs, f ∈ fields) →
          read fs (ofFields es) given = .ok (fill fs c given) from this fields given fun _ hf => hf
      intro fs
      induction fs with
      | nil => intro given _; rfl
      | cons f fs ih =>
          intro given hsub
          have hf : f ∈ fields := hsub f List.mem_cons_self
          have hrest : ∀ g ∈ fs, g ∈ fields := fun g hg => hsub g (List.mem_cons_of_mem _ hg)
          obtain ⟨v, hv, hfind⟩ := find_written hfields he hf
          unfold read
          rw [hfind]
          cases v with
          | none =>
              show read fs (ofFields es) given = _
              rw [ih given hrest]
              show _ = Except.ok (fill fs c (f.fill c given))
              rw [f.out c given hv]
          | some v =>
              show (f.read v given >>= fun given => read fs (ofFields es) given) = _
              rw [f.back c given v (hvalid f hf) hv]
              exact ih (f.fill c given) hrest

/-- A struct within a struct, as a table. -/
def nested {D U : Type} (key : String) (fields : List (Field C T)) (hfields : Distinct fields)
    (get : D → C) (empty : T) (set : T → U → U) : Field D U where
  key := key
  other := none
  Valid d := Valid fields (get d)
  write d := (write fields (get d)).map fun t => some (.table t)
  read v given := match v with
    | .table t => (read fields t empty).map fun s => set s given
    | _ => .error "invalid type: expected a table"
  fill d given := set (fill fields (get d) empty) given
  back d given v hvalid h := by
    cases hw : write fields (get d) with
    | error e => rw [hw] at h; cases h
    | ok t =>
        rw [hw] at h
        obtain rfl := Option.some.inj (Except.ok.inj h)
        show (read fields t empty).map _ = _
        rw [read_write hfields hvalid hw empty]
        rfl
  out d given h := by
    cases hw : write fields (get d) with
    | error e => rw [hw] at h; cases h
    | ok t => rw [hw] at h; cases h

@[simp] theorem valid_nested {D U : Type} (key : String) (fields : List (Field C T))
    (hfields : Distinct fields) (get : D → C) (empty : T) (set : T → U → U) (d : D) :
    (nested key fields hfields get empty set).Valid d ↔ ∀ f ∈ fields, f.Valid (get d) := Iff.rfl

end Struct

end Toml
