/-
# `Lib.Json` — JSON values, and what `serde` derives to read them

`Value` is `serde_json::Value`.  An object is the list of its members in key
order, which is how the map behind it iterates; two equal maps are equal lists.

The second half is the reading side.  A derived `Deserialize` walks the members
of an object once: a member whose key is the name of a field, or one of its
aliases, fills the field; a field filled twice is an error; a key no field has is
skipped.  A field left unfilled takes what its type or its `#[serde(default)]`
says, or is an error.  `field` is that behaviour for one field.  Objects only: a
derived struct can also be read from an array, which no program here writes.
-/
import Mathlib.Tactic.Common

namespace Json

/-- `serde_json::Number`: an integer, or a finite double given by its bits. -/
inductive Number where
  | int (n : Int)
  | float (bits : BitVec 64)
deriving DecidableEq

inductive Value where
  | null
  | bool (b : Bool)
  | number (n : Number)
  | string (s : String)
  | array (vs : List Value)
  | object (fields : List (String × Value))

namespace Value

/-! ## Equality is decidable -/

mutual
def beq : Value → Value → Bool
  | .null, .null => true
  | .bool a, .bool b => a == b
  | .number a, .number b => decide (a = b)
  | .string a, .string b => a == b
  | .array as, .array bs => beqList as bs
  | .object as, .object bs => beqFields as bs
  | _, _ => false
def beqList : List Value → List Value → Bool
  | [], [] => true
  | a :: as, b :: bs => beq a b && beqList as bs
  | _, _ => false
def beqFields : List (String × Value) → List (String × Value) → Bool
  | [], [] => true
  | (k, a) :: as, (l, b) :: bs => k == l && beq a b && beqFields as bs
  | _, _ => false
end

mutual
theorem eq_of_beq : ∀ {a b : Value}, beq a b = true → a = b
  | .null, b, h => by cases b <;> simp_all [beq]
  | .bool _, b, h => by cases b <;> simp_all [beq]
  | .number _, b, h => by cases b <;> simp_all [beq]
  | .string _, b, h => by cases b <;> simp_all [beq]
  | .array as, b, h => by
      cases b with
      | array bs =>
          have hl : beqList as bs = true := by simpa [beq] using h
          rw [eq_of_beqList hl]
      | _ => simp [beq] at h
  | .object as, b, h => by
      cases b with
      | object bs =>
          have hf : beqFields as bs = true := by simpa [beq] using h
          rw [eq_of_beqFields hf]
      | _ => simp [beq] at h
theorem eq_of_beqList : ∀ {as bs : List Value}, beqList as bs = true → as = bs
  | [], bs, h => by cases bs <;> simp_all [beqList]
  | a :: as, bs, h => by
      cases bs with
      | nil => simp [beqList] at h
      | cons b bs =>
          simp only [beqList, Bool.and_eq_true] at h
          rw [eq_of_beq h.1, eq_of_beqList h.2]
theorem eq_of_beqFields : ∀ {as bs : List (String × Value)}, beqFields as bs = true → as = bs
  | [], bs, h => by cases bs <;> simp_all [beqFields]
  | (k, a) :: as, bs, h => by
      cases bs with
      | nil => simp [beqFields] at h
      | cons b bs =>
          obtain ⟨l, b⟩ := b
          simp only [beqFields, Bool.and_eq_true, beq_iff_eq] at h
          rw [h.1.1, eq_of_beq h.1.2, eq_of_beqFields h.2]
end

mutual
theorem beq_refl : ∀ a : Value, beq a a = true
  | .null => rfl
  | .bool _ => by simp [beq]
  | .number _ => by simp [beq]
  | .string _ => by simp [beq]
  | .array vs => by simpa [beq] using beqList_refl vs
  | .object fs => by simpa [beq] using beqFields_refl fs
theorem beqList_refl : ∀ vs : List Value, beqList vs vs = true
  | [] => rfl
  | v :: vs => by simp [beqList, beq_refl v, beqList_refl vs]
theorem beqFields_refl : ∀ fs : List (String × Value), beqFields fs fs = true
  | [] => rfl
  | (k, v) :: fs => by simp [beqFields, beq_refl v, beqFields_refl fs]
end

instance : DecidableEq Value := fun a b =>
  decidable_of_iff (beq a b = true) ⟨eq_of_beq, fun h => h ▸ beq_refl a⟩

/-! ## Access -/

/-- `Value::get` with a string index. -/
def get (v : Value) (key : String) : Option Value :=
  match v with
  | .object fields => fields.lookup key
  | _ => none

theorem get_object_nil (key : String) : (Value.object []).get key = none := rfl

theorem get_object_cons (k : String) (v : Value) (fields : List (String × Value))
    (key : String) : (Value.object ((k, v) :: fields)).get key =
      if key = k then some v else (Value.object fields).get key := by
  by_cases h : key = k
  · subst h; simp [get]
  · rw [if_neg h]
    simp [get, List.lookup_cons, beq_eq_false_iff_ne.mpr h]

def asStr : Value → Option String
  | .string s => some s
  | _ => none

def asArray : Value → Option (List Value)
  | .array vs => some vs
  | _ => none

/-- An integer as a JSON number. -/
def nat (n : Nat) : Value := .number (.int n)

end Value

/-! ## Reading -/

inductive DecodeError where
  | duplicateField (name : String)
  | missingField (name : String)
  | invalidType (expected : String)
deriving DecidableEq

abbrev Decoder (α : Type) := Value → Except DecodeError α

def string : Decoder String
  | .string s => .ok s
  | _ => .error (.invalidType "a string")

def bool : Decoder Bool
  | .bool b => .ok b
  | _ => .error (.invalidType "a boolean")

/-- `u64`: an integer in range; a float is refused. -/
def u64 : Decoder Nat
  | .number (.int n) => if 0 ≤ n ∧ n < UInt64.size then .ok n.toNat else .error (.invalidType "u64")
  | _ => .error (.invalidType "u64")

/-- `Option<T>`: `null` is `None`. -/
def option {α : Type} (d : Decoder α) : Decoder (Option α)
  | .null => .ok none
  | v => (d v).map some

/-- `Vec<T>`. -/
def vec {α : Type} (d : Decoder α) : Decoder (List α)
  | .array vs => vs.mapM d
  | _ => .error (.invalidType "a sequence")

/-- The members of an object, which is what a derived struct reads.  That it reads an array too,
by position, is left out. -/
def members : Decoder (List (String × Value))
  | .object fields => .ok fields
  | _ => .error (.invalidType "an object")

/-- The values whose key is one of `names`, in order. -/
def occurrences (names : List String) (fields : List (String × Value)) : List Value :=
  (fields.filter fun kv => decide (kv.1 ∈ names)).map Prod.snd

/-- One field of a derived struct: its name, its aliases, how a value is read,
and what an absent key gives. -/
def field {α : Type} (name : String) (aliases : List String) (d : Decoder α)
    (absent : Except DecodeError α) (fields : List (String × Value)) : Except DecodeError α :=
  match occurrences (name :: aliases) fields with
  | [] => absent
  | [v] => d v
  | _ => .error (.duplicateField name)

/-- A field without `#[serde(default)]`. -/
def required {α : Type} (name : String) (aliases : List String) (d : Decoder α) :
    List (String × Value) → Except DecodeError α :=
  field name aliases d (.error (.missingField name))

/-- A field with `#[serde(default)]`; `a` is the type's default. -/
def defaulted {α : Type} (name : String) (aliases : List String) (d : Decoder α) (a : α) :
    List (String × Value) → Except DecodeError α :=
  field name aliases d (.ok a)

/-- A field of type `Option<T>`, which may be absent without an attribute. -/
def optional {α : Type} (name : String) (d : Decoder α) :
    List (String × Value) → Except DecodeError (Option α) :=
  field name [] (option d) (.ok none)

/-! ### How a field is read -/

theorem occurrences_append (names : List String) (fields fields' : List (String × Value)) :
    occurrences names (fields ++ fields') =
      occurrences names fields ++ occurrences names fields' := by
  simp only [occurrences, List.filter_append, List.map_append]

theorem occurrences_eq_nil {names : List String} {fields : List (String × Value)}
    (h : ∀ kv ∈ fields, kv.1 ∉ names) : occurrences names fields = [] := by
  have hnone : fields.filter (fun kv => decide (kv.1 ∈ names)) = [] :=
    List.filter_eq_nil_iff.mpr fun kv hkv => by simpa using h kv hkv
  rw [occurrences, hnone, List.map_nil]

variable {α : Type} {name : String} {aliases : List String} {d : Decoder α}
  {absent : Except DecodeError α} {fields : List (String × Value)}

theorem field_absent (h : occurrences (name :: aliases) fields = []) :
    field name aliases d absent fields = absent := by
  rw [field, h]

theorem field_single {v : Value} (h : occurrences (name :: aliases) fields = [v]) :
    field name aliases d absent fields = d v := by
  rw [field, h]

/-- A struct is read field by field. -/
theorem bind_ok {β : Type} {x : Except DecodeError α} {f : α → Except DecodeError β} {a : α}
    {r : Except DecodeError β} (hx : x = .ok a) (hf : f a = r) : (x >>= f) = r := by
  subst hx; exact hf

/-- What a computation that returned did first. -/
theorem except_bind_ok {ε α β : Type} {x : Except ε α} {f : α → Except ε β} {b : β} :
    x >>= f = .ok b ↔ ∃ a, x = .ok a ∧ f a = .ok b := by
  cases x with
  | ok a => exact ⟨fun h => ⟨a, rfl, h⟩, fun ⟨_, ha, h⟩ => Except.ok.inj ha ▸ h⟩
  | error e => exact ⟨(fun h => nomatch h), fun ⟨_, ha, _⟩ => nomatch ha⟩

theorem mapError_ok {ε ε' α : Type} {x : Except ε α} {f : ε → ε'} {a : α} :
    x.mapError f = .ok a ↔ x = .ok a := by
  cases x with
  | ok b => exact ⟨fun h => congrArg _ (Except.ok.inj h), fun h => congrArg _ (Except.ok.inj h)⟩
  | error e => exact ⟨(fun h => nomatch h), fun h => nomatch h⟩

/-- A field that is present was read by its own reader. -/
theorem field_get {a : α} {v : Value} (h : field name [] d absent fields = .ok a)
    (hget : (Value.object fields).get name = some v) : d v = .ok a := by
  have hocc : ∃ rest, occurrences [name] fields = v :: rest := by
    clear h
    induction fields with
    | nil => cases hget
    | cons kv fields ih =>
        obtain ⟨key, v'⟩ := kv
        rw [Value.get_object_cons] at hget
        by_cases hk : name = key
        · subst hk
          rw [if_pos rfl] at hget
          cases hget
          exact ⟨occurrences [name] fields, by simp [occurrences]⟩
        · rw [if_neg hk] at hget
          obtain ⟨rest, hrest⟩ := ih hget
          exact ⟨rest, by simpa [occurrences, Ne.symm hk] using hrest⟩
  obtain ⟨rest, hrest⟩ := hocc
  rw [field, hrest] at h
  cases rest with
  | nil => exact h
  | cons v' rest => cases h

/-- A natural number in range is read back. -/
theorem u64_nat {n : Nat} (h : n < UInt64.size) : u64 (.nat n) = .ok n := by
  have hr : 0 ≤ (n : Int) ∧ (n : Int) < UInt64.size :=
    ⟨Int.natCast_nonneg n, Int.ofNat_lt.mpr h⟩
  simp only [u64, Value.nat, if_pos hr, Int.toNat_natCast]

end Json
