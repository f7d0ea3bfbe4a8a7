/-
# `Lib.Url` — the path of a URL, as its reader sees it

A text put into a URL is read back in stages: spaces and controls at its end and the line breaks
and tabs in it are dropped, a query or a fragment cuts it off, slashes of both kinds separate
segments, dot segments are taken away, what may not stand in a path is percent-encoded; and the
server decodes what is percent-encoded in each segment.

This is the URL Standard for a scheme like `http`, from behind the slash after the authority.
All it tells apart is ASCII, and no byte of the UTF-8 encoding of another character is, so that
the stages are functions of bytes.

`segments_join_iff` says which segments, put into a path unencoded, are read back as they were.
No stage makes a text longer, so a path that comes back whole has passed every one untouched.
-/
import Mathlib.Algebra.GroupWithZero.Nat
import Mathlib.Data.List.DropRight
import Mathlib.Data.List.TakeWhile

namespace Url

abbrev Bytes := List UInt8

def bytes (s : String) : Bytes := s.toByteArray.data.toList

/-- The text whose UTF-8 encoding this is. -/
def text (bs : Bytes) : Option String := String.fromUTF8? ⟨⟨bs⟩⟩

theorem text_eq_some {bs : Bytes} {s : String} : text bs = some s ↔ bs = bytes s := by
  unfold text String.fromUTF8? bytes
  constructor
  · intro h
    split at h
    · rw [← Option.some.inj h]
      rfl
    · cases h
  · rintro rfl
    rw [dif_pos s.isValidUTF8]
    rfl

/-! ## Percent-encoding -/

def percent : UInt8 := 37

def hexDigit (n : UInt8) : UInt8 := if n < 10 then 48 + n else 55 + n

def hexValue (b : UInt8) : Option UInt8 :=
  if 48 ≤ b ∧ b ≤ 57 then some (b - 48)
  else if 65 ≤ b ∧ b ≤ 70 then some (b - 55)
  else if 97 ≤ b ∧ b ≤ 102 then some (b - 87)
  else none

/-- The path percent-encode set: controls and space, `"`, `#`, `<`, `>`, `?`, the backtick, `{`,
`}`, and what is not ASCII. -/
def reserved (b : UInt8) : Bool :=
  b ≤ 32 || 127 ≤ b || b ∈ ([34, 35, 60, 62, 63, 96, 123, 125] : Bytes)

def encodeByte (b : UInt8) : Bytes :=
  if reserved b then [percent, hexDigit (b / 16), hexDigit (b % 16)] else [b]

def encode (bs : Bytes) : Bytes := bs.flatMap encodeByte

/-- The byte that three bytes are the encoding of. -/
def escaped (b h l : UInt8) : Option UInt8 :=
  if b = percent then
    match hexValue h, hexValue l with
    | some x, some y => some (16 * x + y)
    | _, _ => none
  else
    none

def decode : Bytes → Bytes
  | b :: h :: l :: rest =>
      match escaped b h l with
      | some x => x :: decode rest
      | none => b :: decode (h :: l :: rest)
  | bs => bs

/-- No byte is percent-encoded. -/
def Literal : Bytes → Prop
  | b :: h :: l :: rest => escaped b h l = none ∧ Literal (h :: l :: rest)
  | _ => True

instance decidableLiteral : (bs : Bytes) → Decidable (Literal bs)
  | [] | [_] | [_, _] => inferInstanceAs (Decidable True)
  | b :: h :: l :: rest =>
      @instDecidableAnd _ _ (inferInstanceAs (Decidable (escaped b h l = none)))
        (decidableLiteral (h :: l :: rest))

instance (bs : Bytes) : Decidable (Literal bs) := decidableLiteral bs

theorem length_decode_le (bs : Bytes) : (decode bs).length ≤ bs.length := by
  induction bs using decode.induct with
  | case1 b h l rest x hx ih =>
      rw [decode, hx]
      simp only [List.length_cons]
      omega
  | case2 b h l rest hx ih =>
      rw [decode, hx]
      simpa only [List.length_cons, Nat.add_le_add_iff_right] using ih
  | case3 bs hbs =>
      rw [decode]
      exact hbs

theorem eq_nil_of_decode {bs : Bytes} (h : decode bs = []) : bs = [] := by
  match bs with
  | [] => rfl
  | [_] | [_, _] => cases h
  | b :: hi :: lo :: rest =>
      rw [decode] at h
      split at h <;> cases h

theorem decode_of_literal {bs : Bytes} (h : Literal bs) : decode bs = bs := by
  induction bs using decode.induct with
  | case1 b hi lo rest x hx ih =>
      rw [h.1] at hx
      cases hx
  | case2 b hi lo rest hx ih => rw [decode, hx, ih h.2]
  | case3 bs hbs =>
      rw [decode]
      exact hbs

/-- What is encoded is longer than what it stands for. -/
theorem literal_of_length {bs : Bytes} (h : bs.length ≤ (decode bs).length) : Literal bs := by
  induction bs using decode.induct with
  | case1 b hi lo rest x hx ih =>
      rw [decode, hx] at h
      have hle := length_decode_le rest
      simp only [List.length_cons] at h
      omega
  | case2 b hi lo rest hx ih =>
      rw [decode, hx] at h
      exact ⟨hx, ih (by simpa only [List.length_cons, Nat.add_le_add_iff_right] using h)⟩
  | case3 bs hbs =>
      match bs with
      | [] | [_] | [_, _] => trivial
      | b :: hi :: lo :: rest => exact absurd rfl (hbs b hi lo rest)

/-! ### Decoding what was encoded -/

theorem hexValue_hexDigit {n : UInt8} (h : n < 16) : hexValue (hexDigit n) = some n := by
  have hall : ∀ k : Fin 16, hexValue (hexDigit (.ofNat k)) = some (.ofNat k) := by decide
  have hk := hall ⟨n.toNat, h⟩
  rwa [UInt8.ofNat_toNat] at hk

theorem escaped_encodeByte (b : UInt8) :
    escaped percent (hexDigit (b / 16)) (hexDigit (b % 16)) = some b := by
  have hb : b.toNat < 256 := b.toNat_lt
  have hhi : b / 16 < 16 := by
    show (b / 16).toNat < 16
    simp only [UInt8.toNat_div, UInt8.reduceToNat]
    omega
  have hlo : b % 16 < 16 := by
    show (b % 16).toNat < 16
    simp only [UInt8.toNat_mod, UInt8.reduceToNat]
    omega
  have hsum : 16 * (b / 16) + b % 16 = b := by
    apply UInt8.toNat_inj.mp
    simp only [UInt8.toNat_add, UInt8.toNat_mul, UInt8.toNat_div, UInt8.toNat_mod,
      UInt8.reduceToNat]
    omega
  rw [escaped, if_pos rfl, hexValue_hexDigit hhi, hexValue_hexDigit hlo]
  exact congrArg some hsum

theorem reserved_percent : reserved percent = false := rfl

/-- The digits of an encoded byte may stand in a path themselves. -/
theorem reserved_hex {b x : UInt8} (h : hexValue b = some x) : reserved b = false := by
  have hrange : 48 ≤ b.toNat ∧ b.toNat ≤ 57 ∨ 65 ≤ b.toNat ∧ b.toNat ≤ 70 ∨
      97 ≤ b.toNat ∧ b.toNat ≤ 102 := by
    unfold hexValue at h
    split at h
    next hdigit => exact .inl hdigit
    next =>
        split at h
        next hupper => exact .inr (.inl hupper)
        next =>
            split at h
            next hlower => exact .inr (.inr hlower)
            next => cases h
  simp only [reserved, UInt8.le_iff_toNat_le, List.mem_cons, List.not_mem_nil, or_false,
    ← UInt8.toNat_inj, UInt8.reduceToNat, Bool.or_eq_false_iff, decide_eq_false_iff_not]
  omega

theorem encodeByte_of_not {b : UInt8} (h : reserved b = false) : encodeByte b = [b] := by
  rw [encodeByte, h]
  rfl

theorem encode_cons (b : UInt8) (bs : Bytes) : encode (b :: bs) = encodeByte b ++ encode bs :=
  List.flatMap_cons

/-- The byte does not begin the encoding of a byte. -/
def Alone (b : UInt8) (bs : Bytes) : Prop :=
  ∀ h l rest, bs = h :: l :: rest → escaped b h l = none

theorem decode_cons {b : UInt8} {bs : Bytes} (h : Alone b bs) :
    decode (b :: bs) = b :: decode bs := by
  match bs with
  | [] | [_] => rfl
  | hi :: lo :: rest => rw [decode, h hi lo rest rfl]

theorem escaped_percent_left (b l : UInt8) : escaped b percent l = none := by
  unfold escaped
  split <;> rfl

theorem escaped_percent_right (b h : UInt8) : escaped b h percent = none := by
  unfold escaped
  split
  · cases hexValue h <;> rfl
  · rfl

theorem escaped_digits {b h l x : UInt8} (he : escaped b h l = some x) :
    (∃ y, hexValue h = some y) ∧ ∃ z, hexValue l = some z := by
  unfold escaped at he
  split at he
  · cases hh : hexValue h with
    | none => rw [hh] at he; cases he
    | some y =>
        cases hl : hexValue l with
        | none => rw [hh, hl] at he; cases he
        | some z => exact ⟨⟨y, rfl⟩, z, rfl⟩
  · cases he

theorem alone_encode {b : UInt8} {bs : Bytes} (h : Alone b bs) : Alone b (encode bs) := by
  rintro hi lo rest he
  cases bs with
  | nil => cases he
  | cons x bs =>
      rw [encode_cons] at he
      cases hx : reserved x with
      | true =>
          rw [encodeByte, if_pos hx] at he
          obtain rfl : percent = hi := (List.cons.inj he).1
          exact escaped_percent_left b lo
      | false =>
          rw [encodeByte_of_not hx, List.singleton_append] at he
          obtain ⟨rfl, htail⟩ := List.cons.inj he
          cases bs with
          | nil => cases htail
          | cons y bs =>
              rw [encode_cons] at htail
              cases hy : reserved y with
              | true =>
                  rw [encodeByte, if_pos hy] at htail
                  obtain rfl : percent = lo := (List.cons.inj htail).1
                  exact escaped_percent_right b x
              | false =>
                  rw [encodeByte_of_not hy] at htail
                  obtain rfl : y = lo := (List.cons.inj htail).1
                  exact h x y bs rfl

theorem decode_encodeByte {b : UInt8} (h : reserved b = true) (bs : Bytes) :
    decode (encodeByte b ++ bs) = b :: decode bs := by
  rw [encodeByte, if_pos h]
  show decode (percent :: hexDigit (b / 16) :: hexDigit (b % 16) :: bs) = _
  rw [decode, escaped_encodeByte]

/-- Encoding leaves what is percent-encoded already as it is. -/
theorem decode_encode : ∀ bs : Bytes, decode (encode bs) = decode bs
  | [] => rfl
  | b :: bs => by
      have ih := decode_encode bs
      rw [encode_cons]
      cases hb : reserved b with
      | true =>
          have halone : Alone b bs := by
            intro h l rest _
            unfold escaped
            rw [if_neg]
            rintro rfl
            rw [reserved_percent] at hb
            cases hb
          rw [decode_encodeByte hb, decode_cons halone, ih]
      | false =>
          rw [encodeByte_of_not hb]
          by_cases halone : Alone b bs
          · rw [List.singleton_append, decode_cons (alone_encode halone), decode_cons halone, ih]
          · match bs with
            | [] | [_] => exact absurd (fun h l rest he => nomatch he) halone
            | h :: l :: rest =>
                cases he : escaped b h l with
                | none =>
                    refine absurd ?_ halone
                    rintro _ _ _ ⟨⟩
                    exact he
                | some x =>
                    have hrest := decode_encode rest
                    have hdigits : encode (h :: l :: rest) = h :: l :: encode rest := by
                      obtain ⟨⟨y, hy⟩, z, hz⟩ := escaped_digits he
                      rw [encode_cons, encode_cons, encodeByte_of_not (reserved_hex hy),
                        encodeByte_of_not (reserved_hex hz)]
                      rfl
                    rw [hdigits]
                    show decode (b :: h :: l :: encode rest) = _
                    rw [decode, decode, he, hrest]

/-! ## Reading a path -/

/-- A control or a space: dropped at the end of the input. -/
def blank (b : UInt8) : Bool := b ≤ 32

/-- A tab or a line break: dropped wherever it stands. -/
def lineBreak (b : UInt8) : Bool := b = 9 ∨ b = 10 ∨ b = 13

/-- `?` or `#`: what follows is no path. -/
def endsPath (b : UInt8) : Bool := b = 35 ∨ b = 63

/-- A slash of either kind. -/
def separates (b : UInt8) : Bool := b = 47 ∨ b = 92

def clean (input : Bytes) : Bytes := (input.rdropWhile blank).filter fun b => !lineBreak b

def cut (input : Bytes) : Bytes := input.takeWhile fun b => !endsPath b

def dot : Bytes := [46]

def dots : Bytes := [46, 46]

/-- A segment put behind those before it.  A dot segment is one however it is spelled, and leaves
an empty segment if it is the last. -/
def place (stack : List Bytes) (segment : Bytes) (last : Bool) : List Bytes :=
  if decode segment = dots then stack.dropLast ++ (if last then [[]] else [])
  else if decode segment = dot then stack ++ (if last then [[]] else [])
  else stack ++ [segment]

def normalize (stack : List Bytes) : List Bytes → List Bytes
  | [] => stack
  | segment :: rest => normalize (place stack segment rest.isEmpty) rest

/-- The segments of the path, percent-encoded, of a URL that goes on with `input` behind the slash
after its authority. -/
def segments (input : Bytes) : List Bytes :=
  normalize [] (((cut (clean input)).splitOnP separates).map encode)

/-- The query, where there is one: from the first `?` to a `#`, in the text that is read. -/
def query (input : Bytes) : Option Bytes :=
  match (clean input).dropWhile fun b => !endsPath b with
  | 63 :: rest => some (rest.takeWhile fun b => b ≠ 35)
  | _ => none

/-- The path with these segments. -/
def join (segs : List Bytes) : Bytes := [47].intercalate segs

/-- A segment that a URL can hold as it is. -/
structure Plain (segment : Bytes) : Prop where
  ordinary : ∀ b ∈ segment, lineBreak b = false ∧ endsPath b = false ∧ separates b = false
  literal : Literal segment
  noDots : segment ≠ dot ∧ segment ≠ dots

theorem plain_iff {segment : Bytes} : Plain segment ↔
    (∀ b ∈ segment, lineBreak b = false ∧ endsPath b = false ∧ separates b = false) ∧
      Literal segment ∧ segment ≠ dot ∧ segment ≠ dots :=
  ⟨fun h => ⟨h.ordinary, h.literal, h.noDots⟩, fun h => ⟨h.1, h.2.1, h.2.2⟩⟩

instance (segment : Bytes) : Decidable (Plain segment) :=
  @decidable_of_iff' _ _ plain_iff
    (@instDecidableAnd _ _ (List.decidableBAll _ _) inferInstance)

/-! ## No stage makes a path longer -/

/-- How much room segments take, each with a slash. -/
def width (segs : List Bytes) : Nat := (segs.map fun s => s.length + 1).sum

theorem width_append (segs segs' : List Bytes) :
    width (segs ++ segs') = width segs + width segs' := by
  unfold width
  rw [List.map_append, List.sum_append]

theorem width_cons (s : Bytes) (segs : List Bytes) :
    width (s :: segs) = s.length + 1 + width segs := by
  unfold width
  rw [List.map_cons, List.sum_cons]

theorem width_join {segs : List Bytes} (h : segs ≠ []) : (join segs).length + 1 = width segs := by
  unfold join
  induction segs with
  | nil => exact absurd rfl h
  | cons s segs ih =>
      cases segs with
      | nil =>
          rw [List.intercalate_singleton]
          rfl
      | cons s' segs =>
          rw [List.intercalate_cons_cons, width_cons, ← ih (List.cons_ne_nil _ _)]
          simp only [List.length_append, List.length_singleton]
          omega

theorem join_concat {segs : List Bytes} (h : segs ≠ []) (s : Bytes) :
    join (segs ++ [s]) = join segs ++ 47 :: s := by
  unfold join
  induction segs with
  | nil => exact absurd rfl h
  | cons first segs ih =>
      cases segs with
      | nil =>
          rw [List.singleton_append, List.intercalate_cons_cons, List.intercalate_singleton,
            List.intercalate_singleton, List.append_assoc]
          rfl
      | cons second segs =>
          rw [List.cons_append, List.cons_append, List.intercalate_cons_cons, ← List.cons_append,
            ih (List.cons_ne_nil _ _), List.intercalate_cons_cons, List.append_assoc _ _ (47 :: s)]

theorem width_splitOnP (p : UInt8 → Bool) (bs : Bytes) :
    width (bs.splitOnP p) = bs.length + 1 := by
  induction bs with
  | nil => rfl
  | cons b bs ih =>
      rw [List.splitOnP_cons_eq_if_modifyHead, List.length_cons, ← ih]
      split
      · rw [width_cons, List.length_nil]
        omega
      · obtain ⟨s, segs, he⟩ := List.exists_cons_of_ne_nil (List.splitOnP_ne_nil p bs)
        rw [he, List.modifyHead_cons, width_cons, width_cons, List.length_cons]
        omega

/-- The bytes of a piece are bytes of the whole, none of them a separator. -/
theorem mem_splitOnP {p : UInt8 → Bool} {bs s : Bytes} {b : UInt8} (hs : s ∈ bs.splitOnP p)
    (hb : b ∈ s) : b ∈ bs ∧ p b = false := by
  induction bs generalizing s with
  | nil =>
      rw [List.splitOnP_nil, List.mem_singleton] at hs
      rw [hs] at hb
      cases hb
  | cons x bs ih =>
      rw [List.splitOnP_cons_eq_if_modifyHead] at hs
      split at hs
      next =>
          rcases List.mem_cons.mp hs with rfl | hs
          · cases hb
          · exact ⟨List.mem_cons_of_mem _ (ih hs hb).1, (ih hs hb).2⟩
      next hx =>
          obtain ⟨first, rest, he⟩ := List.exists_cons_of_ne_nil (List.splitOnP_ne_nil p bs)
          rw [he, List.modifyHead_cons] at hs
          have hmem : ∀ t ∈ bs.splitOnP p, b ∈ t → b ∈ x :: bs ∧ p b = false := fun t ht hb =>
            ⟨List.mem_cons_of_mem _ (ih ht hb).1, (ih ht hb).2⟩
          rw [he] at hmem
          rcases List.mem_cons.mp hs with rfl | hs
          · rcases List.mem_cons.mp hb with rfl | hb
            · exact ⟨List.mem_cons_self, by simpa using hx⟩
            · exact hmem first List.mem_cons_self hb
          · exact hmem s (List.mem_cons_of_mem _ hs) hb

theorem width_decode_le (segs : List Bytes) : width (segs.map decode) ≤ width segs := by
  induction segs with
  | nil => exact Nat.le_refl _
  | cons s segs ih =>
      have hs := length_decode_le s
      rw [List.map_cons, width_cons, width_cons]
      omega

theorem literal_of_width {segs : List Bytes} (h : width segs ≤ width (segs.map decode)) :
    ∀ s ∈ segs, Literal s := by
  induction segs with
  | nil => exact fun s hs => nomatch hs
  | cons s segs ih =>
      have hs := length_decode_le s
      have hrest := width_decode_le segs
      rw [List.map_cons, width_cons, width_cons] at h
      exact List.forall_mem_cons.mpr ⟨literal_of_length (by omega), ih (by omega)⟩

theorem length_clean_le (input : Bytes) : (clean input).length ≤ input.length :=
  Nat.le_trans (List.length_filter_le _ _) (List.rdropWhile_prefix blank input).length_le

/-- A segment is put behind the others, or room is lost. -/
theorem width_place (stack : List Bytes) (s : Bytes) (last : Bool) :
    place stack s last = stack ++ [s] ∧ decode s ≠ dot ∧ decode s ≠ dots ∨
      width ((place stack s last).map decode) <
        width (stack.map decode) + ((decode s).length + 1) := by
  have hend : width ((if last then [[]] else [] : List Bytes).map decode) ≤ 1 := by
    cases last <;> decide
  unfold place
  split
  next hs =>
      right
      have hdrop : width (stack.dropLast.map decode) ≤ width (stack.map decode) := by
        rcases List.eq_nil_or_concat' stack with rfl | ⟨init, x, rfl⟩
        · exact Nat.le_refl _
        · rw [List.dropLast_concat, List.map_append, width_append]
          omega
      rw [List.map_append, width_append, hs]
      show _ < _ + 3
      omega
  next hdots =>
      split
      next hs =>
          right
          rw [List.map_append, width_append, hs]
          show _ < _ + 2
          omega
      next hdot => exact .inl ⟨rfl, hdot, hdots⟩

theorem width_normalize (stack segs : List Bytes) :
    normalize stack segs = stack ++ segs ∧ (∀ s ∈ segs, decode s ≠ dot ∧ decode s ≠ dots) ∨
      width ((normalize stack segs).map decode) <
        width (stack.map decode) + width (segs.map decode) := by
  induction segs generalizing stack with
  | nil => exact .inl ⟨(List.append_nil _).symm, fun s hs => nomatch hs⟩
  | cons s segs ih =>
      rw [normalize, List.map_cons, width_cons]
      rcases width_place stack s segs.isEmpty with ⟨he, hs⟩ | hlt
      · rw [he]
        rcases ih (stack ++ [s]) with ⟨hrest, hsegs⟩ | hlt
        · left
          refine ⟨?_, List.forall_mem_cons.mpr ⟨hs, hsegs⟩⟩
          rw [hrest, List.append_assoc]
          rfl
        · right
          rw [List.map_append, width_append, List.map_singleton, width_cons] at hlt
          have hnil : width [] = 0 := rfl
          omega
      · right
        rcases ih (place stack s segs.isEmpty) with ⟨hrest, -⟩ | hlt'
        · rw [hrest, List.map_append, width_append]
          omega
        · omega

/-! ## Segments that are read back -/

theorem normalize_of_noDots {stack segs : List Bytes}
    (h : ∀ s ∈ segs, decode s ≠ dot ∧ decode s ≠ dots) :
    normalize stack segs = stack ++ segs := by
  induction segs generalizing stack with
  | nil => exact (List.append_nil _).symm
  | cons s segs ih =>
      obtain ⟨hdot, hdots⟩ := h s List.mem_cons_self
      rw [normalize, place, if_neg hdots, if_neg hdot,
        ih fun t ht => h t (List.mem_cons_of_mem _ ht), List.append_assoc]
      rfl

theorem clean_of_plain {input : Bytes} (hbreak : ∀ b ∈ input, lineBreak b = false)
    (hlast : ∀ b, input.getLast? = some b → blank b = false) : clean input = input := by
  have hdrop : input.rdropWhile blank = input := by
    refine List.rdropWhile_eq_self_iff.mpr fun hne => ?_
    rw [hlast _ (List.getLast?_eq_getLast_of_ne_nil hne)]
    exact Bool.false_ne_true
  unfold clean
  rw [hdrop]
  exact List.filter_eq_self.mpr fun b hb => by rw [hbreak b hb]; rfl

theorem mem_join {segs : List Bytes} {b : UInt8} (h : b ∈ join segs) :
    b = 47 ∨ ∃ s ∈ segs, b ∈ s := by
  unfold join at h
  induction segs with
  | nil => cases h
  | cons s segs ih =>
      cases segs with
      | nil =>
          rw [List.intercalate_singleton] at h
          exact .inr ⟨s, List.mem_cons_self, h⟩
      | cons s' segs =>
          rw [List.intercalate_cons_cons, List.mem_append, List.mem_append] at h
          rcases h with (h | h) | h
          · exact .inr ⟨s, List.mem_cons_self, h⟩
          · exact .inl (List.mem_singleton.mp h)
          · rcases ih h with h | ⟨t, ht, hb⟩
            · exact .inl h
            · exact .inr ⟨t, List.mem_cons_of_mem _ ht, hb⟩

theorem splitOnP_join {segs : List Bytes} (hne : segs ≠ [])
    (h : ∀ s ∈ segs, ∀ b ∈ s, separates b = false) : (join segs).splitOnP separates = segs := by
  unfold join
  induction segs with
  | nil => exact absurd rfl hne
  | cons s segs ih =>
      have hs := h s List.mem_cons_self
      cases segs with
      | nil => rw [List.intercalate_singleton, List.splitOnP_eq_singleton hs]
      | cons s' segs =>
          rw [List.intercalate_cons_cons, List.append_assoc, List.singleton_append,
            List.splitOnP_append_cons_of_forall_mem hs 47 rfl,
            ih (List.cons_ne_nil _ _) fun t ht => h t (List.mem_cons_of_mem _ ht)]

/-- What can be held as it is comes back, but for its encoding. -/
theorem segments_join {segs : List Bytes} (hne : segs ≠ []) (h : ∀ s ∈ segs, Plain s)
    (hlast : ∀ b, (join segs).getLast? = some b → blank b = false) :
    segments (join segs) = segs.map encode := by
  have hbytes : ∀ b ∈ join segs, lineBreak b = false ∧ endsPath b = false := by
    intro b hb
    rcases mem_join hb with rfl | ⟨s, hs, hb⟩
    · decide
    · exact ⟨((h s hs).ordinary b hb).1, ((h s hs).ordinary b hb).2.1⟩
  have hcut : cut (join segs) = join segs :=
    List.takeWhile_eq_self_iff.mpr fun b hb => by rw [(hbytes b hb).2]; rfl
  unfold segments
  rw [clean_of_plain (fun b hb => (hbytes b hb).1) hlast, hcut,
    splitOnP_join hne fun s hs b hb => ((h s hs).ordinary b hb).2.2]
  refine normalize_of_noDots fun s hs => ?_
  obtain ⟨t, ht, rfl⟩ := List.mem_map.mp hs
  rw [decode_encode, decode_of_literal (h t ht).literal]
  exact (h t ht).noDots

theorem map_decode_encode {segs : List Bytes} (h : ∀ s ∈ segs, Literal s) :
    (segs.map encode).map decode = segs := by
  rw [List.map_map]
  refine (List.map_congr_left fun s hs => ?_).trans (List.map_id segs)
  exact (decode_encode s).trans (decode_of_literal (h s hs))

/-- Input of which nothing is dropped or cut off. -/
theorem whole_of_length {input : Bytes} (h : input.length ≤ (cut (clean input)).length) :
    cut (clean input) = input ∧ (∀ b ∈ input, lineBreak b = false ∧ endsPath b = false) ∧
      ∀ b, input.getLast? = some b → blank b = false := by
  have hcut : cut (clean input) <+: clean input := List.takeWhile_prefix _
  have hstrip : input.rdropWhile blank <+: input := List.rdropWhile_prefix blank input
  have hclean := length_clean_le input
  have hdropped : (clean input).length ≤ (input.rdropWhile blank).length :=
    List.length_filter_le _ _
  have hcutEq : cut (clean input) = clean input :=
    hcut.eq_of_length (Nat.le_antisymm hcut.length_le (Nat.le_trans hclean h))
  rw [hcutEq] at h
  have hstripEq : input.rdropWhile blank = input :=
    hstrip.eq_of_length (Nat.le_antisymm hstrip.length_le (Nat.le_trans h hdropped))
  have hcleanEq : clean input = input := by
    have hfilter : clean input = input.filter fun b => !lineBreak b := by
      unfold clean
      rw [hstripEq]
    have hsub : (input.filter fun b => !lineBreak b).Sublist input := List.filter_sublist
    rw [hfilter] at h ⊢
    exact hsub.eq_of_length (Nat.le_antisymm hsub.length_le h)
  refine ⟨hcutEq.trans hcleanEq, fun b hb => ⟨?_, ?_⟩, fun b hb => ?_⟩
  · rw [← hcleanEq] at hb
    simpa using (List.mem_filter.mp hb).2
  · rw [← hcleanEq, ← hcutEq] at hb
    simpa using List.mem_takeWhile_imp hb
  · obtain ⟨hne, he⟩ := List.mem_getLast?_eq_getLast hb
    rw [he]
    exact Bool.eq_false_iff.mpr (List.rdropWhile_eq_self_iff.mp hstripEq hne)

/-- A path of which nothing is lost. -/
theorem plain_of_width {input : Bytes}
    (h : input.length + 1 ≤ width ((segments input).map decode)) :
    (segments input).map decode = input.splitOnP separates ∧
      (∀ s ∈ input.splitOnP separates, Plain s) ∧
      ∀ b, input.getLast? = some b → blank b = false := by
  have hpieces := width_splitOnP separates (cut (clean input))
  have hdecode := width_decode_le ((cut (clean input)).splitOnP separates)
  have hclean := length_clean_le input
  have hcut : (cut (clean input)).length ≤ (clean input).length :=
    (List.takeWhile_prefix _).length_le
  have hencode : (((cut (clean input)).splitOnP separates).map encode).map decode =
      ((cut (clean input)).splitOnP separates).map decode := by
    rw [List.map_map]
    exact List.map_congr_left fun s _ => decode_encode s
  rcases width_normalize [] (((cut (clean input)).splitOnP separates).map encode) with
    ⟨hread, hdots⟩ | hlt
  · have hread : segments input = ((cut (clean input)).splitOnP separates).map encode := hread
    rw [hread, hencode] at h
    have hlength : input.length ≤ (cut (clean input)).length := by omega
    obtain ⟨hwhole, hbytes, hlast⟩ := whole_of_length hlength
    rw [hwhole] at hread hdots h hpieces
    have hliteral : ∀ s ∈ input.splitOnP separates, Literal s := literal_of_width (by omega)
    refine ⟨hread ▸ map_decode_encode hliteral, fun s hs => ⟨fun b hb => ?_, hliteral s hs, ?_⟩,
      hlast⟩
    · obtain ⟨hmem, hsep⟩ := mem_splitOnP hs hb
      exact ⟨(hbytes b hmem).1, (hbytes b hmem).2, hsep⟩
    · have hnoDots := hdots (encode s) (List.mem_map_of_mem hs)
      rwa [decode_encode, decode_of_literal (hliteral s hs)] at hnoDots
  · have hlt : width ((segments input).map decode) < _ := hlt
    have hnil : width (([] : List Bytes).map decode) = 0 := rfl
    rw [hencode] at hlt
    omega

/-- Segments put into a path come back exactly when each can be held as it is, and the path does
not end with a control or a space. -/
theorem segments_join_iff {segs : List Bytes} (hne : segs ≠ []) :
    (segments (join segs)).map decode = segs ↔
      (∀ s ∈ segs, Plain s) ∧ ∀ b, (join segs).getLast? = some b → blank b = false := by
  constructor
  · intro h
    have hwidth : (join segs).length + 1 ≤ width ((segments (join segs)).map decode) := by
      rw [h, width_join hne]
    obtain ⟨hsegs, hplain, hlast⟩ := plain_of_width hwidth
    rw [← hsegs, h] at hplain
    exact ⟨hplain, hlast⟩
  · rintro ⟨hplain, hlast⟩
    rw [segments_join hne hplain hlast]
    exact map_decode_encode fun s hs => (hplain s hs).literal

end Url
