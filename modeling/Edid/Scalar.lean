import Edid.Bits

/-!
# Scalars, mappers and the field tree

The host's value model (fq's `scalar` package and `decode.Value`), as the EDID decoders use it:

* `Uint` — `scalar.Uint`: an actual value with an optional symbol, a description and a
  display format;
* the mappers the decoders pass to their fields (`UintMapSymStr`, `UintMapDescription`,
  `UintMap`, `UintHex`, `UintActualAdd`, `UintValidate`, `UintAssert`, `AssertBitBuf`,
  `StrActualTrim`), run in order by `mapUint`, which stops at the first failing mapper;
* `Field` — the decoded tree: a scalar over an explicit bit range, a struct, an array, or a
  sub-format decoded from a window (whose children's ranges are relative to that window);
* `firstRepeat` — the first name of a list that an earlier one already has: the host refuses a
  struct child whose name a sibling has (`firstRepeat_eq_none`: none repeats exactly when the
  names are distinct).

A mapper returns its scalar together with an error message when it fails, as a Go
`(scalar.Uint, error)` pair does.
-/

set_option autoImplicit false

namespace Edid

/-- The symbol a mapper gives a scalar (`scalar.S.Sym`, a Go `any`). -/
inductive Sym where
  | str (s : String)
  | uint (n : Nat)
  | flt (f : Float)
  | bool (b : Bool)
  deriving Repr

/-- `scalar.Uint`: `hex` is the `NumberHex` display format, `NumberDecimal` otherwise. -/
structure Uint where
  actual : Nat
  sym : Option Sym := none
  description : String := ""
  hex : Bool := false
  deriving Repr

/-- `scalar.UintMapper`: the mapped scalar and, when the mapper fails, its error. -/
abbrev UintMapper := Uint → Uint × Option String

/-- Runs mappers left to right and stops at the first one that fails. -/
def mapUint : List UintMapper → Uint → Uint × Option String
  | [], s => (s, none)
  | m :: ms, s =>
    match m s with
    | (s', none) => mapUint ms s'
    | (s', some err) => (s', some err)

/-- `scalar.UintFn` of a mapper that cannot fail. -/
def uintFn (f : Uint → Uint) : UintMapper := fun s => (f s, none)

/-- `scalar.UintMapSymStr`: a symbol string for the values in the table. -/
def uintMapSymStr (m : List (Nat × String)) : UintMapper :=
  uintFn fun s => match m.lookup s.actual with
    | some t => { s with sym := some (.str t) }
    | none => s

/-- `scalar.UintMapSymBool`. -/
def uintMapSymBool (m : List (Nat × Bool)) : UintMapper :=
  uintFn fun s => match m.lookup s.actual with
    | some b => { s with sym := some (.bool b) }
    | none => s

/-- `scalar.UintMapDescription`: a description for the values in the table. -/
def uintMapDescription (m : List (Nat × String)) : UintMapper :=
  uintFn fun s => match m.lookup s.actual with
    | some d => { s with description := d }
    | none => s

/-- `scalar.UintMap`: a table entry replaces the whole scalar but its actual value. -/
def uintMap (m : List (Nat × Option Sym × String)) : UintMapper :=
  uintFn fun s => match m.lookup s.actual with
    | some (y, d) => { actual := s.actual, sym := y, description := d }
    | none => s

/-- `scalar.UintHex`. -/
def uintHex : UintMapper := uintFn fun s => { s with hex := true }

/-- `scalar.UintActualAdd`: `uint64(int64(s.Actual) + int64(n))`. -/
def uintActualAdd (n : Int) : UintMapper :=
  uintFn fun s => { s with actual := ((s.actual + n) % 2 ^ 64).toNat }

/-- `D.UintValidate`: describes the value as valid or invalid, never fails. -/
def uintValidate (v : Nat) : UintMapper :=
  uintFn fun s => { s with description := if s.actual = v then "valid" else "invalid" }

/-- `D.UintAssert`: as `UintValidate`, but an invalid value fails the field. -/
def uintAssert (v : Nat) : UintMapper := fun s =>
  if s.actual = v then ({ s with description := "valid" }, none)
  else ({ s with description := "invalid" }, some "failed to assert uint")

/-- A raw-bits mapper: given the bits' value and their count, an error when it fails. -/
abbrev BitBufMapper := Nat → Nat → Option String

/-- `D.AssertBitBuf`: the raw bits must be exactly the given bytes. -/
def assertBitBuf (bs : List UInt8) : BitBufMapper := fun v nBits =>
  if nBits = 8 * bs.length ∧ v = beBytes bs bs.length then none
  else some "failed to validate raw"

/-- `scalar.StrActualTrim`: `strings.Trim` of the actual bytes by a cut set. -/
def strActualTrim (cut : List UInt8) (bs : List UInt8) : List UInt8 :=
  ((bs.dropWhile (· ∈ cut)).reverse.dropWhile (· ∈ cut)).reverse

/-- A decoded scalar value. -/
inductive Scalar where
  | uint (s : Uint)
  | bool (b : Bool)
  | flt (f : Float)
  | str (bytes : List UInt8)
  | raw (bits : Nat)
  deriving Repr

/-- The decoded tree. Struct and array ranges are derived by the host from their children. -/
inductive Field where
  | scalar (name : String) (firstBit nBits : Nat) (s : Scalar)
  | struct (name : String) (children : List Field)
  | array (name : String) (children : List Field)
  | format (name description : String) (firstBit : Nat) (children : List Field)
  deriving Repr

mutual
/-- The actual values of the uint fields named `name` in a tree, in document order. -/
def Field.uintsNamed (name : String) : Field → List Nat
  | .scalar n _ _ (.uint s) => if n = name then [s.actual] else []
  | .scalar .. => []
  | .struct _ cs | .array _ cs | .format _ _ _ cs => Field.uintsNamedList name cs

/-- `Field.uintsNamed` over a list of trees. -/
def Field.uintsNamedList (name : String) : List Field → List Nat
  | [] => []
  | f :: fs => f.uintsNamed name ++ Field.uintsNamedList name fs
end

/-- The uint actual of a scalar field, if it is one. -/
def Field.uintActual? : Field → Option Nat
  | .scalar _ _ _ (.uint s) => some s.actual
  | _ => none

/-- The description of a uint scalar field, if it is one: where a validated field keeps its
verdict. -/
def Field.description? : Field → Option String
  | .scalar _ _ _ (.uint s) => some s.description
  | _ => none

/-- The name and value of a uint or bool scalar field; a bool counts as `1` or `0`. -/
def Field.namedValue? : Field → Option (String × Nat)
  | .scalar n _ _ (.uint s) => some (n, s.actual)
  | .scalar n _ _ (.bool b) => some (n, b.toNat)
  | _ => none

/-- The name of a field. -/
def Field.name : Field → String
  | .scalar n .. => n
  | .struct n _ => n
  | .array n _ => n
  | .format n .. => n

/-- The first of `ns` that `seen` or an earlier one of `ns` already holds: the host adds a
struct's children one at a time and refuses the first whose name a sibling has. -/
def firstRepeat (seen : List String) : List String → Option String
  | [] => none
  | n :: ns => if n ∈ seen then some n else firstRepeat (n :: seen) ns

/-- No name repeats exactly when the names are distinct and none was seen before them. -/
theorem firstRepeat_eq_none {seen : List String} :
    ∀ {ns : List String}, firstRepeat seen ns = none ↔ ns.Nodup ∧ ∀ n ∈ ns, n ∉ seen
  | [] => by simp [firstRepeat]
  | n :: ns => by
    unfold firstRepeat
    split
    · simp only [reduceCtorEq, false_iff]
      exact fun ⟨_, h⟩ => h n (List.mem_cons_self _ _) ‹_›
    · rw [firstRepeat_eq_none]
      simp only [List.nodup_cons, List.mem_cons, not_or, forall_eq_or_imp]
      constructor
      · rintro ⟨hd, hs⟩
        exact ⟨⟨fun h => (hs n h).1 rfl, hd⟩, ‹_›, fun m hm => (hs m hm).2⟩
      · rintro ⟨⟨hn, hd⟩, -, hs⟩
        exact ⟨hd, fun m hm => ⟨fun h => hn (h ▸ hm), hs m hm⟩⟩

@[simp] theorem firstRepeat_nil_eq_none {ns : List String} : firstRepeat [] ns = none ↔ ns.Nodup := by
  simp [firstRepeat_eq_none]

/-- A name that repeats in a prefix is the first to repeat in the whole list. -/
theorem firstRepeat_append {seen : List String} {n : String} :
    ∀ {ns : List String}, firstRepeat seen ns = some n → ∀ ns', firstRepeat seen (ns ++ ns') = some n
  | [], h, _ => by cases h
  | m :: ns, h, ns' => by
    rw [List.cons_append]
    unfold firstRepeat at h ⊢
    split
    · rwa [if_pos ‹_›] at h
    · rw [if_neg ‹_›] at h
      exact firstRepeat_append h ns'

theorem mapUint_uintFn (f : Uint → Uint) (ms : List UintMapper) (s : Uint) :
    mapUint (uintFn f :: ms) s = mapUint ms (f s) := rfl

@[simp] theorem mapUint_nil (s : Uint) : mapUint [] s = (s, none) := rfl

/-! ## Mappers that keep the actual value -/

/-- A mapper that never fails and leaves the actual value alone (it sets a symbol, a
description or the display format). -/
def KeepsActual (m : UintMapper) : Prop := ∀ s, (m s).1.actual = s.actual ∧ (m s).2 = none

theorem mapUint_keepsActual : ∀ {ms : List UintMapper}, (∀ m ∈ ms, KeepsActual m) → ∀ s,
    (mapUint ms s).1.actual = s.actual ∧ (mapUint ms s).2 = none
  | [], _, _ => ⟨rfl, rfl⟩
  | m :: ms, h, s => by
    obtain ⟨ha, hn⟩ := h m (List.mem_cons_self _ _) s
    have := mapUint_keepsActual (fun m' hm' => h m' (List.mem_cons_of_mem _ hm')) (m s).1
    simp only [mapUint]
    split
    · rename_i s' heq
      simp only [heq] at ha this
      exact ⟨this.1.trans ha, this.2⟩
    · rename_i heq
      simp only [heq, reduceCtorEq] at hn

theorem uintFn_keepsActual {f : Uint → Uint} (hf : ∀ s, (f s).actual = s.actual) :
    KeepsActual (uintFn f) :=
  fun s => ⟨hf s, rfl⟩

theorem uintMapSymStr_keepsActual (m : List (Nat × String)) : KeepsActual (uintMapSymStr m) :=
  uintFn_keepsActual fun s => by split <;> rfl

theorem uintMapSymBool_keepsActual (m : List (Nat × Bool)) : KeepsActual (uintMapSymBool m) :=
  uintFn_keepsActual fun s => by split <;> rfl

theorem uintMapDescription_keepsActual (m : List (Nat × String)) :
    KeepsActual (uintMapDescription m) :=
  uintFn_keepsActual fun s => by split <;> rfl

theorem uintMap_keepsActual (m : List (Nat × Option Sym × String)) : KeepsActual (uintMap m) :=
  uintFn_keepsActual fun s => by split <;> rfl

theorem uintHex_keepsActual : KeepsActual uintHex := uintFn_keepsActual fun _ => rfl

theorem uintValidate_keepsActual (v : Nat) : KeepsActual (uintValidate v) :=
  uintFn_keepsActual fun _ => rfl

end Edid
