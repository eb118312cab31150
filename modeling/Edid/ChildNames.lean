import Edid.Framing
import Edid.Mappers

/-!
# The names of a struct's children

The host refuses a struct, and the root value of a format, with two children of one name
(`D.fieldStruct`, `D.decodeGroup`). Which runs the rule lets through is read off the decoder by
`NamesOneOf Ls m`: every completed run of `m` names its fields, in order, as one of the lists
`Ls`, so where none of them repeats a name no run does (`NamesOneOf.unique`). It is closed under
`bind` (a list of the first step, then one of the rest) and under `if` (a list of either
branch), and every step of the host emits no field or one under its own name.

* `UniqueNames m` — no completed run of `m` repeats a field name;
* `NamesOneOf.bind`, `NamesOneOf.bind_silent`, `NamesOneOf.ite`, `NamesOneOf.mono`,
  `framedFn_names`;
* the reads emit no field, and every field primitive one.
-/

set_option autoImplicit false

namespace Edid

open D Decode

variable {α β : Type}

/-- Every completed run of `m` names its fields as one of the lists `Ls`. -/
def NamesOneOf (Ls : List (List String)) (m : Decode α) : Prop :=
  ∀ fr c a c' w, m fr c = .ok (a, c', w) → w.map Field.name ∈ Ls

/-- No completed run of `m` repeats a field name: `m` may be the body of a struct. -/
def UniqueNames (m : Decode α) : Prop :=
  ∀ fr c a c' w, m fr c = .ok (a, c', w) → (w.map Field.name).Nodup

namespace NamesOneOf

theorem mono {Ls Ls' : List (List String)} {m : Decode α} (hm : NamesOneOf Ls m)
    (h : ∀ l ∈ Ls, l ∈ Ls') : NamesOneOf Ls' m :=
  fun fr c a c' w hr => h _ (hm fr c a c' w hr)

/-- Where none of the lists repeats a name, no completed run of `m` does. -/
theorem unique {Ls : List (List String)} {m : Decode α} (hm : NamesOneOf Ls m)
    (h : ∀ l ∈ Ls, l.Nodup) : UniqueNames m :=
  fun fr c a c' w hr => h _ (hm fr c a c' w hr)

theorem pure (a : α) : NamesOneOf [[]] (Pure.pure a : Decode α) := by
  intro fr c a' c' w h
  cases h
  exact List.mem_singleton_self _

theorem bind {Ls Ls' : List (List String)} {m : Decode α} {f : α → Decode β}
    (hm : NamesOneOf Ls m) (hf : ∀ a, NamesOneOf Ls' (f a)) :
    NamesOneOf (Ls.flatMap fun l => Ls'.map (l ++ ·)) (m >>= f) := by
  intro fr c b c'' w h
  obtain ⟨a, c₁, w₁, w₂, h₁, h₂, rfl⟩ := andThen_eq_ok h
  rw [List.map_append]
  exact List.mem_flatMap.mpr ⟨_, hm fr c a c₁ w₁ h₁, List.mem_map_of_mem _ (hf a fr c₁ b c'' w₂ h₂)⟩

/-- A step that emits no field leaves the names to the rest. -/
theorem bind_silent {Ls : List (List String)} {m : Decode α} {f : α → Decode β}
    (hm : NamesOneOf [[]] m) (hf : ∀ a, NamesOneOf Ls (f a)) : NamesOneOf Ls (m >>= f) :=
  (hm.bind hf).mono (by simp)

theorem ite {P : Prop} [Decidable P] {Ls₁ Ls₂ : List (List String)} {m₁ m₂ : Decode α}
    (h₁ : NamesOneOf Ls₁ m₁) (h₂ : NamesOneOf Ls₂ m₂) :
    NamesOneOf (Ls₁ ++ Ls₂) (if P then m₁ else m₂) := by
  intro fr c a c' w h
  split at h
  · exact List.mem_append_left _ (h₁ _ _ _ _ _ h)
  · exact List.mem_append_right _ (h₂ _ _ _ _ _ h)

end NamesOneOf

/-! ## The steps of the host -/

theorem pos_names : NamesOneOf [[]] pos :=
  fun _ _ _ _ _ h => by cases h; exact List.mem_singleton_self _

theorem bitsLeft_names : NamesOneOf [[]] bitsLeft :=
  fun _ _ _ _ _ h => by cases h; exact List.mem_singleton_self _

theorem uE_names (n : Nat) (e : Endian) : NamesOneOf [[]] (uE n e) := by
  intro fr c a c' w h
  unfold uE at h
  split at h <;> cases h
  exact List.mem_singleton_self _

theorem u_names (n : Nat) : NamesOneOf [[]] (u n) := fun fr c => uE_names n c.endian fr c

theorem peekUintBits_names (n : Nat) : NamesOneOf [[]] (peekUintBits n) := by
  intro fr c a c' w h
  unfold peekUintBits at h
  split at h <;> cases h
  exact List.mem_singleton_self _

theorem seekRel_names (delta : Int) : NamesOneOf [[]] (seekRel delta) := by
  intro fr c a c' w h
  unfold seekRel at h
  split at h <;> cases h
  exact List.mem_singleton_self _

theorem orPanic_names (o : Option α) : NamesOneOf [[]] (orPanic o) := by
  intro fr c a c' w h
  cases o <;> cases h
  exact List.mem_singleton_self _

theorem fieldUE_names (name : String) (n : Nat) (e : Endian) (ms : List UintMapper) :
    NamesOneOf [[name]] (fieldUE name n e ms) := by
  intro fr c a c' w h
  unfold fieldUE at h
  split at h
  · dsimp only at h
    split at h <;> cases h
    exact List.mem_singleton_self _
  · cases h

theorem fieldU_names (name : String) (n : Nat) (ms : List UintMapper) :
    NamesOneOf [[name]] (fieldU name n ms) :=
  fun fr c => fieldUE_names name n c.endian ms fr c

theorem fieldBool_names (name : String) : NamesOneOf [[name]] (fieldBool name) := by
  intro fr c a c' w h
  unfold fieldBool at h
  split at h <;> cases h
  exact List.mem_singleton_self _

theorem fieldRawLen_names (name : String) (n : Int) (ms : List BitBufMapper) :
    NamesOneOf [[name]] (fieldRawLen name n ms) := by
  intro fr c a c' w h
  unfold fieldRawLen at h
  split at h
  · cases h
  · split at h
    · split at h <;> cases h
      exact List.mem_singleton_self _
    · cases h

theorem fieldStr_names (name : String) (n : Nat) (sm : List UInt8 → List UInt8) :
    NamesOneOf [[name]] (fieldStr name n sm) := by
  intro fr c a c' w h
  unfold fieldStr at h
  split at h <;> cases h
  exact List.mem_singleton_self _

theorem fieldValueStr_names (name s : String) : NamesOneOf [[name]] (fieldValueStr name s) :=
  fun _ _ _ _ _ h => by cases h; exact List.mem_singleton_self _

theorem fieldValueBool_names (name : String) (b : Bool) :
    NamesOneOf [[name]] (fieldValueBool name b) :=
  fun _ _ _ _ _ h => by cases h; exact List.mem_singleton_self _

theorem fieldValueUintAddr_names (name : String) (a firstBit nBits : Nat) (sms : List UintMapper) :
    NamesOneOf [[name]] (fieldValueUintAddr name a firstBit nBits sms) :=
  fun _ _ _ _ _ h => by cases h; exact List.mem_singleton_self _

theorem fieldValueFltAddr_names (name : String) (a : Float) (firstBit nBits : Nat) :
    NamesOneOf [[name]] (fieldValueFltAddr name a firstBit nBits) :=
  fun _ _ _ _ _ h => by cases h; exact List.mem_singleton_self _

theorem fieldStruct_names (name : String) (m : Decode α) :
    NamesOneOf [[name]] (fieldStruct name m) := by
  intro fr c a c' w h
  unfold fieldStruct at h
  split at h
  · split at h <;> cases h
    exact List.mem_singleton_self _
  · cases h

theorem fieldArray_names (name : String) (m : Decode α) :
    NamesOneOf [[name]] (fieldArray name m) := by
  intro fr c a c' w h
  unfold fieldArray at h
  split at h <;> cases h
  exact List.mem_singleton_self _

theorem bytesRange_names (firstBit n : Nat) : NamesOneOf [[]] (bytesRange firstBit n) := by
  intro fr c a c' w h
  unfold bytesRange at h
  split at h <;> cases h
  exact List.mem_singleton_self _

theorem fieldChecksum_names (firstBit nBytes : Nat) :
    NamesOneOf [["checksum"]] (fieldChecksum firstBit nBytes) :=
  (bytesRange_names _ _).bind_silent fun _ =>
    ((fieldU_names _ _ _).bind fun _ => NamesOneOf.pure ()).mono (by decide)

/-- A frame emits what its decoder emits inside it. -/
theorem framedFn_names {Ls : List (List String)} (n : Nat) {m : Decode α} (hm : NamesOneOf Ls m) :
    NamesOneOf Ls (framedFn n m) := by
  intro fr c a c' w h
  unfold framedFn at h
  split at h
  · split at h <;> cases h
    exact hm _ _ _ _ _ ‹_›
  · cases h

end Edid
