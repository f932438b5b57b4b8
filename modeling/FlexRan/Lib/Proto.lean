import Mathlib

/-!
# Messages with presence-tracked fields

The wire library's view of a message: a record of singular scalar fields, repeated fields and
singular sub-messages, each of which may be unset.  `Message` collects what a message type
provides: its default instance, `mergeFrom`, and the relation that says every leaf set in one
message has the same value in another.  Instances are written field by field with
`mergeScalar`, `mergeRepeated` and `mergeMessage`.

The field laws say what a caller wants from an update that comes in parts: a part that leaves
a field unset keeps it, a part that sets it installs its own value.

## Main definitions

* `Message μ`, `LawfulMessage μ`, `IdempotentMessage μ`, `Reflection μ`.
* `mergeScalar`, `mergeRepeated`, `mergeMessage`: merging one field.
* `ScalarLaw`, `RepeatedLaw`, `MessageLaw`: an update neither loses nor invents a value.
-/
namespace FlexRan.Lib

variable {α μ : Type}

/-- A set singular field replaces the destination's. -/
def mergeScalar (dst src : Option α) : Option α := src.or dst

/-- Repeated fields are appended. -/
def mergeRepeated (dst src : List α) : List α := dst ++ src

/-- Every leaf set in the source field is the same in the other field. -/
def ScalarIn (src m : Option α) : Prop := src ≠ none → m = src

def RepeatedIn (src m : List α) : Prop := src ≠ [] → m = src

/-- A message type. `LeavesIn src m` says that every leaf set in `src` has its value in `m`. -/
class Message (μ : Type) where
  defaultInstance : μ
  mergeFrom : μ → μ → μ
  LeavesIn : μ → μ → Prop

open Message

/-- A set sub-message is merged into the destination's, which is created where it is unset. -/
def mergeMessage [Message μ] (dst src : Option μ) : Option μ :=
  match src with
  | none => dst
  | some s => some (mergeFrom (dst.getD defaultInstance) s)

def MessageIn [Message μ] (src m : Option μ) : Prop :=
  ∀ s, src = some s → ∃ t, m = some t ∧ LeavesIn s t

class LawfulMessage (μ : Type) [Message μ] : Prop where
  mergeFrom_defaultInstance : ∀ s : μ, mergeFrom defaultInstance s = s
  leavesIn_refl : ∀ s : μ, LeavesIn s s

export LawfulMessage (mergeFrom_defaultInstance leavesIn_refl)
attribute [simp] mergeFrom_defaultInstance leavesIn_refl

@[simp] theorem mergeScalar_none (dst : Option α) : mergeScalar dst none = dst := rfl
@[simp] theorem mergeScalar_some (dst : Option α) (v : α) : mergeScalar dst (some v) = some v := rfl
@[simp] theorem none_mergeScalar (src : Option α) : mergeScalar none src = src := by
  cases src <;> rfl

@[simp] theorem mergeRepeated_nil (dst : List α) : mergeRepeated dst [] = dst := by
  simp [mergeRepeated]
@[simp] theorem nil_mergeRepeated (src : List α) : mergeRepeated [] src = src := rfl

@[simp] theorem mergeMessage_none [Message μ] (dst : Option μ) : mergeMessage dst none = dst := rfl
@[simp] theorem none_mergeMessage [Message μ] [LawfulMessage μ] (src : Option μ) :
    mergeMessage none src = src := by
  cases src <;> simp [mergeMessage]

@[simp] theorem scalarIn_refl (s : Option α) : ScalarIn s s := fun _ => rfl
@[simp] theorem repeatedIn_refl (s : List α) : RepeatedIn s s := fun _ => rfl
@[simp] theorem messageIn_refl [Message μ] [LawfulMessage μ] (s : Option μ) : MessageIn s s :=
  fun t ht => ⟨t, ht, leavesIn_refl t⟩

@[simp] theorem scalarIn_mergeScalar (dst src : Option α) : ScalarIn src (mergeScalar dst src) := by
  cases src <;> simp [ScalarIn]

/-- Appending keeps the source's list only where one of the two lists is empty. -/
theorem repeatedIn_mergeRepeated_iff {dst src : List α} :
    RepeatedIn src (mergeRepeated dst src) ↔ src = [] ∨ dst = [] := by
  simp only [RepeatedIn, mergeRepeated, List.append_left_eq_self]
  tauto

/-! ## Records of optional scalars

A message that consists of singular scalar fields of one type is a function from the field
name. -/

instance {F V : Type} : Message (F → Option V) where
  defaultInstance := fun _ => none
  mergeFrom dst src := fun f => mergeScalar (dst f) (src f)
  LeavesIn src m := ∀ f, ScalarIn (src f) (m f)

instance {F V : Type} : LawfulMessage (F → Option V) where
  mergeFrom_defaultInstance s := by funext f; simp [mergeFrom, defaultInstance]
  leavesIn_refl s := fun f => scalarIn_refl (s f)

@[simp] theorem leavesIn_mergeFrom_scalars {F V : Type} (dst src : F → Option V) :
    LeavesIn src (mergeFrom dst src) := fun f => scalarIn_mergeScalar (dst f) (src f)

/-! ## Merging twice

A message without repeated fields may be merged again without effect. -/

class IdempotentMessage (μ : Type) [Message μ] : Prop where
  mergeFrom_twice : ∀ d s : μ, mergeFrom (mergeFrom d s) s = mergeFrom d s

export IdempotentMessage (mergeFrom_twice)

@[simp] theorem mergeScalar_twice (dst src : Option α) :
    mergeScalar (mergeScalar dst src) src = mergeScalar dst src := by
  cases src <;> rfl

@[simp] theorem mergeMessage_twice [Message μ] [IdempotentMessage μ] (dst src : Option μ) :
    mergeMessage (mergeMessage dst src) src = mergeMessage dst src := by
  cases src with
  | none => rfl
  | some s => exact congrArg some (mergeFrom_twice _ s)

/-- A repeated field grows, unless the source has no element. -/
theorem mergeRepeated_twice_iff {dst src : List α} :
    mergeRepeated (mergeRepeated dst src) src = mergeRepeated dst src ↔ src = [] := by
  rw [mergeRepeated, mergeRepeated, List.append_right_eq_self]

instance {F V : Type} : IdempotentMessage (F → Option V) where
  mergeFrom_twice d s := funext fun f => mergeScalar_twice (d f) (s f)

/-! ## Field laws -/

/-- An update of a singular scalar field neither loses the stored value nor the new one. -/
structure ScalarLaw (stored update result : Option α) : Prop where
  keeps : update = none → result = stored
  takes : ScalarIn update result

structure RepeatedLaw (stored update result : List α) : Prop where
  keeps : update = [] → result = stored
  takes : RepeatedIn update result

structure MessageLaw [Message μ] (stored update result : Option μ) : Prop where
  keeps : update = none → result = stored
  takes : MessageIn update result

@[simp] theorem scalarLaw_mergeScalar (stored update : Option α) :
    ScalarLaw stored update (mergeScalar stored update) :=
  ⟨by rintro rfl; rfl, scalarIn_mergeScalar stored update⟩

/-- A field the update does not touch meets the law where the update agrees with it. -/
theorem scalarLaw_stored_iff {stored update : Option α} :
    ScalarLaw stored update stored ↔ update = none ∨ update = stored := by
  constructor
  · intro h
    cases update with
    | none => exact .inl rfl
    | some v => exact .inr (h.takes (by simp)).symm
  · rintro (rfl | rfl)
    · exact ⟨fun _ => rfl, by simp [ScalarIn]⟩
    · exact ⟨fun _ => rfl, scalarIn_refl _⟩

/-! ## Reflection -/

/-- What generic code sees of a message type: its repeated fields, how many elements each of
them holds, and how to clear one. -/
class Reflection (μ : Type) where
  RepeatedField : Type
  repeatedFields : List RepeatedField
  fieldSize : μ → RepeatedField → ℕ
  clearField : μ → RepeatedField → μ

end FlexRan.Lib
