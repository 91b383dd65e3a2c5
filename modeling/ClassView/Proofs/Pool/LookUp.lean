import ClassView.Pool.Resolve
import ClassView.Proofs.Outcome

/-!
# What can be wrong with a reference

Following an index of the pool goes through entries, and every step of it fails in one of two ways:
no entry is there, or one with another tag. Whatever a reference stands for, nothing else can be
wrong with it.

* `DecodeError.IsReference`: the two faults;
* **`ConstantPool.member_fails`**, **`ConstantPool.constant_fails`** and their likes: the faults of
  the look-ups.
-/

namespace ClassView

/-- The fault is that of a reference: no entry is there, or one that does not fit. -/
def DecodeError.IsReference : DecodeError → Prop
  | .indexOutOfRange _ | .tagMismatch _ _ _ => True
  | _ => False

namespace ConstantPool

open Outcome

variable (pool : ConstantPool) (index : UInt16)

theorem get_fails : (pool.get index).FailsOnly DecodeError.IsReference := by
  intro e he
  obtain ⟨_, rfl⟩ := get_eq_error_iff.1 he
  exact trivial

theorem typed_fails {α : Type} (expected : Tag) (pick : Entry → Option α) :
    (pool.typed index expected pick).FailsOnly DecodeError.IsReference := by
  refine (pool.get_fails index).bind fun entry _ => ?_
  cases pick entry with
  | some part => exact FailsOnly.pure part
  | none => exact FailsOnly.throw trivial

theorem text_fails : (pool.text index).FailsOnly DecodeError.IsReference :=
  pool.typed_fails index _ _

theorem className_fails : (pool.className index).FailsOnly DecodeError.IsReference :=
  (pool.typed_fails index _ _).bind fun name _ => pool.text_fails name

theorem classDisplayName_fails :
    (pool.classDisplayName index).FailsOnly DecodeError.IsReference :=
  (pool.className_fails index).map

theorem nameAndType_fails : (pool.nameAndType index).FailsOnly DecodeError.IsReference :=
  (pool.typed_fails index _ _).bind fun pair _ =>
    (pool.text_fails pair.1).bind fun _ _ =>
      (pool.text_fails pair.2).bind fun _ _ => FailsOnly.pure _

theorem string_fails : (pool.string index).FailsOnly DecodeError.IsReference :=
  (pool.typed_fails index _ _).bind fun text _ => pool.text_fails text

theorem methodType_fails : (pool.methodType index).FailsOnly DecodeError.IsReference :=
  (pool.typed_fails index _ _).bind fun descriptor _ => pool.text_fails descriptor

theorem memberOf_fails (kind : MemberKind) :
    (pool.memberOf kind index).FailsOnly DecodeError.IsReference :=
  (pool.typed_fails index _ _).bind fun pair _ =>
    (pool.classDisplayName_fails pair.1).bind fun _ _ =>
      (pool.nameAndType_fails pair.2).bind fun _ _ => FailsOnly.pure _

theorem invocable_fails : (pool.invocable index).FailsOnly DecodeError.IsReference := by
  refine (pool.get_fails index).bind fun entry _ => ?_
  split
  · exact pool.memberOf_fails index .interfaceMethod
  · exact pool.memberOf_fails index .method

theorem member_fails : (pool.member index).FailsOnly DecodeError.IsReference := by
  refine (pool.get_fails index).bind fun entry _ => ?_
  split
  · exact pool.memberOf_fails index .field
  · exact pool.invocable_fails index

theorem methodHandle_fails : (pool.methodHandle index).FailsOnly DecodeError.IsReference :=
  (pool.typed_fails index _ _).bind fun pair _ =>
    (pool.member_fails pair.2).bind fun _ _ => FailsOnly.pure _

theorem dynamic_fails : (pool.dynamic index).FailsOnly DecodeError.IsReference :=
  (pool.typed_fails index _ _).bind fun pair _ =>
    (pool.nameAndType_fails pair.2).bind fun _ _ => FailsOnly.pure _

theorem invokeDynamic_fails : (pool.invokeDynamic index).FailsOnly DecodeError.IsReference :=
  (pool.typed_fails index _ _).bind fun pair _ =>
    (pool.nameAndType_fails pair.2).bind fun _ _ => FailsOnly.pure _

theorem constant_fails : (pool.constant index).FailsOnly DecodeError.IsReference := by
  refine (pool.get_fails index).bind fun entry _ => ?_
  cases entry with
  | integer | float | long | double => exact FailsOnly.pure _
  | string => exact (pool.string_fails index).map
  | classRef => exact (pool.classDisplayName_fails index).map
  | methodType => exact (pool.methodType_fails index).map
  | methodHandle => exact (pool.methodHandle_fails index).map
  | dynamic => exact (pool.dynamic_fails index).map
  | utf8 | member | nameAndType | invokeDynamic | moduleRef | packageRef =>
    exact FailsOnly.throw trivial

end ConstantPool

end ClassView
