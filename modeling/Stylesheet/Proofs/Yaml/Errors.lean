import Stylesheet.Yaml.Value

/-!
# Faults of scalars

Steps that fail, if at all, with faults of one sort.  The values of scalars fail to be made in two
ways: the scalar is of no sort that is read, or its text does not fit its tag.
-/

namespace Stylesheet.Yaml

/-- A step with a result or a fault of one sort. -/
inductive FailsWith {α : Type} (sort : Fault → Prop) : Except Fault α → Prop where
  | ok (a : α) : FailsWith sort (.ok a)
  | error {fault : Fault} (hfault : sort fault) : FailsWith sort (.error fault)

namespace FailsWith

variable {α β : Type} {sort : Fault → Prop}

theorem bind {x : Except Fault α} {f : α → Except Fault β} (hx : FailsWith sort x)
    (hf : ∀ a, FailsWith sort (f a)) : FailsWith sort (x >>= f) := by
  cases hx with
  | ok a => exact hf a
  | error hfault => exact .error hfault

theorem ite {p : Prop} [Decidable p] {x y : Except Fault α} (hx : FailsWith sort x)
    (hy : FailsWith sort y) : FailsWith sort (if p then x else y) := by
  by_cases hp : p
  · rw [if_pos hp]
    exact hx
  · rw [if_neg hp]
    exact hy

theorem mapM {f : α → Except Fault β} (hf : ∀ a, FailsWith sort (f a)) (list : List α) :
    FailsWith sort (list.mapM f) := by
  induction list with
  | nil => exact .ok []
  | cons a rest ih =>
      rw [List.mapM_cons]
      exact (hf a).bind fun _ => ih.bind fun _ => .ok _

end FailsWith

/-- What can be wrong with a single scalar. -/
inductive Fault.OfScalar : Fault → Prop where
  | malformed : OfScalar .malformed
  | unreadable (why : Unreadable) : OfScalar (.unreadable why)

namespace TaggedScalar

open Fault (OfScalar)

theorem failsWith_signed (text : List Char) : FailsWith OfScalar (signed text) :=
  .ite (.error (.unreadable _)) (.ok _)

theorem failsWith_number {α : Type} (reading : Option α) : FailsWith OfScalar (number reading) := by
  cases reading with
  | some value => exact .ok value
  | none => exact .error (.unreadable _)

theorem failsWith_unsignedInteger (text : List Char) :
    FailsWith OfScalar (unsignedInteger text) := by
  unfold unsignedInteger
  split
  · exact .error (.unreadable _)
  · exact .ok _
  · exact failsWith_number _
  · exact failsWith_number _
  · exact failsWith_number _
  · exact .ite ((FailsWith.mapM (fun _ => failsWith_number _) _).bind fun _ => .ok _)
      (failsWith_number _)

theorem failsWith_integer (text : List Char) : FailsWith OfScalar (integer text) :=
  (failsWith_signed _).bind fun _ => (failsWith_unsignedInteger _).bind fun _ => .ok _

theorem failsWith_sumSixties (place : Nat) (digits : List Float) (sum : Float) :
    FailsWith OfScalar (sumSixties place digits sum) := by
  induction digits generalizing place sum with
  | nil => exact .ok sum
  | cons digit rest ih =>
      rw [sumSixties]
      split
      · exact ih _ _
      · exact .error (.unreadable _)

theorem failsWith_real (text : List Char) : FailsWith OfScalar (real text) := by
  apply (failsWith_signed _).bind
  intro signed
  apply FailsWith.ite (.ok _)
  apply FailsWith.ite (.ok _)
  apply FailsWith.ite
  · exact (FailsWith.mapM (fun _ => failsWith_number _) _).bind fun _ =>
      (failsWith_sumSixties _ _ _).bind fun _ => .ok _
  · exact (failsWith_number _).bind fun _ => .ok _

theorem failsWith_truth (text : List Char) : FailsWith OfScalar (truth text) := by
  unfold truth
  split
  all_goals first
    | exact .ok _
    | exact .error (.unreadable _)

theorem failsWith_checkTimestamp (text : List Char) :
    FailsWith OfScalar (checkTimestamp text) := by
  unfold checkTimestamp
  split
  · exact .error (.unreadable _)
  · exact .ite (.ok _) (.error (.unreadable _))

theorem failsWith_checkBinary (text : List Char) : FailsWith OfScalar (checkBinary text) :=
  .ite (.ok _) (.error .malformed)

/-- The value of a scalar fails to be made by what is wrong with that scalar. -/
theorem failsWith_construct (scalar : TaggedScalar) : FailsWith OfScalar scalar.construct := by
  unfold construct
  cases scalar.tag with
  | null | text | collection => exact .ok _
  | boolean => exact (failsWith_truth _).bind fun _ => .ok _
  | integer => exact (failsWith_integer _).bind fun _ => .ok _
  | real => exact (failsWith_real _).bind fun _ => .ok _
  | timestamp => exact (failsWith_checkTimestamp _).bind fun _ => .ok _
  | binary => exact (failsWith_checkBinary _).bind fun _ => .ok _
  | merge | unknown => exact .error .malformed

end TaggedScalar

end Stylesheet.Yaml
