import BinderIdl.Types.Registry

/-! Layouts: a type with its parts followed through the registry, as far as code
is emitted for them. A part is laid out only when it is asked for: types that
share parts would otherwise be followed once for every way that leads to them,
also where emission fails at the first. -/

namespace BinderIdl

open BinderIdl.Types

namespace Parcel

inductive Layout where
  /-- A type that is marshalled as a whole. -/
  | whole (type : Descriptor)
  /-- A container of elements of one type. -/
  | elements (type : Descriptor) (element : Unit → Layout)
  /-- A container of keys with values. -/
  | entries (type : Descriptor) (key value : Unit → Layout)
  /-- A generic type that is neither: its arguments are more or fewer, or not
  all known. -/
  | shapeless (type : Descriptor)

namespace Layout

def type : Layout → Descriptor
  | whole type => type
  | elements type _ => type
  | entries type _ _ => type
  | shapeless type => type

/-- The layout of a generic type with the given arguments, where
these are known. -/
def ofArguments (type : Descriptor) (follow : Descriptor → Layout) :
    List (Option Descriptor) → Layout
  | [some element] => elements type fun _ => follow element
  | [some key, some value] =>
      entries type (fun _ => follow key) (fun _ => follow value)
  | _ => shapeless type

theorem type_ofArguments (d : Descriptor) (follow : Descriptor → Layout)
    (arguments : List (Option Descriptor)) :
    (ofArguments d follow arguments).type = d := by
  unfold ofArguments
  split <;> rfl

end Layout

end Parcel

namespace Types.Registry

open Parcel

/-- Follows type arguments to the given depth. -/
def layoutTo (r : Registry) : Nat → Descriptor → Layout
  | 0, d => .shapeless d
  | depth + 1, d =>
      match d.strategy with
      | .generic arguments =>
          .ofArguments d (r.layoutTo depth) (arguments.handles.map r.get?)
      | _ => .whole d

/-- The layout of a type of the registry. Arguments that do not lead in a circle
are no deeper than the registry is long. -/
def layout (r : Registry) (d : Descriptor) : Layout :=
  r.layoutTo (r.size + 1) d

theorem type_layoutTo (r : Registry) (depth : Nat) (d : Descriptor) :
    (r.layoutTo depth d).type = d := by
  cases depth with
  | zero => rfl
  | succ depth =>
      unfold layoutTo
      split
      · exact Layout.type_ofArguments d _ _
      · rfl

theorem layoutTo_eq_whole (r : Registry) (depth : Nat) {d : Descriptor}
    (hwhole : ∀ arguments, d.strategy ≠ .generic arguments) :
    r.layoutTo (depth + 1) d = .whole d := by
  unfold layoutTo
  split
  · next arguments hgeneric => exact absurd hgeneric (hwhole arguments)
  · rfl

end Types.Registry

end BinderIdl
