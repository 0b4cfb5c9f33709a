import BinderIdl.Java.Basic
import BinderIdl.Types.Primitive
import Mathlib.Data.List.Forall2

/-! The values of running code. A value is a datum, a reference to a cell of the
heap, or a name that only calls give a meaning to. Containers hold their
elements by value, which makes no difference to code that never changes an
element after it was added; arrays hold references. -/

namespace BinderIdl.Java

open BinderIdl.Types

inductive Datum where
  | null
  | truth (value : Bool)
  | number (type : Primitive) (value : Int)
  | character (unit : UInt16)
  | text (value : String)
  | charSequence (value : String)
  | exception (code : Int) (message : Option String)
  | binder (identity : Nat) (descriptor : String)
  | interface (identity : Nat) (descriptor : String)
  | record (type content : String)
  | entry (key value : Datum)
  /-- The elements of a list or an array, or the entries of a map. -/
  | collection (items : List Datum)

inductive Value where
  | data (d : Datum)
  | ref (address : Nat)
  | parcel (id : Nat)
  | symbol (text : String)

inductive Cell where
  | data (d : Datum)
  | array (items : List Value)

abbrev Heap := List Cell

namespace Datum

def isNull : Datum → Bool
  | null => true
  | _ => false

def int (n : Int) : Datum := .number .int n

def ofText? : Option String → Datum
  | some value => .text value
  | none => .null

/-- Records and containers are objects that code can change. -/
def isMutable : Datum → Bool
  | record _ _ | collection _ => true
  | _ => false

/-- What the elements of a new array are. -/
def default (type : String) : Datum :=
  match Primitive.ofName? type with
  | some .boolean => .truth false
  | some .char => .character 0
  | some p => .number p 0
  | none => .null

/-- The entries of a map after a value was put under a key. -/
def put (same : Datum → Datum → Bool) (key value : Datum) :
    List Datum → List Datum
  | [] => [.entry key value]
  | .entry k v :: rest =>
      if same k key then .entry k value :: rest
        else .entry k v :: put same key value rest
  | other :: rest => other :: put same key value rest

end Datum

namespace Value

def null : Value := .data .null

def int (n : Int) : Value := .data (.int n)

def isNull : Value → Bool
  | data d => d.isNull
  | _ => false

@[simp]
theorem isNull_null : null.isNull = true := rfl

def truth? : Value → Option Bool
  | data (.truth b) => some b
  | _ => none

def int? : Value → Option Int
  | data (.number .int n) => some n
  | _ => none

/-- Literals are null, the numerals that code uses, or names. -/
def ofLiteral (text : String) : Value :=
  match text with
  | "null" => null
  | "0" => int 0
  | "1" => int 1
  | "-1" => int (-1)
  | _ => .symbol text

/-- A cast converts between characters and ints; it leaves references
as they are. -/
def cast (type : String) (x : Value) : Value :=
  match type, x with
  | "int", data (.character c) => int c.toNat
  | "char", data (.number .int n) => .data (.character (UInt16.ofNat n.toNat))
  | _, _ => x

end Value

/-- References are compared with null only. -/
def Comparison.holds? (comparison : Comparison) (x y : Value) : Option Bool :=
  match comparison with
  | eq => if y.isNull then some x.isNull else return (← x.int?) == (← y.int?)
  | ne => if y.isNull then some (!x.isNull) else return (← x.int?) != (← y.int?)
  | lt => return decide ((← x.int?) < (← y.int?))
  | ge => return decide ((← x.int?) ≥ (← y.int?))

theorem mapM_eq_some_iff {α β : Type} {f : α → Option β} {xs : List α}
    {ys : List β} :
    xs.mapM f = some ys ↔ List.Forall₂ (fun x y => f x = some y) xs ys := by
  induction xs generalizing ys with
  | nil => cases ys <;> simp
  | cons x rest induction =>
      rw [List.mapM_cons]
      cases first : f x with
      | none => cases ys <;> simp [first]
      | some y =>
          cases others : rest.mapM f with
          | none => cases ys <;> simp [first, ← induction, others]
          | some more => cases ys <;> simp [first, ← induction, others]

namespace Heap

/-- What a value is or refers to. -/
def cell? (h : Heap) : Value → Option Cell
  | .data d => some (.data d)
  | .ref a => h[a]?
  | _ => none

/-- The datum of anything but an array. -/
def item? (h : Heap) (x : Value) : Option Datum :=
  match h.cell? x with
  | some (.data d) => some d
  | _ => none

def datum? (h : Heap) (x : Value) : Option Datum :=
  match h.cell? x with
  | some (.data d) => some d
  | some (.array items) => (items.mapM h.item?).map .collection
  | none => none

/-- What a loop over a value goes through. -/
def elements? (h : Heap) (x : Value) : Option (List Value) :=
  match h.cell? x with
  | some (.data (.collection items)) => some (items.map .data)
  | some (.array items) => some items
  | _ => none

def array? (h : Heap) (x : Value) : Option (List Value) :=
  match h.cell? x with
  | some (.array items) => some items
  | _ => none

theorem cell?_append {h : Heap} {x : Value} {c : Cell}
    (known : h.cell? x = some c) (more : List Cell) :
    cell? (h ++ more) x = some c := by
  cases x with
  | data d => exact known
  | ref a =>
      have bound := (List.getElem?_eq_some_iff.mp known).1
      exact (List.getElem?_append_left bound).trans known
  | parcel id => cases known
  | symbol text => cases known

/-- A value that is no array has a datum. Only objects are referred to. -/
inductive Item (h : Heap) : Value → Datum → Prop where
  | data (d : Datum) : Item h (.data d) d
  | object {a : Nat} {d : Datum} : h[a]? = some (.data d) →
      d.isMutable → Item h (.ref a) d

/-- The datum of an array consists of those of its elements. -/
inductive ArrayOf (h : Heap) : Value → Datum → Prop where
  | null : ArrayOf h .null .null
  | array {a : Nat} {items : List Value} {ds : List Datum} :
      h[a]? = some (.array items) → List.Forall₂ (Item h) items ds →
      ArrayOf h (.ref a) (.collection ds)

variable {h : Heap} {x : Value} {d : Datum}

theorem Item.cell? (item : Item h x d) : h.cell? x = some (.data d) := by
  cases item with
  | data => rfl
  | object known => exact known

theorem Item.item? (item : Item h x d) : h.item? x = some d := by
  rw [Heap.item?, item.cell?]

theorem Item.datum? (item : Item h x d) : h.datum? x = some d := by
  rw [Heap.datum?, item.cell?]

theorem Item.isNull (item : Item h x d) : x.isNull = d.isNull := by
  cases item with
  | data => rfl
  | object _ mutable => cases d <;> first | rfl | cases mutable

theorem Item.eq_data (item : Item h x d) (fixed : d.isMutable = false) :
    x = .data d := by
  cases item with
  | data => rfl
  | object _ mutable => rw [fixed] at mutable; cases mutable

theorem Item.append (item : Item h x d) (more : List Cell) :
    Item (h ++ more) x d := by
  cases item with
  | data => exact .data d
  | object known mutable =>
      exact .object (cell?_append (x := .ref _) known more) mutable

theorem ArrayOf.datum? (array : ArrayOf h x d) : h.datum? x = some d := by
  cases array with
  | null => rfl
  | @array a items ds known elements =>
      have cell : h.cell? (.ref a) = some (.array items) := known
      have data : items.mapM h.item? = some ds :=
        mapM_eq_some_iff.mpr (elements.imp fun _ _ item => item.item?)
      simp [Heap.datum?, cell, data]

theorem ArrayOf.append (array : ArrayOf h x d) (more : List Cell) :
    ArrayOf (h ++ more) x d := by
  cases array with
  | null => exact .null
  | array known elements =>
      exact .array (cell?_append (x := .ref _) known more)
        (elements.imp fun _ _ item => item.append more)

theorem Item.elements? {ds : List Datum} (item : Item h x (.collection ds)) :
    h.elements? x = some (ds.map .data) := by
  simp [Heap.elements?, item.cell?]

theorem forall₂_item_map_data (h : Heap) (ds : List Datum) :
    List.Forall₂ (Item h) (ds.map .data) ds := by
  induction ds with
  | nil => exact .nil
  | cons d rest induction => exact .cons (.data d) induction

end Heap

end BinderIdl.Java
