import BinderIdl.Proofs.Java.Heap
import BinderIdl.Proofs.Parcel.Format

namespace BinderIdl

open Java BinderIdl.Types

namespace Java

def Heap.HasContainer (h : Heap) (x : Value) : Prop :=
  ∃ a old, x = .ref a ∧ h[a]? = some (.data (.collection old))

/-- A container that is no object, as those inside of others. -/
def Value.ByValue (x : Value) : Prop := ∃ ds, x = .data (.collection ds)

def Value.Apart (items : List Value) : Prop :=
  (∀ x ∈ items, ¬ x.ByValue) ∧
    items.Pairwise fun first second => ∀ b, first = .ref b → second ≠ .ref b

/-- An array with as many elements as there are in a datum, or null for null. -/
def Heap.HasRoom (h : Heap) (x : Value) (y : Datum) : Prop :=
  (x = .null ∧ y = .null) ∨ ∃ a items ds, x = .ref a ∧
    h[a]? = some (.array items) ∧ y = .collection ds ∧ items.length = ds.length

/-- The cell is not that of an array. -/
def Heap.IsObject (h : Heap) (a : Nat) : Prop :=
  ∀ items, h[a]? ≠ some (.array items)

def Datum.items : Datum → List Datum
  | collection items => items
  | _ => []

/-- The containers that a parcel fills by one call. -/
def Tag.isList : Tag → Bool
  | map | list | stringList | binderList | typedList => true
  | _ => false

theorem Tag.isArray_of_isList {tag : Tag} (list : tag.isList) :
    tag.isArray = false := by
  cases tag <;> first | rfl | cases list

/-- The content of a container after a parcel has read into it. -/
def Tag.refilled (m : Platform) (tag : Tag) : Datum → Datum → Datum
  | .collection old, .collection items =>
      if tag = .map ∨
        tag = .list then .collection (m.merged old items) else .collection items
  | .collection old, _ => .collection (m.voided old)
  | other, _ => other

end Java

namespace Types.Descriptor

/-- A value that data can be read into: an object of the type. Where null was
written, only a container that is emptied first has to be one. -/
def Receives (d : Descriptor) (h : Heap) (x : Value) (y : Datum) : Prop :=
  match d.strategy with
  | .parcelable =>
      y = .null ∨
      ∃ a content,
        x = .ref a ∧ h[a]? = some (.data (.record d.qualifiedName content))
  | .generic _ => h.HasContainer x
  | _ => y = .null ∨ h.HasContainer x

/-- Arrays are not resized, so they have to have the length that was written. -/
def ArrayReceives (d : Descriptor) (h : Heap) (x : Value) (y : Datum) : Prop :=
  match d.strategy with
  | .genericList _ _ =>
      y = .null ∨ ∃ a items ds, x = .ref a ∧ h[a]? = some (.array items) ∧
        y = .collection ds ∧ List.Forall₂ (d.Receives h) items ds
  | _ => h.HasRoom x y

/-- What an object holds that held the first datum when the second one was read
into it. -/
def refilled (m : Platform) (d : Descriptor) (old y : Datum) : Datum :=
  match d.strategy with
  | .parcelable => if y.isNull then old else y
  | .map => Tag.map.refilled m old y
  | .list => Tag.list.refilled m old y
  | .genericList _ element => element.tag.refilled m old y
  | .generic _ => .collection y.items
  | _ => old

def arrayRefilled (m : Platform) (d : Descriptor) (old y : Datum) : Datum :=
  match d.strategy, y with
  | .genericList _ _, .collection items =>
      .collection (List.zipWith (d.refilled m) old.items items)
  | .genericList _ _, _ => old
  | _, _ => y

end Types.Descriptor

namespace Method.ValueType

def isListArray (t : ValueType) : Bool :=
  t.isArray && match t.descriptor.strategy with
    | .genericList _ _ => true
    | _ => false

def Receives (t : ValueType) (h : Heap) (x : Value) (y : Datum) : Prop :=
  if t.isArray then t.descriptor.ArrayReceives h x y
    else t.descriptor.Receives h x y

/-- The cells that reading changes: that of an object, or those of the lists of
an array. -/
def Touches (t : ValueType) (h : Heap) (x : Value) (a : Nat) : Prop :=
  if t.isListArray then h.IsObject a ∧
    ∃ b items, x = .ref b ∧ h[b]? = some (.array items) ∧ .ref a ∈ items
  else x = .ref a ∧ (t.isArray = false → h.IsObject a)

def refilled (m : Platform) (t : ValueType) (old y : Datum) : Datum :=
  if t.isArray then t.descriptor.arrayRefilled m old y
    else t.descriptor.refilled m old y

/-- A container is an object of its own, and so is every list of an array. -/
def Apart (t : ValueType) (h : Heap) (x : Value) : Prop :=
  if t.isArray then t.isListArray →
    ∀ {a : Nat} {items : List Value},
      x = .ref a → h[a]? = some (.array items) → Value.Apart items
  else ¬ x.ByValue

end Method.ValueType

namespace Types.Descriptor

variable {d : Descriptor}
  (other : ∀ arguments element, d.strategy ≠ .genericList arguments element)

include other

theorem isListArray_of_ne :
    (Method.ValueType.mk d true).isListArray = false := by
  cases strategy : d.strategy with
  | genericList arguments element =>
      exact absurd strategy (other arguments element)
  | _ => simp [Method.ValueType.isListArray, strategy]

theorem hasRoom_of_arrayReceives {h : Heap} {x : Value} {y : Datum}
    (receives : d.ArrayReceives h x y) : h.HasRoom x y := by
  cases strategy : d.strategy with
  | genericList arguments element =>
      exact absurd strategy (other arguments element)
  | _ => simpa only [ArrayReceives, strategy] using receives

theorem arrayRefilled_of_ne (m : Platform) (old y : Datum) :
    d.arrayRefilled m old y = y := by
  cases strategy : d.strategy with
  | genericList arguments element =>
      exact absurd strategy (other arguments element)
  | _ => simp [arrayRefilled, strategy]

end Types.Descriptor

namespace Java.Heap

variable {h h' : Heap} {touched : Nat → Prop} {x : Value} {y : Datum}

theorem Changed.hasContainer (changed : Changed touched h h')
    (container : h.HasContainer x) :
    h'.HasContainer x := by
  obtain ⟨a, old, rfl, known⟩ := container
  obtain ⟨new, here⟩ := changed.container known
  exact ⟨a, new, rfl, here⟩

theorem isObject_of_data {a : Nat} {d : Datum}
    (known : h[a]? = some (.data d)) :
    h.IsObject a := by
  intro items array
  rw [known] at array
  cases array

theorem Changed.isObject_of_isObject (changed : Changed touched h h') {a : Nat}
    (object : h'.IsObject a) : h.IsObject a := by
  intro items known
  obtain ⟨items', here, _⟩ := changed.array known
  exact object items' here

theorem Changed.hasRoom (changed : Changed touched h h')
    (room : h.HasRoom x y) :
    h'.HasRoom x y := by
  rcases room with null | ⟨a, items, ds, rfl, known, same, lengths⟩
  · exact .inl null
  · obtain ⟨items', here, kept⟩ := changed.array known
    exact .inr ⟨a, items', ds, rfl, here, same, kept.trans lengths⟩

theorem Changed.receives (changed : Changed touched h h') {d : Descriptor}
    (receives : d.Receives h x y) : d.Receives h' x y := by
  unfold Descriptor.Receives at receives ⊢
  cases strategy : d.strategy with
  | parcelable =>
      simp only [strategy] at receives ⊢
      rcases receives with null | ⟨a, content, rfl, known⟩
      · exact .inl null
      · obtain ⟨content', here⟩ := changed.record known
        exact .inr ⟨a, content', rfl, here⟩
  | generic arguments =>
      simp only [strategy] at receives ⊢
      exact changed.hasContainer receives
  | _ =>
      simp only [strategy] at receives ⊢
      exact receives.imp_right changed.hasContainer

end Java.Heap

end BinderIdl
