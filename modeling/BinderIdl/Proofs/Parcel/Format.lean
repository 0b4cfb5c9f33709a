import BinderIdl.Method.Signature
import BinderIdl.Proofs.Java.Platform

namespace BinderIdl

open Java BinderIdl.Types

namespace Java.Datum

def isCharSequence : Datum → Bool
  | null | charSequence _ => true
  | _ => false

/-- The code 0 says that there is no exception. -/
def isException : Datum → Bool
  | null => true
  | exception code _ => code != 0
  | _ => false

theorem eq_of_isException {d : Datum} (fits : d.isException) :
    d = .null ∨ ∃ code message, d = .exception code message ∧ code ≠ 0 := by
  cases d with
  | null => exact .inl rfl
  | exception code message =>
      exact .inr ⟨code, message, rfl, by simpa [isException] using fits⟩
  | _ => cases fits

def isInterface : Datum → Bool
  | null | interface _ _ => true
  | _ => false

theorem eq_of_isInterface {d : Datum} (fits : d.isInterface) :
    d = .null ∨ ∃ identity descriptor, d = .interface identity descriptor := by
  cases d with
  | null => exact .inl rfl
  | interface identity descriptor => exact .inr ⟨identity, descriptor, rfl⟩
  | _ => cases fits

def isInterfaceOf (name : String) : Datum → Bool
  | null => true
  | interface _ descriptor => descriptor == name
  | _ => false

/-- The binder of an interface; a binder stays what it is. -/
def asBinder : Datum → Datum
  | interface identity descriptor => binder identity descriptor
  | d => d

theorem isInterface_of_isInterfaceOf {d : Datum} {name : String}
    (fits : d.isInterfaceOf name) : d.isInterface := by
  cases d <;> first | rfl | cases fits

theorem isBinder_asBinder {d : Datum} (fits : d.isInterface) :
    d.asBinder.isBinder := by
  rcases eq_of_isInterface fits with rfl | ⟨identity, descriptor, rfl⟩ <;> rfl

theorem asBinder_of_isBinder {d : Datum} (fits : d.isBinder) :
    d.asBinder = d := by
  cases d <;> first | rfl | cases fits

def ofPair (pair : Datum × Datum) : Datum := .entry pair.1 pair.2

end Java.Datum

namespace Types

def ListElement.tag : ListElement → Tag
  | strings => .stringList
  | binders => .binderList
  | typed _ => .typedList
  | untyped => .list

def ListElement.fits (element : ListElement) (x : Datum) : Bool :=
  match element with
  | typed creator => x.isCollectionOf (Datum.isMadeBy creator)
  | other => other.tag.admits x

/-- The values of a type that is written as a whole. -/
def Descriptor.fits (d : Descriptor) (x : Datum) : Bool :=
  match d.strategy with
  | .primitive p => x.isPrimitive p
  | .string => x.isText
  | .charSequence => x.isCharSequence
  | .exception _ => x.isException
  | .binder .interface => x.isInterface
  | .binder _ => x.isBinder
  | .map => Tag.map.admits x
  | .list => Tag.list.admits x
  | .parcelable => x.isMadeBy d.recordCreator
  | .interface _ => x.isInterfaceOf d.qualifiedName
  | .genericList _ element => element.fits x
  | .void | .helper | .generic _ => false

def Descriptor.arrayFits (d : Descriptor) (x : Datum) : Bool :=
  match d.strategy with
  | .primitive p => Tag.admits (.array p) x
  | .string => Tag.stringArray.admits x
  | .binder .handle => Tag.binderArray.admits x
  | .parcelable => x.isCollectionOf (Datum.isMadeBy d.recordCreator)
  | .genericList _ element => x.isCollectionOf element.fits
  | _ => false

end Types

/-- Two entries of a map have different keys. -/
def Java.Platform.KeysApart (m : Platform) : Datum → Datum → Prop
  | .entry first _, .entry second _ => m.sameKey first second = false
  | _, _ => True

/-- The constructors of the container classes make empty containers. -/
def Java.Platform.MakesContainers (m : Platform) (r : Registry) : Prop :=
  ∀ {h : Handle} {d : Descriptor} {arguments : TypeArguments},
    r.get? h = some d →
    d.strategy = .generic arguments → m.fresh d.instantiable = .collection []

/-- The values of a layout. The keys of a map differ from each other. -/
def Parcel.Layout.Fits (m : Platform) : Layout → Datum → Prop
  | .whole d, x => d.fits x
  | .elements _ element, x =>
      x = .null ∨
        ∃ items,
          x = .collection items ∧ ∀ item ∈ items, (element ()).Fits m item
  | .entries _ key val, x =>
      x = .null ∨
        ∃ pairs : List (Datum × Datum),
          x = .collection (pairs.map Datum.ofPair) ∧
          (∀ pair ∈ pairs, (key ()).Fits m pair.1 ∧ (val ()).Fits m pair.2) ∧
          pairs.Pairwise fun first second => m.sameKey first.1 second.1 = false
  | .shapeless _, _ => False

def Method.ValueType.Fits (m : Platform) (r : Registry) (t : ValueType)
    (x : Datum) : Prop :=
  if t.isArray then t.descriptor.arrayFits x =
    true else (r.layout t.descriptor).Fits m x

/-- A value of running code stands for a datum of the type. -/
def Method.ValueType.Shows (t : ValueType) (h : Heap) (x : Value)
    (y : Datum) : Prop :=
  if t.isArray then h.ArrayOf x y else h.Item x y

def Java.intToken (n : Int) : Token := ⟨.scalar .int, .int n⟩

/-- A null marker, and the datum behind it if there is one. -/
def Java.markedTokens (tag : Tag) : Datum → List Token
  | .null => [intToken 0]
  | x => [intToken 1, ⟨tag, x⟩]

/-- The number of elements and their tokens, or -1 for null. -/
def Java.sizedTokens (tokens : Datum → List Token) : Datum → List Token
  | .collection items => intToken items.length :: items.flatMap tokens
  | _ => [intToken (-1)]

def Java.entryTokens (key val : Datum → List Token) : Datum → List Token
  | .entry k v => key k ++ val v
  | _ => []

def Java.exceptionTokens : Datum → List Token
  | .exception code message => [intToken code, ⟨.string, .ofText? message⟩]
  | _ => [intToken 0, ⟨.string, .null⟩]

namespace Types

def Primitive.tokens (p : Primitive) (x : Datum) : List Token :=
  match p, x with
  | .boolean, .truth b => [intToken (if b then 1 else 0)]
  | .char, .character c => [intToken c.toNat]
  | _, _ => [⟨.scalar p, x⟩]

def Descriptor.tokens (d : Descriptor) (x : Datum) : List Token :=
  match d.strategy with
  | .primitive p => p.tokens x
  | .string => [⟨.string, x⟩]
  | .charSequence => markedTokens .charSequence x
  | .exception _ => exceptionTokens x
  | .binder _ | .interface _ => [⟨.binder, x.asBinder⟩]
  | .map => [⟨.map, x⟩]
  | .list => [⟨.list, x⟩]
  | .parcelable => markedTokens (.record d.qualifiedName) x
  | .genericList _ element => [⟨element.tag, x⟩]
  | .void | .helper | .generic _ => []

def Descriptor.arrayTokens (d : Descriptor) (x : Datum) : List Token :=
  match d.strategy with
  | .primitive p => [⟨.array p, x⟩]
  | .string => [⟨.stringArray, x⟩]
  | .binder _ => [⟨.binderArray, x⟩]
  | .parcelable => [⟨.typedArray, x⟩]
  | .genericList _ _ => sizedTokens d.tokens x
  | _ => []

end Types

def Parcel.Layout.tokens : Layout → Datum → List Token
  | .whole d => d.tokens
  | .elements _ element => sizedTokens (element ()).tokens
  | .entries _ key val =>
      sizedTokens (entryTokens (key ()).tokens (val ()).tokens)
  | .shapeless _ => fun _ => []

/-- What carries a value of a type, in the order in which it is written. -/
def Method.ValueType.tokens (r : Registry) (t : ValueType) (x : Datum) :
    List Token :=
  if t.isArray then t.descriptor.arrayTokens x
    else (r.layout t.descriptor).tokens x

end BinderIdl
