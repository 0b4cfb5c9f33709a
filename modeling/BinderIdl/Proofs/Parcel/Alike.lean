import BinderIdl.Parcel.Marshal
import BinderIdl.Proofs.Parcel.Carried
import BinderIdl.Proofs.Types.Alike

/-! The code of the six operations is the same in alike registries. It depends
on the built-in types, which are the same everywhere, on a type without the
handles of its arguments, and on these arguments themselves. -/

namespace BinderIdl.Parcel

open Java BinderIdl.Types Emitter

variable {r s : Registry} {d e : Descriptor} {value parcel : Variable}
  {flags : WriteFlags}

theorem require_eq (first : r.WellFormed) (second : s.WellFormed) {h : Handle}
    {d : Descriptor} (seeded : BuiltIn.types[h.index]? = some d) :
    r.require h = s.require h := by
  rw [first.require_builtIn seeded, second.require_builtIn seeded]

theorem flagsExpr_eq (first : r.WellFormed) (second : s.WellFormed)
    (flags : WriteFlags) :
    flagsExpr r flags = flagsExpr s flags := by
  unfold flagsExpr
  rw [require_eq first second (h := .parcelable) rfl]

theorem acquire_eq (first : r.WellFormed) (second : s.WellFormed) :
    acquire r = acquire s := by
  unfold acquire
  rw [require_eq first second (h := .classLoader) rfl]

theorem acquireIf_eq (first : r.WellFormed) (second : s.WellFormed)
    (needed : Bool) :
    acquireIf r needed = acquireIf s needed := by
  unfold acquireIf
  rw [acquire_eq first second]

theorem writeWhole_eq (first : r.WellFormed) (second : s.WellFormed)
    (d : Descriptor) (value parcel : Variable) (flags : WriteFlags) :
    writeWhole r d value parcel flags = writeWhole s d value parcel flags := by
  unfold writeWhole writeCharSequence writeRecord
  rw [flagsExpr_eq first second, require_eq first second (h := .textUtils) rfl]

theorem createWhole_eq (first : r.WellFormed) (second : s.WellFormed)
    (d : Descriptor) (value parcel : Variable) :
    createWhole r d value parcel = createWhole s d value parcel := by
  unfold createWhole createCharSequence createBinder createList
  rw [acquire_eq first second, require_eq first second (h := .textUtils) rfl,
    require_eq first second (h := .binder) rfl]

theorem readWhole_eq (first : r.WellFormed) (second : s.WellFormed)
    (d : Descriptor) (value parcel : Variable) :
    readWhole r d value parcel = readWhole s d value parcel := by
  unfold readWhole readList
  rw [acquire_eq first second]

@[simp] theorem writeWhole_withHandles (r : Registry) (d : Descriptor)
    (handles : List Handle) (value parcel : Variable) (flags : WriteFlags) :
    writeWhole r (d.withHandles handles) value parcel flags =
      writeWhole r d value parcel flags := by
  have name := d.qualifiedName_withHandles handles
  unfold writeWhole
  rw [name]
  obtain ⟨_, _, _, _, _, strategy⟩ := d
  cases strategy <;> rfl

@[simp] theorem creatorExpr_withHandles (d : Descriptor)
    (handles : List Handle) :
    creatorExpr (d.withHandles handles) = creatorExpr d := by
  simp [creatorExpr]

@[simp] theorem createWhole_withHandles (r : Registry) (d : Descriptor)
    (handles : List Handle) (value parcel : Variable) :
    createWhole r (d.withHandles handles) value parcel =
      createWhole r d value parcel := by
  have name := d.qualifiedName_withHandles handles
  unfold createWhole createRecord createInterface
  rw [name, creatorExpr_withHandles]
  obtain ⟨_, _, _, _, _, strategy⟩ := d
  cases strategy <;> rfl

@[simp] theorem readWhole_withHandles (r : Registry) (d : Descriptor)
    (handles : List Handle) (value parcel : Variable) :
    readWhole r (d.withHandles handles) value parcel =
      readWhole r d value parcel := by
  have name := d.qualifiedName_withHandles handles
  unfold readWhole
  rw [name]
  obtain ⟨_, _, _, _, _, strategy⟩ := d
  cases strategy <;> rfl

@[simp] theorem itemVariable_withHandles (value : Variable) (d : Descriptor)
    (handles : List Handle) :
    itemVariable value (d.withHandles handles) = itemVariable value d := by
  simp [itemVariable]

@[simp] theorem entryVariable_withHandles (value : Variable) (d : Descriptor)
    (handles : List Handle) :
    entryVariable value (d.withHandles handles) = entryVariable value d := by
  simp [entryVariable]

theorem looksUpClasses_withHandles (d : Descriptor) (handles : List Handle) :
    (d.withHandles handles).strategy.looksUpClasses =
      d.strategy.looksUpClasses := by
  obtain ⟨_, _, _, _, _, strategy⟩ := d
  cases strategy with
  | genericList arguments element => cases element <;> rfl
  | _ => rfl

theorem layout_of_arguments (formed : r.WellFormed) {arguments : TypeArguments}
    {types : List Descriptor} (generic : d.strategy = .generic arguments)
    (known : r.Arguments arguments.handles types) :
    r.layout d = .ofArguments d .whole (types.map some) := by
  obtain ⟨handles, _, _⟩ := arguments
  dsimp only at known
  have found : handles.map r.get? = types.map some :=
    map_eq_of_forall₂ known fun part => part.1
  have whole {h : Handle} {x : Descriptor} (part : r.get? h = some x ∧
        x.kind ≠ .generic) : r.layoutTo r.size x = .whole x := by
    obtain ⟨depth, size⟩ := Registry.exists_size_eq_succ part.1
    rw [size]
    exact r.layoutTo_eq_whole depth (formed.not_generic part.1 part.2)
  unfold Registry.layout Registry.layoutTo
  rw [generic]
  dsimp only
  rw [found]
  cases known with
  | nil => rfl
  | cons part rest =>
      cases rest with
      | nil => simp [Layout.ofArguments, whole part]
      | cons next others =>
          cases others with
          | nil => simp [Layout.ofArguments, whole part, whole next]
          | cons => rfl

theorem needsClassLoader_of_arguments (formed : r.WellFormed)
    {arguments : TypeArguments} {types : List Descriptor}
    (generic : d.strategy = .generic arguments)
    (known : r.Arguments arguments.handles types) :
    r.needsClassLoader d = types.any fun x => x.strategy.looksUpClasses := by
  rw [Registry.needsClassLoader_eq_any_parts generic]
  obtain ⟨handles, _, _⟩ := arguments
  dsimp only at known ⊢
  clear generic
  induction known with
  | nil => rfl
  | cons part _ induction =>
      have single : r.needsClassLoader _ = _ :=
        Registry.needsClassLoader_eq_of_not_generic
          (formed.not_generic part.1 part.2)
      simp only [List.any_cons, part.1, Option.any_some, single, induction]

/-- What code generation sees of a type: it is written as a whole, or it is an
instance at the given types. -/
inductive Seen (r : Registry) (d : Descriptor) :
    Option (List Descriptor) → Prop where
  | whole : (∀ arguments, d.strategy ≠ .generic arguments) → Seen r d none
  | instance {arguments : TypeArguments} {types : List Descriptor} :
      d.strategy = .generic arguments → r.Arguments arguments.handles types →
      Seen r d (some types)

theorem exists_seen (twin : r.Twin s d e) :
    ∃ types, Seen r d types ∧ Seen s e types := by
  obtain ⟨same, parts⟩ := twin
  obtain ⟨types, known, other⟩ := Registry.arguments_of_sameParts parts
  have strategy : e.strategy = d.strategy.withHandles e.argumentHandles :=
    congrArg Descriptor.strategy same
  cases written : d.strategy with
  | generic arguments =>
      rw [written] at strategy
      have handles := Registry.argumentHandles_of_generic written
      exact ⟨some types, .instance written (handles ▸ known),
        .instance strategy other⟩
  | _ =>
      rw [written] at strategy
      refine ⟨none, .whole fun _ also => ?_, .whole fun _ also => ?_⟩
      · cases written.symm.trans also
      · cases strategy.symm.trans also

def seenLayout (d : Descriptor) : Option (List Descriptor) → Layout
  | none => .whole d
  | some types => .ofArguments d .whole (types.map some)

theorem Seen.layout_eq (formed : r.WellFormed)
    {types : Option (List Descriptor)} (seen : Seen r d types) :
    r.layout d = seenLayout d types := by
  cases seen with
  | whole whole => exact r.layoutTo_eq_whole r.size whole
  | «instance» generic known => exact layout_of_arguments formed generic known

theorem needsClassLoader_eq (peers : r.Peers s) (twin : r.Twin s d e) :
    r.needsClassLoader d = s.needsClassLoader e := by
  obtain ⟨types, seen, also⟩ := exists_seen twin
  cases seen with
  | whole whole =>
      cases also with
      | whole other =>
          rw [Registry.needsClassLoader_eq_of_not_generic whole,
            Registry.needsClassLoader_eq_of_not_generic other, twin.same,
            looksUpClasses_withHandles]
  | «instance» generic known =>
      cases also with
      | «instance» otherGeneric other =>
          rw [needsClassLoader_of_arguments peers.left generic known,
            needsClassLoader_of_arguments peers.right otherGeneric other]

theorem write_eq (peers : r.Peers s) (twin : r.Twin s d e)
    (value parcel : Variable) (flags : WriteFlags) :
    write r d value parcel flags = write s e value parcel flags := by
  obtain ⟨types, seen, also⟩ := exists_seen twin
  have whole := writeWhole_eq peers.left peers.right
  unfold write
  rw [seen.layout_eq peers.left, also.layout_eq peers.right, twin.same]
  match types with
  | none => simp [seenLayout, Layout.write, whole]
  | some [] => simp [seenLayout, Layout.ofArguments, Layout.write]
  | some [element] =>
      simp [seenLayout, Layout.ofArguments, Layout.write, Layout.type, whole]
  | some [key, val] =>
      simp [seenLayout, Layout.ofArguments, Layout.write, Layout.type, whole]
  | some (_ :: _ :: _ :: _) =>
      simp [seenLayout, Layout.ofArguments, Layout.write]

theorem create_eq (peers : r.Peers s) (twin : r.Twin s d e)
    (value parcel : Variable) :
    create r d value parcel = create s e value parcel := by
  obtain ⟨types, seen, also⟩ := exists_seen twin
  have whole := createWhole_eq peers.left peers.right
  have loader := acquireIf_eq peers.left peers.right
  have needed := needsClassLoader_eq peers twin
  unfold create
  rw [seen.layout_eq peers.left, also.layout_eq peers.right]
  rw [twin.same] at needed ⊢
  match types with
  | none => simp [seenLayout, Layout.create, whole]
  | some [] => simp [seenLayout, Layout.ofArguments, Layout.create]
  | some [element] =>
      simp [seenLayout, Layout.ofArguments, Layout.create, loader,
        needed, whole]
  | some [key, val] =>
      simp [seenLayout, Layout.ofArguments, Layout.create, loader,
        needed, whole]
  | some (_ :: _ :: _ :: _) =>
      simp [seenLayout, Layout.ofArguments, Layout.create]

theorem read_eq (peers : r.Peers s) (twin : r.Twin s d e)
    (value parcel : Variable) :
    read r d value parcel = read s e value parcel := by
  obtain ⟨types, seen, also⟩ := exists_seen twin
  have whole := readWhole_eq peers.left peers.right
  have part := createWhole_eq peers.left peers.right
  have loader := acquireIf_eq peers.left peers.right
  have needed := needsClassLoader_eq peers twin
  unfold read
  rw [seen.layout_eq peers.left, also.layout_eq peers.right]
  rw [twin.same] at needed ⊢
  simp only [Descriptor.canBeOut_withHandles,
    Descriptor.qualifiedName_withHandles]
  congr 1
  match types with
  | none => simp [seenLayout, Layout.read, whole]
  | some [] => simp [seenLayout, Layout.ofArguments, Layout.read]
  | some [element] =>
      simp [seenLayout, Layout.ofArguments, Layout.read, Layout.create, loader,
        needed, part]
  | some [key, val] =>
      simp [seenLayout, Layout.ofArguments, Layout.read, Layout.create, loader,
        needed, part]
  | some (_ :: _ :: _ :: _) =>
      simp [seenLayout, Layout.ofArguments, Layout.read]

theorem writeArray_eq (peers : r.Peers s) (twin : r.Twin s d e)
    (value parcel : Variable) (flags : WriteFlags) :
    writeArray r d value parcel flags = writeArray s e value parcel flags := by
  have whole := writeWhole_eq peers.left peers.right
  have flagged := flagsExpr_eq peers.left peers.right
  rw [twin.same]
  unfold writeArray
  simp only [whole, flagged, writeWhole_withHandles, itemVariable_withHandles,
    Descriptor.qualifiedName_withHandles]
  generalize d.qualifiedName = name, writeWhole s d = body,
    itemVariable value d = item
  obtain ⟨_, _, _, _, _, strategy⟩ := d
  cases strategy <;> rfl

theorem createArray_eq (peers : r.Peers s) (twin : r.Twin s d e)
    (value parcel : Variable) :
    createArray r d value parcel = createArray s e value parcel := by
  have whole := createWhole_eq peers.left peers.right
  have loader := acquireIf_eq peers.left peers.right
  have needed := needsClassLoader_eq peers twin
  rw [twin.same] at needed ⊢
  unfold createArray fillArray
  simp only [whole, loader, needed, createWhole_withHandles,
    itemVariable_withHandles, creatorExpr_withHandles,
    Descriptor.importType_withHandles, Descriptor.qualifiedName_withHandles]
  generalize s.needsClassLoader _ = needed, d.qualifiedName = name,
    createWhole s d = body, itemVariable value d = item,
    creatorExpr d = creator, d.importType = erased
  obtain ⟨_, _, _, _, _, strategy⟩ := d
  cases strategy <;> rfl

theorem readArray_eq (peers : r.Peers s) (twin : r.Twin s d e)
    (value parcel : Variable) :
    readArray r d value parcel = readArray s e value parcel := by
  have inner := read_eq peers twin
  have loader := acquireIf_eq peers.left peers.right
  have needed := needsClassLoader_eq peers twin
  rw [twin.same] at needed inner ⊢
  unfold readArray refillArray
  simp only [inner, loader, needed, itemVariable_withHandles,
    creatorExpr_withHandles, Descriptor.qualifiedName_withHandles]
  generalize s.needsClassLoader _ = needed, d.qualifiedName = name,
    itemVariable value d = item, creatorExpr d = creator,
    read s (d.withHandles _) = body
  obtain ⟨_, _, _, _, _, strategy⟩ := d
  cases strategy <;> rfl

theorem emit_eq (peers : r.Peers s) (twin : r.Twin s d e)
    (operation : Operation) (value parcel : Variable) (flags : WriteFlags) :
    operation.emit r d value parcel flags =
      operation.emit s e value parcel flags := by
  cases operation with
  | write => exact congrArg ofCode (write_eq peers twin value parcel flags)
  | create => exact create_eq peers twin value parcel
  | read => exact read_eq peers twin value parcel
  | writeArray =>
      exact congrArg ofCode (writeArray_eq peers twin value parcel flags)
  | createArray => exact createArray_eq peers twin value parcel
  | readArray => exact readArray_eq peers twin value parcel

end BinderIdl.Parcel
