import BinderIdl.Method.Generated
import BinderIdl.Proofs.Document.Alike
import BinderIdl.Proofs.Parcel.Alike

namespace BinderIdl.Method

open Document Java BinderIdl.Types Registry Parcel Emitter

variable {r s : Registry}

structure ValueType.Same (r s : Registry) (t u : ValueType) : Prop where
  descriptor : Twin r s t.descriptor u.descriptor
  isArray : t.isArray = u.isArray

structure Parameter.Same (r s : Registry) (p q : Parameter) : Prop where
  name : p.name = q.name
  direction : p.direction = q.direction
  type : p.type.Same r s q.type

structure Signature.Same (r s : Registry) (m n : Signature) : Prop where
  name : m.name = n.name
  oneway : m.oneway = n.oneway
  result : Option.Rel (ValueType.Same r s) m.result n.result
  parameters : List.Forall₂ (Parameter.Same r s) m.parameters n.parameters

theorem ValueType.Same.variableNamed_eq {t u : ValueType} (same : t.Same r s u)
    (name : String) :
    t.variableNamed name = u.variableNamed name := by
  unfold variableNamed
  rw [same.descriptor.same, same.isArray, Descriptor.variableFor_withHandles]

theorem ValueType.Same.write_eq (peers : r.Peers s) {t u : ValueType}
    (same : t.Same r s u) (value parcel : Variable) (flags : WriteFlags) :
    t.write r value parcel flags = u.write s value parcel flags := by
  unfold write
  rw [same.isArray]
  exact emit_eq peers same.descriptor _ value parcel flags

theorem ValueType.Same.create_eq (peers : r.Peers s) {t u : ValueType}
    (same : t.Same r s u) (value parcel : Variable) :
    t.create r value parcel = u.create s value parcel := by
  unfold create
  rw [same.isArray]
  exact emit_eq peers same.descriptor _ value parcel .none

theorem ValueType.Same.read_eq (peers : r.Peers s) {t u : ValueType}
    (same : t.Same r s u) (value parcel : Variable) :
    t.read r value parcel = u.read s value parcel := by
  unfold read
  rw [same.isArray]
  exact emit_eq peers same.descriptor _ value parcel .none

theorem valueType_same {t u : ResolvedType} (same : t.Same r s u) :
    Matched (ε := GenerationError) (ValueType.Same r s)
      (Signature.valueType r t) (Signature.valueType s u) := by
  obtain ⟨d, e, known, other, twin⟩ := same.handle
  unfold Signature.valueType
  rw [known, other]
  exact .ok ⟨twin, same.isArray⟩

theorem ofResolved_same (peers : r.Peers s) {m n : ResolvedMethod}
    (same : m.Same r s n) :
    Matched (Signature.Same r s) (Signature.ofResolved r m)
      (Signature.ofResolved s n) := by
  have result : Matched (ε := GenerationError) (Option.Rel (ValueType.Same r s))
      (Signature.result? r m.returnType)
      (Signature.result? s n.returnType) := by
    unfold Signature.result?
    rw [isVoid_eq peers same.returnType]
    split
    · exact .ok .none
    · exact (valueType_same same.returnType).bind fun _ _ type =>
        .ok (.some type)
  have parameters :
      Matched (ε := GenerationError) (List.Forall₂ (Parameter.Same r s))
        (m.parameters.mapM (Signature.parameter r))
        (n.parameters.mapM (Signature.parameter s)) :=
    .mapM <| same.parameters.imp fun p q parameter =>
      (valueType_same parameter.type).bind fun _ _ type =>
        .ok ⟨parameter.name, parameter.direction, type⟩
  unfold Signature.ofResolved
  exact result.bind fun _ _ returned => parameters.bind fun _ _ all =>
    .ok ⟨same.name, same.oneway, returned, all⟩

theorem outParameters_same {m n : Signature} (same : m.Same r s n) :
    List.Forall₂ (Parameter.Same r s) m.outParameters n.outParameters :=
  List.rel_filter (fun _ _ parameter => by dsimp only; rw [parameter.direction])
    same.parameters

theorem forM_eq_of_forall₂ {α β : Type} {R : α → β → Prop}
    {f : α → Emitter Unit} {g : β → Emitter Unit} {xs : List α} {ys : List β}
    (related : List.Forall₂ R xs ys) (each : ∀ {x y}, R x y → f x = g y) :
    xs.forM f = ys.forM g := by
  induction related with
  | nil => rfl
  | cons here _ induction =>
      change (f _ >>= fun _ => _) = (g _ >>= fun _ => _)
      rw [each here, induction]

theorem forall₂_zipIdx {α β : Type} {R : α → β → Prop} {xs : List α}
    {ys : List β} (related : List.Forall₂ R xs ys) (start : Nat) :
    List.Forall₂ (fun x y => R x.1 y.1 ∧ x.2 = y.2) (xs.zipIdx start)
      (ys.zipIdx start) := by
  induction related generalizing start with
  | nil => exact .nil
  | cons here _ induction => exact .cons ⟨here, rfl⟩ (induction (start + 1))

theorem parcelVariable_eq (peers : r.Peers s) (name : String) :
    parcelVariable r name = parcelVariable s name := by
  unfold parcelVariable
  rw [require_eq peers.left peers.right (h := .parcel) rfl]

theorem sendParameter_eq (peers : r.Peers s) (data : Variable) {p q : Parameter}
    (same : p.Same r s q) :
    sendParameter r data p = sendParameter s data q := by
  unfold sendParameter
  rw [same.direction, same.name, same.type.isArray, same.type.variableNamed_eq]
  simp only [same.type.write_eq peers]

theorem receiveResult_eq (peers : r.Peers s) (reply : Variable)
    {t u : Option ValueType} (same : Option.Rel (ValueType.Same r s) t u) :
    receiveResult r reply t = receiveResult s reply u := by
  cases same with
  | none => rfl
  | some type =>
      unfold receiveResult
      dsimp only
      rw [type.variableNamed_eq, type.create_eq peers]

theorem receiveParameter_eq (peers : r.Peers s) (reply : Variable)
    {p q : Parameter} (same : p.Same r s q) :
    receiveParameter r reply p = receiveParameter s reply q := by
  unfold receiveParameter
  rw [same.name, same.type.variableNamed_eq, same.type.read_eq peers]

theorem proxy_eq (peers : r.Peers s) {m n : Signature} (same : m.Same r s n) :
    proxy r m = proxy s n := by
  have send (data : Variable) : m.parameters.forM (sendParameter r data) =
      n.parameters.forM (sendParameter s data) :=
    forM_eq_of_forall₂ same.parameters (sendParameter_eq peers data)
  have receive (reply : Variable) :
      m.outParameters.forM (receiveParameter r reply) =
        n.outParameters.forM (receiveParameter s reply) :=
    forM_eq_of_forall₂ (outParameters_same same)
      (receiveParameter_eq peers reply)
  unfold proxy proxyBody transact
  simp only [parcelVariable_eq peers, send, receive, same.name, same.oneway,
    receiveResult_eq peers _ same.result]

theorem argumentVariable_eq {p q : Parameter} (same : p.Same r s q)
    (position : Nat) :
    argumentVariable p position = argumentVariable q position :=
  same.type.variableNamed_eq _

theorem receiveArgument_eq (peers : r.Peers s) (data : Variable)
    {p q : Parameter} (same : p.Same r s q) (position : Nat) :
    receiveArgument r data p position = receiveArgument s data q position := by
  unfold receiveArgument allocateArray
  dsimp only
  rw [same.direction, same.type.isArray, argumentVariable_eq same,
    same.type.create_eq peers, same.type.descriptor.same]
  simp only [Descriptor.importType_withHandles,
    Descriptor.instantiable_withHandles]

theorem sendArgument_eq (peers : r.Peers s) (reply : Variable) {p q : Parameter}
    (same : p.Same r s q) (position : Nat) :
    sendArgument r reply p position = sendArgument s reply q position := by
  unfold sendArgument
  rw [same.direction, argumentVariable_eq same, same.type.write_eq peers]

theorem sendResult_eq (peers : r.Peers s) (reply : Variable)
    {t u : Option ValueType} (same : Option.Rel (ValueType.Same r s) t u) :
    sendResult r reply t = sendResult s reply u := by
  cases same with
  | none => rfl
  | some type =>
      unfold sendResult
      dsimp only
      rw [type.variableNamed_eq, type.write_eq peers]

theorem callImplementation_eq {m n : Signature} (same : m.Same r s n)
    (arguments : List Variable) :
    callImplementation m arguments = callImplementation n arguments := by
  have result := same.result
  unfold callImplementation
  rw [same.name]
  generalize m.result = t, n.result = u at result
  cases result with
  | none => rfl
  | some type =>
      dsimp only
      rw [type.variableNamed_eq]

theorem stub_eq (peers : r.Peers s) {m n : Signature} (same : m.Same r s n) :
    stub r m = stub s n := by
  have positioned := forall₂_zipIdx same.parameters 0
  have receive (data : Variable) :
      (m.parameters.zipIdx.forM fun e => receiveArgument r data e.1 e.2) =
        n.parameters.zipIdx.forM fun e => receiveArgument s data e.1 e.2 :=
    forM_eq_of_forall₂ positioned fun {x y} both => by
      rw [both.2, receiveArgument_eq peers data both.1]
  have send (reply : Variable) :
      (m.parameters.zipIdx.forM fun e => sendArgument r reply e.1 e.2) =
        n.parameters.zipIdx.forM fun e => sendArgument s reply e.1 e.2 :=
    forM_eq_of_forall₂ positioned fun {x y} both => by
      rw [both.2, sendArgument_eq peers reply both.1]
  have arguments :
      (m.parameters.zipIdx.map fun e => argumentVariable e.1 e.2) =
        n.parameters.zipIdx.map fun e => argumentVariable e.1 e.2 :=
    map_eq_of_forall₂ positioned fun {x y} both => by
      rw [both.2, argumentVariable_eq both.1]
  unfold stub stubBody
  simp only [parcelVariable_eq peers, receive, send, arguments,
    callImplementation_eq same, sendResult_eq peers _ same.result, same.oneway]

theorem generate_eq (peers : r.Peers s) {i j : ResolvedInterface}
    (owner : SameType r s i.handle j.handle) {m n : ResolvedMethod}
    (same : m.Same r s n) :
    generate r i m = generate s j n := by
  obtain ⟨d, e, known, other, twin⟩ := owner
  have signatures := ofResolved_same peers same
  have name : d.qualifiedName = e.qualifiedName := by rw [twin.same]; simp
  unfold generate
  rw [known, other]
  change (Signature.ofResolved r m >>= _) = (Signature.ofResolved s n >>= _)
  generalize Signature.ofResolved r m = first,
    Signature.ofResolved s n = second at signatures
  cases signatures with
  | error error => rfl
  | ok signature =>
      change (ofMarshalling (proxy r _) >>= _) =
        (ofMarshalling (proxy s _) >>= _)
      rw [proxy_eq peers signature, stub_eq peers signature, name, same.name]

end BinderIdl.Method
