import BinderIdl.Types.Reference
import BinderIdl.Types.Registry

/-! Lookup of textual references. A qualified name wins over a simple one, and a
simple name has to be unique; a reference with type arguments makes the instance
it names if there is none. -/

namespace BinderIdl.Types.Registry

/-- The types that a simple name may stand for. Instances of
templates have none. -/
def named (r : Registry) (name : String) : List (Handle × Descriptor) :=
  r.entries.filter fun entry => entry.2.kind != .generic && entry.2.name == name

/-- Candidates for an ambiguous name, in code point order. -/
def candidates (entries : List (Handle × Descriptor)) : List String :=
  (entries.map fun entry => entry.2.qualifiedName).mergeSort fun a b =>
    decide (a ≤ b)

def resolveName (r : Registry) (name : String) : Except LookupError Handle :=
  match r.findQualified? name with
  | some h => .ok h
  | none =>
      match r.named name with
      | [] => .error (.unknown name)
      | [entry] => .ok entry.1
      | many => .error (.ambiguous name (candidates many))

/-- As `resolveName`, but candidates stay in the order of registration. -/
def resolveTemplate (r : Registry) (name : String) :
    Except LookupError Template :=
  match r.template? name with
  | some t => .ok t
  | none =>
      match r.templates.filter fun t => t.name == name with
      | [] => .error (.unknown name)
      | [t] => .ok t
      | many => .error (.ambiguous name (many.map Template.qualifiedName))

/-- A type that can stand as an argument: a known one that is no
instance itself. -/
def argument (r : Registry) (h : Handle) : Except LookupError Descriptor :=
  match r.get? h with
  | none => .error (.unknown h.text)
  | some d =>
      if d.kind =
        .generic then .error (.nestedGeneric d.qualifiedName) else .ok d

/-- The instance of a template at the given arguments, made on first use. -/
def instantiate (r : Registry) (t : Template) (handles : List Handle) :
    Except LookupError (Handle × Registry) :=
  if handles.length ≠ t.arity then
    .error (.arityMismatch t.qualifiedName t.arity handles.length)
  else
    match handles.mapM r.argument with
    | .error error => .error error
    | .ok arguments =>
        match r.findQualified? (t.instanceName arguments) with
        | some h => .ok (h, r)
        | none => .ok (r.push (t.apply handles arguments))

theorem eq_or_push_of_instantiate_eq_ok {r grown : Registry} {t : Template}
    {handles : List Handle} {h : Handle}
    (made : r.instantiate t handles = .ok (h, grown)) :
    grown = r ∨ ∃ d, (h, grown) = r.push d := by
  unfold instantiate at made
  split at made
  · cases made
  · split at made
    · cases made
    · split at made
      · exact .inl (congrArg Prod.snd (Except.ok.inj made)).symm
      · exact .inr ⟨_, (Except.ok.inj made).symm⟩

/-- The template comes first, then the arguments from left to right. -/
def resolveGeneric (r : Registry) (base : String) (arguments : List String) :
    Except LookupError (Handle × Registry) :=
  match r.resolveTemplate base with
  | .error error => .error error
  | .ok t =>
      match arguments.mapM r.resolveName with
      | .error error => .error error
      | .ok handles => r.instantiate t handles

def resolve (r : Registry) (text : String) :
    Except LookupError (Handle × Registry) :=
  match Reference.ofText text with
  | .error error => .error error
  | .ok (.plain name) => (r.resolveName name).map fun h => (h, r)
  | .ok (.generic base arguments) => r.resolveGeneric base arguments

theorem resolve_of_plain {r : Registry} {text name : String}
    (read : Reference.ofText text = .ok (.plain name)) :
    r.resolve text = (r.resolveName name).map fun h => (h, r) := by
  rw [resolve, read]

theorem resolve_of_generic {r : Registry} {text base : String}
    {arguments : List String} {t : Template} {handles : List Handle}
    (read : Reference.ofText text = .ok (.generic base arguments))
    (template : r.resolveTemplate base = .ok t)
    (found : arguments.mapM r.resolveName = .ok handles) :
    r.resolve text = r.instantiate t handles := by
  simp only [resolve, read, resolveGeneric, template, found]

/-- A reference means the type that its name finds, or the instance of what its
base finds at what its arguments find. -/
theorem resolve_cases {r grown : Registry} {text : String} {h : Handle}
    (resolved : r.resolve text = .ok (h, grown)) :
    (∃ name, Reference.ofText text = .ok (.plain name) ∧
      r.resolveName name = .ok h ∧ grown = r) ∨
    ∃ base arguments t handles,
      Reference.ofText text = .ok (.generic base arguments) ∧
      r.resolveTemplate base = .ok t ∧ arguments.mapM r.resolveName =
        .ok handles ∧ r.instantiate t handles = .ok (h, grown) := by
  unfold resolve at resolved
  split at resolved
  · cases resolved
  · next name read =>
      cases found : r.resolveName name with
      | error error => simp [found, Except.map] at resolved
      | ok first =>
          rw [found] at resolved
          cases resolved
          exact .inl ⟨name, read, found, rfl⟩
  · next base arguments read =>
      unfold resolveGeneric at resolved
      split at resolved
      · cases resolved
      · next t template =>
          split at resolved
          · cases resolved
          · next handles found =>
              exact .inr ⟨base, arguments, t, handles, read, template, found,
                resolved⟩

/-- Looking up a reference leaves the registry as it is, or appends the instance
it names. -/
theorem eq_or_push_of_resolve_eq_ok {r grown : Registry} {text : String}
    {h : Handle} (resolved : r.resolve text = .ok (h, grown)) :
    grown = r ∨ ∃ d, (h, grown) = r.push d := by
  rcases resolve_cases resolved with
    ⟨_, _, _, same⟩ | ⟨_, _, _, _, _, _, _, made⟩
  · exact .inl same
  · exact eq_or_push_of_instantiate_eq_ok made

end BinderIdl.Types.Registry
