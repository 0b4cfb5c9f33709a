import BinderIdl.Types.Template

/-! The registry of types and templates. It only grows: an operation fails,
finds what is there already, or appends one entry. -/

namespace BinderIdl.Types

open Source

structure Registry where
  types : List Descriptor
  templates : List Template
deriving DecidableEq

namespace Registry

def empty : Registry := ⟨[], []⟩

def size (r : Registry) : Nat := r.types.length

def isEmpty (r : Registry) : Bool := r.types.isEmpty

def get? (r : Registry) (h : Handle) : Option Descriptor := r.types[h.index]?

/-- Every type with its handle, in the order of registration. -/
def entries (r : Registry) : List (Handle × Descriptor) :=
  r.types.zipIdx.map fun entry => (⟨entry.2⟩, entry.1)

theorem mem_entries_iff {r : Registry} {h : Handle} {d : Descriptor} :
    (h, d) ∈ r.entries ↔ r.get? h = some d := by
  obtain ⟨index⟩ := h
  simp only [entries, get?, List.mem_map, Prod.exists,
    List.mem_zipIdx_iff_getElem?]
  constructor
  · rintro ⟨type, position, known, same⟩
    cases same
    exact known
  · exact fun known => ⟨d, index, known, rfl⟩

def owner? (r : Registry) (qualifiedName : String) :
    Option (Handle × Descriptor) :=
  r.entries.find? fun entry => entry.2.qualifiedName == qualifiedName

theorem get?_of_owner?_eq_some {r : Registry} {name : String} {h : Handle}
    {d : Descriptor} (found : r.owner? name = some (h, d)) :
    r.get? h = some d :=
  mem_entries_iff.mp (List.mem_of_find?_eq_some found)

theorem qualifiedName_of_owner?_eq_some {r : Registry} {name : String}
    {h : Handle} {d : Descriptor} (found : r.owner? name = some (h, d)) :
    d.qualifiedName = name := by
  simpa using List.find?_some found

def findQualified? (r : Registry) (qualifiedName : String) : Option Handle :=
  (r.owner? qualifiedName).map Prod.fst

def find? (r : Registry) (package name : String) : Option Handle :=
  r.findQualified? (qualify package name)

def push (r : Registry) (d : Descriptor) : Handle × Registry :=
  (⟨r.types.length⟩, { r with types := r.types ++ [d] })

theorem entries_push (r : Registry) (d : Descriptor) :
    (r.push d).2.entries = r.entries ++ [((r.push d).1, d)] := by
  simp [push, entries, List.zipIdx_append]

theorem owner?_push (r : Registry) (d : Descriptor) (name : String) :
    (r.push d).2.owner? name =
      (r.owner? name).or
        (if d.qualifiedName == name then some ((r.push d).1, d) else none) := by
  simp only [owner?, entries_push, List.find?_append, List.find?_singleton]

theorem get?_push (r : Registry) (d : Descriptor) :
    (r.push d).2.get? (r.push d).1 = some d := by
  simp [push, get?]

/-- Adds a type. A type that is there already keeps its handle; any other type
of the same qualified name is refused. -/
def register (r : Registry) (d : Descriptor) :
    Except RegisterError (Handle × Registry) :=
  match r.owner? d.qualifiedName with
  | none => .ok (r.push d)
  | some (h, owner) =>
      if owner = d then .ok (h, r) else .error (.redefinition d h owner)

theorem eq_or_push_of_register_eq_ok {r grown : Registry} {d : Descriptor}
    {h : Handle} (accepted : r.register d = .ok (h, grown)) :
    grown = r ∨ (h, grown) = r.push d := by
  unfold register at accepted
  split at accepted
  · exact .inr (Except.ok.inj accepted).symm
  · split at accepted
    · exact .inl (congrArg Prod.snd (Except.ok.inj accepted)).symm
    · cases accepted

theorem get?_of_register_eq_ok {r grown : Registry} {d : Descriptor}
    {h : Handle} (accepted : r.register d = .ok (h, grown)) :
    grown.get? h = some d := by
  unfold register at accepted
  split at accepted
  · cases accepted
    exact r.get?_push d
  · next owned =>
      split at accepted
      · next same =>
          cases accepted
          exact same ▸ get?_of_owner?_eq_some owned
      · cases accepted

def declareParcelable (r : Registry) (package name : String) (site : Site) :
    Except RegisterError (Handle × Registry) :=
  r.register (.parcelable package name site)

def declareInterface (r : Registry) (package name : String) (oneway : Bool)
    (site : Site) :
    Except RegisterError (Handle × Registry) :=
  r.register (.interface package name oneway site)

def template? (r : Registry) (qualifiedName : String) : Option Template :=
  r.templates.find? fun t => t.qualifiedName == qualifiedName

/-- Adds a template. The same name may come again with the same number
of parameters. -/
def registerTemplate (r : Registry) (t : Template) :
    Except RegisterError Registry :=
  match r.template? t.qualifiedName with
  | none => .ok { r with templates := r.templates ++ [t] }
  | some known =>
      if known.arity = t.arity then .ok r
      else .error (.arityConflict t.qualifiedName known.arity t.arity)

def dump (r : Registry) : String :=
  String.join (r.types.map fun d =>
    "type: package=" ++ d.package ++ " name=" ++ d.name ++ " qualifiedName="
      ++ d.qualifiedName ++ "\n")

end Registry

end BinderIdl.Types
