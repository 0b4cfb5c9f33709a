import BinderIdl.Types.Lookup
import Std.Data.HashMap.Lemmas

/-! The registry behind its indices: types by qualified and by simple name,
templates by qualified name. Every look-up goes through an index, and no index
names an entry that is not there. -/

namespace BinderIdl.Types

structure IndexedRegistry where
  arena : Registry
  handleOf : Std.HashMap String Handle
  /-- The types of each simple name, in the order of registration; instances
  have none. -/
  handlesOf : Std.HashMap String (List Handle)
  templateOf : Std.HashMap String Nat
  handleOf_lt : ∀ (name : String) (h : Handle), handleOf[name]? = some h →
    h.index < arena.types.length
  handlesOf_lt : ∀ (name : String), ∀ h ∈ handlesOf.getD name [],
    h.index < arena.types.length
  templateOf_lt : ∀ (name : String) (i : Nat), templateOf[name]? = some i →
    i < arena.templates.length

namespace IndexedRegistry

def empty : IndexedRegistry where
  arena := .empty
  handleOf := ∅
  handlesOf := ∅
  templateOf := ∅
  handleOf_lt := by simp
  handlesOf_lt := by simp
  templateOf_lt := by simp

def findQualified? (r : IndexedRegistry) (qualifiedName : String) :
    Option Handle :=
  r.handleOf[qualifiedName]?

def find? (r : IndexedRegistry) (package name : String) : Option Handle :=
  r.findQualified? (qualify package name)

def handles (r : IndexedRegistry) (name : String) :
    List Handle := r.handlesOf.getD name []

theorem handles_lt (r : IndexedRegistry) (name : String) :
    ∀ h ∈ r.handles name, h.index < r.arena.types.length :=
  r.handlesOf_lt name

def enter (index : Std.HashMap String (List Handle)) (name : String)
    (h : Handle) :
    Std.HashMap String (List Handle) :=
  index.insert name (index.getD name [] ++ [h])

theorem getD_enter (index : Std.HashMap String (List Handle))
    (name other : String) (h : Handle) :
    (enter index name h).getD other [] =
      index.getD other [] ++ (if name = other then [h] else []) := by
  rw [enter, Std.HashMap.getD_insert]
  by_cases same : name = other
  · simp [same]
  · simp [same]

/-- The index of simple names after one more type. -/
def enterType (index : Std.HashMap String (List Handle)) (d : Descriptor)
    (h : Handle) :
    Std.HashMap String (List Handle) :=
  if d.kind = .generic then index else enter index d.name h

theorem getD_enterType (index : Std.HashMap String (List Handle))
    (d : Descriptor) (h : Handle) (name : String) :
    (enterType index d h).getD name [] = index.getD name [] ++ (if d.kind ≠
      .generic ∧ d.name = name then [h] else []) := by
  unfold enterType
  by_cases generic : d.kind = .generic
  · simp [generic]
  · rw [if_neg generic, getD_enter]
    simp [generic]

/-- Appends a type and enters it in the indices. -/
def insert (r : IndexedRegistry) (d : Descriptor) : Handle × IndexedRegistry :=
  let pushed := r.arena.push d
  (pushed.1, {
    arena := pushed.2
    handleOf := r.handleOf.insert d.qualifiedName pushed.1
    handlesOf := enterType r.handlesOf d pushed.1
    templateOf := r.templateOf
    handleOf_lt := by
      intro name h found
      rw [Std.HashMap.getElem?_insert] at found
      simp only [pushed, Registry.push, List.length_append,
        List.length_singleton]
      split at found
      · cases found
        exact Nat.lt_succ_self _
      · exact Nat.lt_succ_of_lt (r.handleOf_lt name h found)
    handlesOf_lt := by
      intro name h listed
      rw [getD_enterType, List.mem_append] at listed
      simp only [pushed, Registry.push, List.length_append,
        List.length_singleton]
      rcases listed with old | new
      · exact Nat.lt_succ_of_lt (r.handlesOf_lt name h old)
      · split at new
        · cases List.mem_singleton.mp new
          exact Nat.lt_succ_self _
        · cases new
    templateOf_lt := r.templateOf_lt })

def register (r : IndexedRegistry) (d : Descriptor) :
    Except RegisterError (Handle × IndexedRegistry) :=
  match found : r.handleOf[d.qualifiedName]? with
  | none => .ok (r.insert d)
  | some h =>
      let existing := r.arena.types.get ⟨h.index, r.handleOf_lt _ h found⟩
      if existing = d then .ok (h, r) else .error (.redefinition d h existing)

def declareParcelable (r : IndexedRegistry) (package name : String)
    (site : Source.Site) :
    Except RegisterError (Handle × IndexedRegistry) :=
  r.register (.parcelable package name site)

def declareInterface (r : IndexedRegistry) (package name : String)
    (oneway : Bool) (site : Source.Site) :
    Except RegisterError (Handle × IndexedRegistry) :=
  r.register (.interface package name oneway site)

def insertTemplate (r : IndexedRegistry) (t : Template) : IndexedRegistry where
  arena := { r.arena with templates := r.arena.templates ++ [t] }
  handleOf := r.handleOf
  handlesOf := r.handlesOf
  templateOf := r.templateOf.insert t.qualifiedName r.arena.templates.length
  handleOf_lt := r.handleOf_lt
  handlesOf_lt := r.handlesOf_lt
  templateOf_lt := by
    intro name i found
    rw [Std.HashMap.getElem?_insert] at found
    rw [List.length_append, List.length_singleton]
    split at found
    · cases found
      exact Nat.lt_succ_self _
    · exact Nat.lt_succ_of_lt (r.templateOf_lt name i found)

def registerTemplate (r : IndexedRegistry) (t : Template) :
    Except RegisterError IndexedRegistry :=
  match found : r.templateOf[t.qualifiedName]? with
  | none => .ok (r.insertTemplate t)
  | some i =>
      let existing :=
        (r.arena.templates.get ⟨i, r.templateOf_lt _ i found⟩).arity
      if existing = t.arity then .ok r
      else .error (.arityConflict t.qualifiedName existing t.arity)

/-- Candidates for an ambiguous name, in code point order. -/
def candidates (r : IndexedRegistry) (name : String) : List String :=
  ((r.handles name).pmap
    (fun h bound => (r.arena.types.get ⟨h.index, bound⟩).qualifiedName)
    (r.handles_lt name)).mergeSort fun a b => decide (a ≤ b)

def resolveName (r : IndexedRegistry) (name : String) :
    Except LookupError Handle :=
  match r.findQualified? name with
  | some h => .ok h
  | none =>
      match r.handles name with
      | [] => .error (.unknown name)
      | [h] => .ok h
      | _ => .error (.ambiguous name (r.candidates name))

def resolveTemplate (r : IndexedRegistry) (name : String) :
    Except LookupError Template :=
  match found : r.templateOf[name]? with
  | some i => .ok (r.arena.templates.get ⟨i, r.templateOf_lt _ i found⟩)
  | none =>
      match r.arena.templates.filter fun t => t.name == name with
      | [] => .error (.unknown name)
      | [t] => .ok t
      | many => .error (.ambiguous name (many.map Template.qualifiedName))

def instantiate (r : IndexedRegistry) (t : Template) (handles : List Handle) :
    Except LookupError (Handle × IndexedRegistry) :=
  if handles.length ≠ t.arity then
    .error (.arityMismatch t.qualifiedName t.arity handles.length)
  else
    match handles.mapM r.arena.argument with
    | .error error => .error error
    | .ok arguments =>
        match r.findQualified? (t.instanceName arguments) with
        | some h => .ok (h, r)
        | none => .ok (r.insert (t.apply handles arguments))

def resolveGeneric (r : IndexedRegistry) (base : String)
    (arguments : List String) :
    Except LookupError (Handle × IndexedRegistry) :=
  match r.resolveTemplate base with
  | .error error => .error error
  | .ok t =>
      match arguments.mapM r.resolveName with
      | .error error => .error error
      | .ok handles => r.instantiate t handles

def resolve (r : IndexedRegistry) (text : String) :
    Except LookupError (Handle × IndexedRegistry) :=
  match Reference.ofText text with
  | .error error => .error error
  | .ok (.plain name) => (r.resolveName name).map fun h => (h, r)
  | .ok (.generic base arguments) => r.resolveGeneric base arguments

end IndexedRegistry

end BinderIdl.Types
