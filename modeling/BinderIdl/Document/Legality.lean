import BinderIdl.Document.Resolution

namespace BinderIdl.Document

open Source BinderIdl.Types

/-- What was found, in order, and the handle that stopped the search if the
registry does not hold it. -/
structure Findings where
  complaints : List Diagnostic
  dangling : Option Handle

namespace Findings

def empty : Findings := ⟨[], none⟩

def complaint (d : Diagnostic) : Findings := ⟨[d], none⟩

def stop (h : Handle) : Findings := ⟨[], some h⟩

def complaintIf (condition : Bool) (d : Diagnostic) : Findings :=
  if condition then complaint d else empty

/-- Goes on with more findings, unless the search has stopped. -/
def append (first second : Findings) : Findings :=
  match first.dangling with
  | some h => ⟨first.complaints, some h⟩
  | none => ⟨first.complaints ++ second.complaints, second.dangling⟩

instance : Append Findings := ⟨append⟩

def concat (parts : List Findings) : Findings :=
  parts.foldr append empty

theorem append_eq_of_dangling {first : Findings} {h : Handle}
    (second : Findings) (stopped : first.dangling = some h) :
    first ++ second = first := by
  change append first second = first
  cases first
  simp_all [append]

theorem append_assoc (first second third : Findings) :
    first ++ second ++ third = first ++ (second ++ third) := by
  change append (append first second) third = append first (append second third)
  obtain ⟨_, _ | _⟩ := first <;> obtain ⟨_, _ | _⟩ := second <;> simp [append]

def isClean (f : Findings) : Bool := f.complaints.isEmpty && f.dangling.isNone

def withType (r : Registry) (h : Handle) (next : Descriptor → Findings) :
    Findings :=
  match r.get? h with
  | some d => next d
  | none => stop h

end Findings

open Findings

def checkArgument (r : Registry) (site : Site) (container : Descriptor)
    (h : Handle) : Findings :=
  withType r h fun argument =>
    complaintIf (!argument.canWrite)
      (.errorAt .notMarshallable site
        (argument.qualifiedName ++ " cannot be marshalled as an argument of "
          ++ container.qualifiedName) "used here")

/-- A type in a signature has to be marshallable, and so have its arguments. -/
def checkMarshallable (r : Registry) (site : Site) (type : ResolvedType) :
    Findings :=
  withType r type.handle fun d =>
    (if !d.canWrite then
      complaint (.errorAt .notMarshallable site
        (d.qualifiedName ++ " cannot be marshalled") "used here")
    else
      complaintIf (type.isArray && !d.canBeArray)
        (.errorAt .notArray site (d.qualifiedName ++ " cannot be an array")
          "array declared here"))
    ++ concat (d.argumentHandles.map (checkArgument r site d))

/-- Whether generated code can fill an existing value of the type. -/
def canReadInto (d : Descriptor) (array : Bool) : Bool :=
  if array then d.canBeArray else d.canBeOut

/-- What comes back to the caller needs a method that waits and a type that can
be filled. -/
def checkOut (m : ResolvedMethod) (p : ResolvedParameter) (site : Site)
    (d : Descriptor) : Findings :=
  complaintIf m.oneway
    (.errorAt .invalidOneway site ("oneway method " ++ m.name ++
        " cannot have " ++ p.direction.text ++ " parameter " ++ p.name)
      "declared here") ++ complaintIf (!canReadInto d p.type.isArray)
        ((Diagnostic.errorAt .notOutParameter site
            (d.qualifiedName ++ " parameter " ++ p.name ++ " cannot be " ++
              p.direction.text) "declared here").withNotes
          [d.qualifiedName ++ " is " ++ d.kind.phrase ++ " type"])

/-- The type of a parameter; only a marshallable one is asked whether it can
come back. -/
def checkParameterType (r : Registry) (m : ResolvedMethod)
    (p : ResolvedParameter) (site : Site) : Findings :=
  if p.type.isVoid then
    complaint (.errorAt .notMarshallable site
      ("parameter " ++ p.name ++ " cannot be void") "declared here")
  else
    let marshalling := checkMarshallable r site p.type
    if marshalling.isClean && p.direction.isOut then
      withType r p.type.handle (checkOut m p site)
    else marshalling

/-- Parameters in their order, behind parameters of the given names. -/
def checkParameters (doc : Document) (r : Registry) (m : ResolvedMethod) :
    List String → List ResolvedParameter → Findings
  | _, [] => empty
  | seen, p :: rest =>
      complaintIf (seen.contains p.name)
        (.errorAt .duplicateName (doc.site p.line)
          ("parameter " ++ p.name ++ " is declared more than once")
          "redeclared here") ++ checkParameterType r m p (doc.site p.line) ++
        checkParameters doc r m (p.name :: seen) rest

def checkReturn (doc : Document) (r : Registry) (m : ResolvedMethod) :
    Findings :=
  if m.returnType.isVoid then empty
  else
    checkMarshallable r (doc.site m.line) m.returnType ++
      complaintIf m.oneway (.errorAt .invalidOneway (doc.site m.line)
        ("oneway method " ++ m.name ++ " cannot return a value")
        "declared here")

def checkMethod (doc : Document) (r : Registry) (m : ResolvedMethod) :
    Findings :=
  checkReturn doc r m ++ checkParameters doc r m [] m.parameters

/-- The methods that stay, and what was found against the others. -/
structure Review (α : Type) where
  kept : α
  findings : Findings

/-- Methods in their order, behind methods of the given names. Where the
search stops, the method at hand and those after it stay, for nothing was
decided about them. -/
def checkMethods (doc : Document) (r : Registry) :
    List String → List ResolvedMethod → Review (List ResolvedMethod)
  | _, [] => ⟨[], empty⟩
  | seen, m :: rest =>
      let findings :=
        checkMethod doc r m ++ complaintIf (seen.contains m.name)
          (.errorAt .duplicateName (doc.site m.line)
            ("method " ++ m.name ++ " is declared more than once")
            "redeclared here")
      match findings.dangling with
      | some _ => ⟨m :: rest, findings⟩
      | none =>
          let others := checkMethods doc r (m.name :: seen) rest
          { kept := if findings.isClean then m :: others.kept else others.kept
            findings := findings ++ others.findings }

def checkInterface (doc : Document) (r : Registry) (i : ResolvedInterface) :
    Review ResolvedInterface :=
  let methods := checkMethods doc r [] i.methods
  ⟨{ i with methods := methods.kept }, methods.findings⟩

/-- Interfaces in their order; those behind a stop stay as they are. -/
def checkInterfaces (doc : Document) (r : Registry) :
    List ResolvedInterface → Review (List ResolvedInterface)
  | [] => ⟨[], empty⟩
  | i :: rest =>
      let first := checkInterface doc r i
      match first.findings.dangling with
      | some _ => ⟨first.kept :: rest, first.findings⟩
      | none =>
          let others := checkInterfaces doc r rest
          ⟨first.kept :: others.kept, first.findings ++ others.findings⟩

end BinderIdl.Document
