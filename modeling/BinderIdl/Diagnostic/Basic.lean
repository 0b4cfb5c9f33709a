import BinderIdl.Diagnostic.Code
import BinderIdl.Source.Site

namespace BinderIdl

open Source

namespace Diagnostic

inductive Severity where
  | error
  /-- Context, which no error limit counts. -/
  | note
deriving DecidableEq

def Severity.text : Severity → String
  | error => "error"
  | note => "note"

/-- A message at a site. The primary label says where the problem is, the others
what else takes part in it. -/
structure Label where
  site : Site
  message : String
  primary : Bool
deriving DecidableEq

end Diagnostic

structure Diagnostic where
  code : Diagnostic.Code
  severity : Diagnostic.Severity
  message : String
  labels : List Diagnostic.Label
  notes : List String
  suggestions : List String
deriving DecidableEq

namespace Diagnostic

def errorAt (code : Code) (site : Site) (message label : String) :
    Diagnostic where
  code := code
  severity := .error
  message := message
  labels := [⟨site, label, true⟩]
  notes := []
  suggestions := []

/-- A note that belongs to no site. -/
def remark (code : Code) (message : String) : Diagnostic where
  code := code
  severity := .note
  message := message
  labels := []
  notes := []
  suggestions := []

def withRelated (d : Diagnostic) (site : Site) (message : String) :
    Diagnostic :=
  { d with labels := d.labels ++ [⟨site, message, false⟩] }

def withNotes (d : Diagnostic) (notes : List String) : Diagnostic :=
  { d with notes := d.notes ++ notes }

def withSuggestion (d : Diagnostic) (suggestion : String) : Diagnostic :=
  { d with suggestions := d.suggestions ++ [suggestion] }

def isError (d : Diagnostic) : Bool :=
  d.severity == .error

def primarySite (d : Diagnostic) : Option Site :=
  (d.labels.find? Label.primary).map Label.site

def Label.text (label : Label) : String :=
  "\n  " ++ (if label.primary then "-->" else "   ") ++ " " ++
    label.site.text ++ ": " ++ label.message

def text (d : Diagnostic) : String :=
  d.severity.text ++ "[" ++ d.code.text ++ "]: " ++ d.message ++
    String.join (d.labels.map Label.text) ++
    String.join (d.notes.map fun note => "\n  = note: " ++ note) ++ String.join
      (d.suggestions.map fun suggestion => "\n  = help: " ++ suggestion)

/-- The summary, behind the primary site if there is one. -/
def headline (d : Diagnostic) : String :=
  let summary := d.severity.text ++ " [" ++ d.code.text ++ "]: " ++ d.message
  match d.primarySite with
  | some site => site.text ++ ": " ++ summary
  | none => summary

/-- The lines of the plain form: the headline, then the labels that are not
primary, the notes and the suggestions. -/
def plainLines (d : Diagnostic) : List String :=
  [d.headline]
    ++ (d.labels.filter fun label => !label.primary).map (fun label =>
      label.site.text ++ ":     " ++ label.message)
    ++ d.notes.map (fun note => "    = note: " ++ note)
    ++ d.suggestions.map (fun suggestion => "    = help: " ++ suggestion)

def plain (d : Diagnostic) : String :=
  String.join (d.plainLines.map (· ++ "\n"))

def plainAll (ds : List Diagnostic) : String :=
  String.join (ds.map plain)

def unknownType (site : Site) (name : String) : Diagnostic :=
  (errorAt .unknownType site ("unknown type `" ++ name ++ "`")
    "referenced here").withSuggestion
    "declare or import the type before using it"

def ambiguousType (site : Site) (name : String) (candidates : List String) :
    Diagnostic :=
  ((errorAt .ambiguousType site ("type name `" ++ name ++ "` is ambiguous")
      "referenced here").withNotes (candidates.map fun candidate =>
          "could be `" ++ candidate ++ "`")).withSuggestion
    "use the fully qualified name"

/-- A second declaration of a name. The first is shown at its site; a note tells
its kind if it has none. -/
def redefinition (site : Site) (qualifiedName newKind : String)
    (previous : Option Site) (previousKind : String) : Diagnostic :=
  let report := errorAt .redefinition site
    ("attempt to redefine " ++ qualifiedName ++ " as " ++ newKind)
    ("redefined here as " ++ newKind)
  match previous with
  | some first =>
      report.withRelated first ("previously defined here as " ++ previousKind)
  | none =>
      report.withNotes [qualifiedName ++ " is " ++ previousKind ++ " type"]

end Diagnostic

end BinderIdl
