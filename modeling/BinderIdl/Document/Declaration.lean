import BinderIdl.Document.Basic
import BinderIdl.Types.Registry

/-! Declaration: the types of a document enter the registry. A type that cannot
is reported and left out. -/

namespace BinderIdl.Document

open BinderIdl.Types

def Item.descriptor (doc : Document) : Item → Descriptor
  | parcelable name line => .parcelable doc.package name (doc.site line)
  | interface i => .interface doc.package i.name i.oneway (doc.site i.line)

def Item.line : Item → Nat
  | parcelable _ line => line
  | interface i => i.line

def declareItem (doc : Document) (r : Registry) (item : Item) :
    Registry × List Diagnostic :=
  match r.register (item.descriptor doc) with
  | .ok (_, grown) => (grown, [])
  | .error error => (r, [error.report (doc.site item.line)])

def declareItems (doc : Document) (r : Registry) :
    List Item → Registry × List Diagnostic
  | [] => (r, [])
  | item :: rest =>
      let (grown, reports) := declareItem doc r item
      let (final, more) := declareItems doc grown rest
      (final, reports ++ more)

def declare (doc : Document) (r : Registry) : Registry × List Diagnostic :=
  declareItems doc r doc.items

end BinderIdl.Document
