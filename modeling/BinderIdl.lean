import BinderIdl.Compiler.Basic
import BinderIdl.Java.Variables
import BinderIdl.Proofs.Types.Growth
import BinderIdl.Proofs.Types.WellFormed
import BinderIdl.Proofs.Types.Operations
import BinderIdl.Proofs.Types.Scan
import BinderIdl.Proofs.Types.Spelling
import BinderIdl.Proofs.Compiler.Order
import BinderIdl.Proofs.Parcel.Carried
import BinderIdl.Proofs.Parcel.Success
import BinderIdl.Proofs.Compiler.Finish
import BinderIdl.Proofs.Compiler.Session
import BinderIdl.Proofs.Java.Execution
import BinderIdl.Proofs.Java.Heap
import BinderIdl.Proofs.Java.Loop
import BinderIdl.Proofs.Parcel.Agreement
import BinderIdl.Proofs.Method.Protocol
import BinderIdl.Proofs.Compiler.Again
import BinderIdl.Proofs.Compiler.Policy
import BinderIdl.Proofs.Compiler.Isolation
import BinderIdl.Proofs.Method.ClassLoader
import BinderIdl.Proofs.Method.Hygiene
import BinderIdl.Proofs.Compiler.Uniqueness
import BinderIdl.Proofs.Document.Acceptance
import BinderIdl.Proofs.Diagnostic.History
import BinderIdl.Proofs.Types.Registration
import BinderIdl.Proofs.Compiler.Attribution
import BinderIdl.Proofs.Parcel.Failure
import BinderIdl.Proofs.Document.Selection
import BinderIdl.Proofs.Document.Independence
import BinderIdl.Proofs.Diagnostic.Repetition
import BinderIdl.Proofs.Types.Grammar
import BinderIdl.Proofs.Types.Seeding
import BinderIdl.Proofs.Java.Printing
import BinderIdl.Proofs.Java.Readability
import BinderIdl.Proofs.Parcel.Recursion
