import ScriptSurface.Assoc
import ScriptSurface.ClassId
import ScriptSurface.Declaration
import ScriptSurface.Description
import ScriptSurface.Environment
import ScriptSurface.Event
import ScriptSurface.Failure
import ScriptSurface.Hierarchy
import ScriptSurface.HostTypes
import ScriptSurface.Json
import ScriptSurface.Json.Documents
import ScriptSurface.Logging
import ScriptSurface.Lookup
import ScriptSurface.Mapping
import ScriptSurface.Member.Access
import ScriptSurface.Member.Binding
import ScriptSurface.Member.Discovery
import ScriptSurface.Member.Dispatch
import ScriptSurface.Member.Property
import ScriptSurface.Member.Slot
import ScriptSurface.Naming
import ScriptSurface.Naming.NameTable
import ScriptSurface.Options
import ScriptSurface.Options.Document
import ScriptSurface.Order
import ScriptSurface.Proofs.Assoc
import ScriptSurface.Proofs.Computation
import ScriptSurface.Proofs.Documents
import ScriptSurface.Proofs.Hierarchy
import ScriptSurface.Proofs.Json.Documents
import ScriptSurface.Proofs.Json.Grammar
import ScriptSurface.Proofs.Json.Reading
import ScriptSurface.Proofs.Levels
import ScriptSurface.Proofs.Mapping.Ancestors
import ScriptSurface.Proofs.Mapping.Bindings
import ScriptSurface.Proofs.Mapping.Composition
import ScriptSurface.Proofs.Mapping.Recursion
import ScriptSurface.Proofs.Member.Access
import ScriptSurface.Proofs.Member.Accessors
import ScriptSurface.Proofs.Member.Constructors
import ScriptSurface.Proofs.Member.Discovery
import ScriptSurface.Proofs.Member.Dispatch
import ScriptSurface.Proofs.Member.Enumeration
import ScriptSurface.Proofs.Member.HostCalls
import ScriptSurface.Proofs.Member.Inheritance
import ScriptSurface.Proofs.Member.Merge
import ScriptSurface.Proofs.Member.Options
import ScriptSurface.Proofs.Member.OwnMembers
import ScriptSurface.Proofs.Member.Properties
import ScriptSurface.Proofs.Member.Renumbering
import ScriptSurface.Proofs.Member.Revisit
import ScriptSurface.Proofs.Naming
import ScriptSurface.Proofs.Naming.NameTable
import ScriptSurface.Proofs.Options.Document
import ScriptSurface.Proofs.Options.Settings
import ScriptSurface.Proofs.Order
import ScriptSurface.Proofs.Paths
import ScriptSurface.Proofs.Registry.ArrayNames
import ScriptSurface.Proofs.Registry.Arrays
import ScriptSurface.Proofs.Registry.Coherence
import ScriptSurface.Proofs.Registry.Commit
import ScriptSurface.Proofs.Registry.Declarations
import ScriptSurface.Proofs.Registry.DraftErasure
import ScriptSurface.Proofs.Registry.Entries
import ScriptSurface.Proofs.Registry.Growth
import ScriptSurface.Proofs.Registry.Recorded
import ScriptSurface.Proofs.Registry.Registration
import ScriptSurface.Proofs.Registry.Renumbering
import ScriptSurface.Proofs.Registry.Tables
import ScriptSurface.Proofs.Registry.TypeParams
import ScriptSurface.Proofs.Renumbering
import ScriptSurface.Proofs.Session.Computations
import ScriptSurface.Proofs.Session.Computations.Ancestors
import ScriptSurface.Proofs.Session.Computations.Dispatch
import ScriptSurface.Proofs.Session.Computations.Repeats
import ScriptSurface.Proofs.Session.Computations.Requests
import ScriptSurface.Proofs.Session.Constructors
import ScriptSurface.Proofs.Session.DepthLimit
import ScriptSurface.Proofs.Session.Descriptors
import ScriptSurface.Proofs.Session.Enumeration
import ScriptSurface.Proofs.Session.HostCalls
import ScriptSurface.Proofs.Session.Inheritance
import ScriptSurface.Proofs.Session.Invariants
import ScriptSurface.Proofs.Session.MappingCache
import ScriptSurface.Proofs.Session.Mappings
import ScriptSurface.Proofs.Session.Members
import ScriptSurface.Proofs.Session.Options
import ScriptSurface.Proofs.Session.OwnMembers
import ScriptSurface.Proofs.Session.Renumbering
import ScriptSurface.Proofs.Session.Replies
import ScriptSurface.Proofs.Session.Requests
import ScriptSurface.Proofs.Session.Sound
import ScriptSurface.Proofs.Session.Surface
import ScriptSurface.Proofs.Session.Tables
import ScriptSurface.Proofs.Session.TypeParams
import ScriptSurface.Proofs.Session.Walk
import ScriptSurface.Proofs.Signature.Interner
import ScriptSurface.Proofs.Supertypes
import ScriptSurface.Proofs.Text.Blank
import ScriptSurface.Proofs.TypeExpr.Erasure
import ScriptSurface.Proofs.TypeExpr.Positions
import ScriptSurface.Proofs.TypeExpr.Spelling
import ScriptSurface.Proofs.TypeExpr.Substitution
import ScriptSurface.Record
import ScriptSurface.Registry
import ScriptSurface.Registry.Draft
import ScriptSurface.Session
import ScriptSurface.Session.Descriptors
import ScriptSurface.Session.Mappings
import ScriptSurface.Session.Members
import ScriptSurface.Signature
import ScriptSurface.Signature.Interner
import ScriptSurface.Text.Blank
import ScriptSurface.Text.LetterCase
import ScriptSurface.Text.Printable
import ScriptSurface.Text.Quoted
import ScriptSurface.TypeExpr
import ScriptSurface.TypeExpr.Erasure
import ScriptSurface.TypeExpr.Spelling
import ScriptSurface.TypeExpr.Substitution
