import ScriptSurface.HostTypes

/-!
# Call signatures

A `Signature` is the list of erased parameter types of a callable or of a call.  Signatures are
equal exactly when their lists are, and they are ordered like words, class by class.

The shapes almost every call uses are *common*: no parameter at all, or a single one of the types in
`Signature.commonSingles`.  Common signatures exist once and for all; see `Signature.Handle`.
-/

namespace ScriptSurface

/-- The erased parameter types of a callable or of a call. -/
structure Signature where
  /-- The types in order. -/
  types : List ClassId
deriving DecidableEq, Inhabited

namespace Signature

/-- The number of parameters. -/
def length (s : Signature) : Nat := s.types.length

/-- Whether there is no parameter. -/
def isEmpty (s : Signature) : Bool := s.types.isEmpty

/-! ### Order -/

/-- Compares signatures like words. -/
def order (a b : Signature) : Ordering := Order.lists ClassId.order a.types b.types

/-- Signatures in ascending order. -/
def sort (ss : List Signature) : List Signature := ss.mergeSort fun a b => (a.order b).isLE

/-! ### Common shapes -/

/-- The classes whose one-parameter signature is common. -/
def commonSingles : List ClassId :=
  [ClassId.object, ClassId.string, ClassId.boolean, ClassId.byte, ClassId.short, ClassId.int,
    ClassId.long, ClassId.float, ClassId.double, ClassId.char, ClassId.objectArray,
    ClassId.stringArray]

/-- The common one-parameter signature of a class, if it has one. -/
def single? (c : ClassId) : Option Signature :=
  if commonSingles.contains c then some ⟨[c]⟩ else none

/-- Whether the signature is common. -/
def isCommon (s : Signature) : Bool :=
  match s.types with
  | [] => true
  | [c] => (single? c).isSome
  | _ => false

/-! ### Spelling -/

/-- The parts between parentheses, with a comma and a space between them. -/
def spell (ofClass : ClassId → List Char) (s : Signature) : String :=
  String.ofList ('(' :: [',', ' '].intercalate (s.types.map ofClass) ++ [')'])

/-- The signature with class ids. -/
def description (s : Signature) : String := s.spell ClassId.spelling

/-- The signature with the host's names. -/
def display (h : HostTypes) (s : Signature) : String := s.spell h.spellClass

end Signature

end ScriptSurface
