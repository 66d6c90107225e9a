import ScriptSurface.TypeExpr

/-!
# Spelling types out

A type is spelled with its brackets around the spellings of its parts: `[]` after a component,
`<…>` around arguments, `?` for the unknown type.  How classes and variables are spelled is up to
the caller: `TypeExpr.description` writes ids (`#20<#1, #20:T0>`), and diagnostics for people write
the host's names (`Box<String>`).
-/

namespace ScriptSurface

/-- A class by its id. -/
def ClassId.spelling (c : ClassId) : List Char := '#' :: Nat.toDigits 10 c.index.toNat

/-- A variable by the id of its owner and its position there. -/
def TypeVar.spelling (v : TypeVar) : List Char :=
  v.owner.spelling ++ ':' :: 'T' :: Nat.toDigits 10 v.index.toNat

namespace TypeExpr

mutual

/-- A type spelled with the given spellings of classes and variables. -/
def spell (ofClass : ClassId → List Char) (ofVar : TypeVar → List Char) : TypeExpr → List Char
  | unknown => ['?']
  | plain c _ => ofClass c
  | array t _ => spell ofClass ofVar t ++ ['[', ']']
  | applied raw ts _ => ofClass raw ++ '<' :: spellAll ofClass ofVar ts ++ ['>']
  | var v _ => ofVar v

/-- Types spelled one after the other, with a comma and a space between them. -/
def spellAll (ofClass : ClassId → List Char) (ofVar : TypeVar → List Char) :
    List TypeExpr → List Char
  | [] => []
  | [t] => spell ofClass ofVar t
  | t :: u :: ts => spell ofClass ofVar t ++ ',' :: ' ' :: spellAll ofClass ofVar (u :: ts)

end

/-- A type spelled with ids. -/
def description (t : TypeExpr) : String :=
  String.ofList (t.spell ClassId.spelling TypeVar.spelling)

end TypeExpr

end ScriptSurface
