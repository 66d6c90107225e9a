import ScriptSurface.TypeExpr

/-!
# Substitution

Substitution replaces the variables of a type that are bound by their targets, all at once: targets
are left as they are.  It goes no deeper than a limit, where the root is at depth 0 and an array's
component and each type argument are one deeper; parts below the limit stay as they are.

A type in which nothing was replaced is handed back as the very instance it was.  So the central
function `TypeExpr.substitute?` answers only what changed: `none` says that the given instance
stands.  The same goes for lists of types, `TypeExpr.substituteAll?`.
-/

namespace ScriptSurface

/-- What variables stand for. -/
abbrev Bindings := TypeVar → Option TypeExpr

namespace TypeExpr

mutual

/-- What becomes of a type at the given depth, or `none` if it stays the instance it is. -/
def substitute? (σ : Bindings) (limit depth : Nat) : TypeExpr → Option TypeExpr
  | unknown => none
  | plain _ _ => none
  | var v s =>
    if limit < depth then none
    else
      match σ v with
      | some target => if target.same (var v s) then none else some target
      | none => none
  | array t _ =>
    if limit < depth then none
    else
      match substitute? σ limit (depth + 1) t with
      | some t' => some (array t' .anonymous)
      | none => none
  | applied raw ts _ =>
    if limit < depth then none
    else
      match substituteAll? σ limit (depth + 1) ts with
      | some ts' => some (applied raw ts' .anonymous)
      | none => none

/-- What becomes of a list of types at the given depth, or `none` if it stays the list it is. -/
def substituteAll? (σ : Bindings) (limit depth : Nat) : List TypeExpr → Option (List TypeExpr)
  | [] => none
  | t :: ts =>
    match substitute? σ limit depth t, substituteAll? σ limit depth ts with
    | none, none => none
    | t', ts' => some (t'.getD t :: ts'.getD ts)

end

/-- The type with its bound variables replaced down to the limit. -/
def substitute (σ : Bindings) (limit : Nat) (t : TypeExpr) : TypeExpr :=
  (substitute? σ limit 0 t).getD t

/-- The types with their bound variables replaced, each down to the limit. -/
def substituteAll (σ : Bindings) (limit : Nat) (ts : List TypeExpr) : List TypeExpr :=
  (substituteAll? σ limit 0 ts).getD ts

/-! ### What lies too deep -/

mutual

/-- The parts of a type just below the limit, left to right; each is where substitution stops. -/
def beyond (limit depth : Nat) : TypeExpr → List TypeExpr
  | unknown => if limit < depth then [unknown] else []
  | plain c s => if limit < depth then [plain c s] else []
  | var v s => if limit < depth then [var v s] else []
  | array t s => if limit < depth then [array t s] else beyond limit (depth + 1) t
  | applied raw ts s =>
    if limit < depth then [applied raw ts s] else beyondAll limit (depth + 1) ts

/-- The parts of each of the types just below the limit. -/
def beyondAll (limit depth : Nat) : List TypeExpr → List TypeExpr
  | [] => []
  | t :: ts => beyond limit depth t ++ beyondAll limit depth ts

end

end TypeExpr

end ScriptSurface
