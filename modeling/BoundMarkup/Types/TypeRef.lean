/-
  BoundMarkup.Types.TypeRef
  ─────────────────────────
  **TYPES AS A BINDING SEES THEM.**

  A reference names a declared type (possibly with generic arguments), an array,
  a nullable wrapper or an open generic parameter.  Three more stand for what is
  not a type of values: an undetermined type, the result of a method that
  returns nothing, and the `null` literal before conversion.
-/
import BoundMarkup.Types.Name

namespace BoundMarkup

/-! ## §1. References and their equality. -/

/-- What declares a generic parameter. -/
inductive ParamOwner where
  /-- The containing generic type. -/
  | type
  /-- A generic method. -/
  | method
  deriving DecidableEq, Repr

/-- A type as seen by the binding resolver. -/
inductive TypeRef where
  /-- The type of an expression that could not be determined. -/
  | unknown
  /-- The result of a method without a return value. -/
  | void
  /-- The `null` literal before conversion. -/
  | null
  /-- A declared type, by its definition name, with its generic arguments. -/
  | named (name : String) (args : List TypeRef)
  | array (element : TypeRef)
  /-- A value type that may also be absent. -/
  | nullable (inner : TypeRef)
  /-- An open generic parameter, identified by owner and position. -/
  | param (owner : ParamOwner) (index : Nat) (name : String)
  deriving Repr, Inhabited

namespace TypeRef

mutual

/-- Structural equality. -/
def beq : TypeRef → TypeRef → Bool
  | unknown, unknown => true
  | void, void => true
  | null, null => true
  | named n as, named m bs => n == m && beqAll as bs
  | array a, array b => beq a b
  | nullable a, nullable b => beq a b
  | param o i n, param p j m => o == p && i == j && n == m
  | _, _ => false

/-- Structural equality, element by element. -/
def beqAll : List TypeRef → List TypeRef → Bool
  | [], [] => true
  | a :: as, b :: bs => beq a b && beqAll as bs
  | _, _ => false

end

mutual

theorem eq_of_beq : ∀ {a b : TypeRef}, beq a b = true → a = b
  | unknown, b, h => by cases b <;> simp_all [beq]
  | void, b, h => by cases b <;> simp_all [beq]
  | null, b, h => by cases b <;> simp_all [beq]
  | named n as, b, h => by
      cases b <;> simp only [beq, Bool.and_eq_true, beq_iff_eq, Bool.false_eq_true] at h
      obtain ⟨rfl, h⟩ := h
      rw [eqAll_of_beqAll h]
  | array a, b, h => by
      cases b <;> simp only [beq, Bool.false_eq_true] at h
      rw [eq_of_beq h]
  | nullable a, b, h => by
      cases b <;> simp only [beq, Bool.false_eq_true] at h
      rw [eq_of_beq h]
  | param o i n, b, h => by cases b <;> simp_all [beq]

theorem eqAll_of_beqAll : ∀ {as bs : List TypeRef}, beqAll as bs = true → as = bs
  | [], bs, h => by cases bs <;> simp_all [beqAll]
  | a :: as, bs, h => by
      cases bs <;> simp only [beqAll, Bool.and_eq_true, Bool.false_eq_true] at h
      rw [eq_of_beq h.1, eqAll_of_beqAll h.2]

end

mutual

theorem beq_refl : ∀ a : TypeRef, beq a a = true
  | unknown => rfl
  | void => rfl
  | null => rfl
  | named n as => by simp [beq, beqAll_refl as]
  | array a => by simp [beq, beq_refl a]
  | nullable a => by simp [beq, beq_refl a]
  | param o i n => by simp [beq]

theorem beqAll_refl : ∀ as : List TypeRef, beqAll as as = true
  | [] => rfl
  | a :: as => by simp [beqAll, beq_refl a, beqAll_refl as]

end

instance : DecidableEq TypeRef := fun a b =>
  if h : beq a b = true then isTrue (eq_of_beq h)
  else isFalse (fun e => h (e ▸ beq_refl a))

/-! ## §2. Parts. -/

/-- A declared type without generic arguments. -/
abbrev simple (name : String) : TypeRef := named name []

/-- The open parameter of a generic type at `index`. -/
abbrev typeParam (index : Nat) (name : String) : TypeRef := param .type index name

/-- The open parameter of a generic method at `index`. -/
abbrev methodParam (index : Nat) (name : String) : TypeRef := param .method index name

/-- The identity of the definition, for a declared type. -/
def definition? : TypeRef → Option TypeId
  | named name _ => some (TypeId.ofName name)
  | _ => none

/-- The generic arguments of a declared type. -/
def genericArgs : TypeRef → List TypeRef
  | named _ args => args
  | _ => []

/-- The element type of an array. -/
def element? : TypeRef → Option TypeRef
  | array element => some element
  | _ => none

/-- What a nullable wrapper wraps. -/
def nullableInner? : TypeRef → Option TypeRef
  | nullable inner => some inner
  | _ => none

def isNullable (t : TypeRef) : Bool := t.nullableInner?.isSome

/-- Undetermined, or the result of a method that returns nothing. -/
def isUnusable : TypeRef → Bool
  | unknown | void => true
  | _ => false

/-! ## §3. Generic parameters. -/

mutual

/-- Whether a parameter of `owner` occurs. -/
def mentions (owner : ParamOwner) : TypeRef → Bool
  | param o _ _ => o == owner
  | array element => mentions owner element
  | nullable inner => mentions owner inner
  | named _ args => mentionsAny owner args
  | unknown | void | null => false

/-- Whether a parameter of `owner` occurs in one of the types. -/
def mentionsAny (owner : ParamOwner) : List TypeRef → Bool
  | [] => false
  | t :: ts => mentions owner t || mentionsAny owner ts

end

mutual

/-- Put `args` in place of the parameters of `owner`, by position.  A position
beyond `args` stays open. -/
def substitute (owner : ParamOwner) (args : List TypeRef) : TypeRef → TypeRef
  | param o i n => if o = owner then (args[i]?).getD (param o i n) else param o i n
  | array element => array (substitute owner args element)
  | nullable inner => nullable (substitute owner args inner)
  | named name ts => named name (substituteAll owner args ts)
  | unknown => unknown
  | void => void
  | null => null

/-- `substitute` in each of the types. -/
def substituteAll (owner : ParamOwner) (args : List TypeRef) : List TypeRef → List TypeRef
  | [] => []
  | t :: ts => substitute owner args t :: substituteAll owner args ts

end

theorem substituteAll_eq_map (owner : ParamOwner) (args ts : List TypeRef) :
    substituteAll owner args ts = ts.map (substitute owner args) := by
  induction ts with
  | nil => rfl
  | cons t ts ih => simp [substituteAll, ih]

theorem mentionsAny_eq_any (owner : ParamOwner) (ts : List TypeRef) :
    mentionsAny owner ts = ts.any (mentions owner) := by
  induction ts with
  | nil => rfl
  | cons t ts ih => simp [mentionsAny, ih]

/-! ## §4. Text. -/

mutual

/-- The type as written in diagnostics and rendered expressions. -/
def text : TypeRef → String
  | unknown => "?"
  | void => "void"
  | null => "null"
  | named name [] => stripArity name
  | named name (t :: ts) => stripArity name ++ "<" ++ Text.join ", " (texts (t :: ts)) ++ ">"
  | array element => text element ++ "[]"
  | nullable inner => text inner ++ "?"
  | param _ _ name => name

/-- The texts of the types. -/
def texts : List TypeRef → List String
  | [] => []
  | t :: ts => text t :: texts ts

end

/-- The name without namespace and arity; other types as `text`. -/
def simpleName : TypeRef → String
  | named name _ => Text.afterLast '.' (stripArity name)
  | t => t.text

instance : ToString TypeRef := ⟨text⟩

end TypeRef

end BoundMarkup
