import OpenApiClient.Json.Basic
import OpenApiClient.Schema.Pointer
import OpenApiClient.Text.Blank

/-!
# Schemas

A schema describes the values of a parameter, a body or a component. Only the shapes that have a
meaning for a client are told apart: references, primitive types, enumerations, arrays, objects and
combinations; everything else may be anything. References are never followed here.
-/

namespace OpenApiClient

inductive Primitive where
  | string
  | number
  | integer
  | boolean
  deriving DecidableEq, Repr

namespace Primitive

def all : List Primitive := [string, number, integer, boolean]

def name : Primitive → String
  | string => "string"
  | number => "number"
  | integer => "integer"
  | boolean => "boolean"

def ofName? (s : String) : Option Primitive :=
  all.find? fun p => p.name == s

end Primitive

/-- The ways to combine schemas. -/
inductive Combinator where
  | allOf
  | anyOf
  | oneOf
  deriving DecidableEq, Repr

def Combinator.name : Combinator → String
  | allOf => "allOf"
  | anyOf => "anyOf"
  | oneOf => "oneOf"

/-- What a schema says about itself in words. -/
structure Notes where
  title : Option String
  description : Option String
  format : Option String
  deriving DecidableEq, Repr, Inhabited

/-- A schema without words. -/
def Notes.none : Notes := ⟨.none, .none, .none⟩

/-- The words that label a schema: its title, else its description, unless they are blank. A blank
title hides the description. -/
def Notes.label (n : Notes) : Option String :=
  (n.title.or n.description).filter fun s => !Text.isBlank s

inductive Schema where
  /-- A pointer to a named schema. -/
  | reference (notes : Notes) (pointer : String)
  | primitive (notes : Notes) (type : Primitive)
  /-- A closed list of values, with the primitive type that was declared for them. -/
  | enumeration (notes : Notes) (base : Option Primitive) (values : List Json)
  | array (notes : Notes) (items : Option Schema)
  /-- An object with its properties in order, the names of those that must be there, and the schema
  of all further entries. -/
  | object (notes : Notes) (properties : List (String × Schema)) (required : List String)
      (additional : Option Schema)
  | combination (notes : Notes) (kind : Combinator) (branches : List Schema)
  /-- Anything, with the type that was declared and is not understood. -/
  | anything (notes : Notes) (type : Option String)
  deriving Repr, Inhabited

namespace Schema

def notes : Schema → Notes
  | reference n _ | primitive n _ | enumeration n _ _ | array n _ | object n _ _ _
  | combination n _ _ | anything n _ => n

def withNotes (n : Notes) : Schema → Schema
  | reference _ p => reference n p
  | primitive _ t => primitive n t
  | enumeration _ b vs => enumeration n b vs
  | array _ i => array n i
  | object _ ps r a => object n ps r a
  | combination _ k bs => combination n k bs
  | anything _ t => anything n t

def label (s : Schema) : Option String := s.notes.label

/-- The properties of an object that declares some, and the names of the required ones. -/
def properties? : Schema → Option (List (String × Schema) × List String)
  | object _ [] _ _ => none
  | object _ properties required _ => some (properties, required)
  | _ => none

mutual

def pointers : Schema → List String
  | reference _ pointer => [pointer]
  | array _ (some items) => pointers items
  | object _ properties _ none => propertyPointers properties
  | object _ properties _ (some extra) => propertyPointers properties ++ pointers extra
  | combination _ _ branches => branchPointers branches
  | _ => []
termination_by structural s => s

def propertyPointers : List (String × Schema) → List String
  | [] => []
  | (_, s) :: rest => pointers s ++ propertyPointers rest
termination_by structural ps => ps

def branchPointers : List Schema → List String
  | [] => []
  | s :: rest => pointers s ++ branchPointers rest
termination_by structural bs => bs

end

def references (s : Schema) : List String :=
  s.pointers.map Pointer.name

def pointingAt (pointer : String) : Schema := reference .none pointer

def ofPrimitive (p : Primitive) : Schema := primitive .none p

def arrayOf (items : Schema) : Schema := array .none (some items)

def objectOf (properties : List (String × Schema)) (required : List String) : Schema :=
  object .none (Entries.ofList properties) required none

def titled (title : String) (s : Schema) : Schema :=
  s.withNotes { s.notes with title := some title }

def described (description : String) (s : Schema) : Schema :=
  s.withNotes { s.notes with description := some description }

/-! ## Equality -/

mutual

def beq : Schema → Schema → Bool
  | reference n p, reference m q => n == m && p == q
  | primitive n p, primitive m q => n == m && p == q
  | enumeration n b vs, enumeration m c ws => n == m && b == c && decide (vs = ws)
  | array n i, array m j => n == m && beqOption i j
  | object n ps r a, object m qs t b => n == m && beqProperties ps qs && r == t && beqOption a b
  | combination n k bs, combination m l cs => n == m && k == l && beqBranches bs cs
  | anything n t, anything m u => n == m && t == u
  | _, _ => false
termination_by structural s => s

/-- Whether two schemas that may be missing are equal. -/
def beqOption : Option Schema → Option Schema → Bool
  | none, none => true
  | some s, some t => beq s t
  | _, _ => false
termination_by structural s => s

def beqProperties : List (String × Schema) → List (String × Schema) → Bool
  | [], [] => true
  | (k, s) :: ps, (l, t) :: qs => k == l && beq s t && beqProperties ps qs
  | _, _ => false
termination_by structural ps => ps

def beqBranches : List Schema → List Schema → Bool
  | [], [] => true
  | s :: bs, t :: cs => beq s t && beqBranches bs cs
  | _, _ => false
termination_by structural bs => bs

end

mutual

theorem eq_of_beq : ∀ {a b : Schema}, a.beq b = true → a = b
  | reference .., b, h => by cases b <;> simp_all [beq]
  | primitive .., b, h => by cases b <;> simp_all [beq]
  | enumeration .., b, h => by cases b <;> simp_all [beq]
  | array n i, b, h => by
    cases b <;> simp only [beq, Bool.false_eq_true, Bool.and_eq_true, beq_iff_eq] at h
    rw [h.1, eq_of_beqOption h.2]
  | object n ps r x, b, h => by
    cases b <;> simp only [beq, Bool.false_eq_true, Bool.and_eq_true, beq_iff_eq] at h
    rw [h.1.1.1, eq_of_beqProperties h.1.1.2, h.1.2, eq_of_beqOption h.2]
  | combination n k bs, b, h => by
    cases b <;> simp only [beq, Bool.false_eq_true, Bool.and_eq_true, beq_iff_eq] at h
    rw [h.1.1, h.1.2, eq_of_beqBranches h.2]
  | anything .., b, h => by cases b <;> simp_all [beq]

theorem eq_of_beqOption : ∀ {a b : Option Schema}, beqOption a b = true → a = b
  | none, b, h => by cases b <;> simp_all [beqOption]
  | some s, b, h => by
    cases b <;> simp only [beqOption, Bool.false_eq_true] at h
    rw [eq_of_beq h]

theorem eq_of_beqProperties : ∀ {a b : List (String × Schema)}, beqProperties a b = true → a = b
  | [], b, h => by cases b <;> simp_all [beqProperties]
  | (k, s) :: ps, b, h => by
    cases b <;> simp only [beqProperties, Bool.false_eq_true, Bool.and_eq_true, beq_iff_eq] at h
    rw [h.1.1, eq_of_beq h.1.2, eq_of_beqProperties h.2]

theorem eq_of_beqBranches : ∀ {a b : List Schema}, beqBranches a b = true → a = b
  | [], b, h => by cases b <;> simp_all [beqBranches]
  | s :: bs, b, h => by
    cases b <;> simp only [beqBranches, Bool.false_eq_true, Bool.and_eq_true] at h
    rw [eq_of_beq h.1, eq_of_beqBranches h.2]

end

mutual

theorem beq_self : ∀ a : Schema, a.beq a = true
  | reference .. | primitive .. | enumeration .. | anything .. => by simp [beq]
  | array _ i => by simp [beq, beqOption_self i]
  | object _ ps _ a => by simp [beq, beqProperties_self ps, beqOption_self a]
  | combination _ _ bs => by simp [beq, beqBranches_self bs]

theorem beqOption_self : ∀ a : Option Schema, beqOption a a = true
  | none => rfl
  | some s => by simp [beqOption, beq_self s]

theorem beqProperties_self : ∀ a : List (String × Schema), beqProperties a a = true
  | [] => rfl
  | (_, s) :: ps => by simp [beqProperties, beq_self s, beqProperties_self ps]

theorem beqBranches_self : ∀ a : List Schema, beqBranches a a = true
  | [] => rfl
  | s :: bs => by simp [beqBranches, beq_self s, beqBranches_self bs]

end

instance : DecidableEq Schema := fun a b =>
  decidable_of_iff (a.beq b = true) ⟨eq_of_beq, fun h => h ▸ beq_self a⟩

end Schema

end OpenApiClient
