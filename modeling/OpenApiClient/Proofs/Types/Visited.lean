import Mathlib.Data.List.Basic
import OpenApiClient.Client.SchemaType

/-!
# What the types of schemas mention

The type of a schema is made by a walk that meets some of the pointers in the schema (`visited`); it
does not go into combinations, nor into further entries of an object that declares properties. Where
the names of the schemas that these pointers lead to are known, the type mentions nothing unknown
(`closed_toType`): it is built of the names of TypeScript, of known names and of the texts of scalar
values.
-/

namespace OpenApiClient

namespace Code.TypeExpr

/-- The names of types that need no declaration. -/
def builtinNames : List String := ["any", "boolean", "null", "number", "string"]

mutual

/-- Whether a type mentions known names only, and its literals are those of scalar values. -/
def Closed (names : List String) : TypeExpr → Prop
  | named name => name ∈ builtinNames ∨ name ∈ names
  | literals texts => ∀ text ∈ texts, ∃ v, literal? v = some text
  | array item => item.Closed names
  | record value => value.Closed names
  | object members => MembersClosed names members
termination_by structural t => t

/-- Whether the types of members mention known names only. -/
def MembersClosed (names : List String) : List (MemberHead × TypeExpr) → Prop
  | [] => True
  | (_, type) :: rest => type.Closed names ∧ MembersClosed names rest
termination_by structural ms => ms

end

variable {names : List String}

theorem closed_any : any.Closed names := Or.inl (by decide)

theorem closed_builtin {name : String} (h : name ∈ builtinNames) : (named name).Closed names :=
  Or.inl h

theorem membersClosed_iff : ∀ {members : List (MemberHead × TypeExpr)},
    MembersClosed names members ↔ ∀ m ∈ members, m.2.Closed names
  | [] => by simp [MembersClosed]
  | m :: members => by
    rw [MembersClosed, membersClosed_iff, List.forall_mem_cons]

end Code.TypeExpr

namespace Schema

open Code (TypeExpr)

/-! ## Visited pointers -/

mutual

/-- The pointers that the type of a schema is made from, in order. -/
def visited : Schema → List String
  | reference _ pointer => [pointer]
  | array _ (some items) => visited items
  | object _ [] _ (some extra) => visited extra
  | object _ (p :: ps) _ _ => propertyVisited (p :: ps)
  | _ => []
termination_by structural s => s

/-- The pointers that the types of properties are made from. -/
def propertyVisited : List (String × Schema) → List String
  | [] => []
  | (_, s) :: rest => visited s ++ propertyVisited rest
termination_by structural ps => ps

end

mutual

theorem visited_subset_pointers : ∀ s : Schema, s.visited ⊆ s.pointers
  | reference .. => by simp [visited, pointers]
  | primitive .. | enumeration .. | combination .. | anything .. => by simp [visited]
  | array _ none => by simp [visited]
  | array _ (some items) => by
    rw [visited, pointers]
    exact visited_subset_pointers items
  | object _ [] _ none => by simp [visited]
  | object _ [] _ (some extra) => by
    rw [visited, pointers]
    exact List.subset_append_of_subset_right _ (visited_subset_pointers extra)
  | object _ (p :: ps) _ none => by
    rw [visited, pointers]
    exact propertyVisited_subset_pointers (p :: ps)
  | object _ (p :: ps) _ (some extra) => by
    rw [visited, pointers]
    exact List.subset_append_of_subset_left _ (propertyVisited_subset_pointers (p :: ps))

theorem propertyVisited_subset_pointers : ∀ ps : List (String × Schema),
    propertyVisited ps ⊆ propertyPointers ps
  | [] => by simp [propertyVisited]
  | (_, s) :: rest => by
    rw [propertyVisited, propertyPointers]
    exact List.append_subset.mpr
      ⟨List.subset_append_of_subset_left _ (visited_subset_pointers s),
        List.subset_append_of_subset_right _ (propertyVisited_subset_pointers rest)⟩

end

theorem visited_subset_propertyVisited {ps : List (String × Schema)} {p : String × Schema}
    (h : p ∈ ps) : p.2.visited ⊆ propertyVisited ps := by
  induction ps with
  | nil => simp at h
  | cons q ps ih =>
    rw [propertyVisited]
    rcases List.mem_cons.mp h with rfl | hmem
    · exact List.subset_append_left _ _
    · exact List.subset_append_of_subset_right _ (ih hmem)

/-- The pointers of a property are visited with the object. -/
theorem visited_subset_of_properties? {s : Schema} {ps : List (String × Schema)}
    {required : List String} (hs : s.properties? = some (ps, required)) {p : String × Schema}
    (hp : p ∈ ps) : p.2.visited ⊆ s.visited := by
  cases s with
  | object n properties r additional =>
    cases properties with
    | nil => simp [properties?] at hs
    | cons q qs =>
      simp only [properties?, Option.some.injEq, Prod.mk.injEq] at hs
      rw [visited, hs.1]
      exact visited_subset_propertyVisited hp
  | _ => simp [properties?] at hs

/-! ## Covered schemas -/

variable {c : TypeContext} {names : List String}

/-- Whether the names of all schemas are known that the visited pointers of a schema lead to. -/
def Covered (c : TypeContext) (names : List String) (s : Schema) : Prop :=
  ∀ pointer ∈ s.visited, ∀ name, c.referenceName? pointer = some name → name ∈ names

theorem Covered.property {s : Schema} (h : s.Covered c names) {ps : List (String × Schema)}
    {required : List String} (hs : s.properties? = some (ps, required)) {p : String × Schema}
    (hp : p ∈ ps) : p.2.Covered c names :=
  fun pointer hpointer => h pointer (visited_subset_of_properties? hs hp hpointer)

theorem exists_literal?_of_mapM {text : String} : ∀ {values : List Json} {texts : List String},
    values.mapM literal? = some texts → text ∈ texts → ∃ v, literal? v = some text
  | [], texts, h, hmem => by
    cases h
    simp at hmem
  | v :: values, texts, h, hmem => by
    rw [List.mapM_cons] at h
    obtain ⟨own, hown, hrest⟩ := Option.bind_eq_some_iff.mp h
    obtain ⟨others, hothers, htexts⟩ := Option.bind_eq_some_iff.mp hrest
    cases htexts
    rcases List.mem_cons.mp hmem with rfl | hmem
    · exact ⟨v, hown⟩
    · exact exists_literal?_of_mapM hothers hmem

theorem closed_enumerationType (values : List Json) :
    (enumerationType values).Closed names := by
  unfold enumerationType literals?
  cases hmap : values.mapM literal? with
  | none => exact TypeExpr.closed_any
  | some texts =>
    -- an enumeration without values is of any type, and every other one a union of literals
    have hclosed : (TypeExpr.literals texts.eraseDups).Closed names := by
      intro text htext
      exact exists_literal?_of_mapM hmap (List.mem_eraseDups.mp htext)
    rw [Option.map_some]
    split
    · exact TypeExpr.closed_any
    · exact TypeExpr.closed_any
    next heq =>
      cases heq
      exact hclosed

theorem closed_primitive (p : Primitive) : (TypeExpr.named p.typeName).Closed names := by
  cases p <;> exact TypeExpr.closed_builtin (by decide)

mutual

/-- The type of a schema mentions nothing unknown, if the names that it leads to are known. -/
theorem closed_toType : ∀ s : Schema, s.Covered c names → (s.toType c).Closed names
  | reference _ pointer, h => by
    rw [toType]
    cases hname : c.referenceName? pointer with
    | none => exact TypeExpr.closed_any
    | some name => exact Or.inr (h pointer (by simp [visited]) name hname)
  | primitive _ p, _ => by
    rw [toType]
    exact closed_primitive p
  | enumeration _ _ values, _ => by
    rw [toType]
    exact closed_enumerationType values
  | array _ none, _ => by
    rw [toType]
    exact TypeExpr.closed_any
  | array _ (some items), h => by
    rw [toType]
    exact closed_toType items h
  | object _ [] _ none, _ => by
    rw [toType]
    exact TypeExpr.closed_any
  | object _ [] _ (some extra), h => by
    rw [toType]
    exact closed_toType extra h
  | object _ (p :: ps) required none, h => by
    rw [toType]
    exact closed_memberTypes required (p :: ps) h
  | object _ (p :: ps) required (some _), h => by
    rw [toType]
    exact closed_memberTypes required (p :: ps) h
  | combination _ _ _, _ => by
    rw [toType]
    exact TypeExpr.closed_any
  | anything _ type, _ => by
    rw [toType]
    split_ifs
    · exact TypeExpr.closed_builtin (by decide)
    · exact TypeExpr.closed_any

theorem closed_memberTypes (required : List String) : ∀ ps : List (String × Schema),
    (∀ pointer ∈ propertyVisited ps, ∀ name, c.referenceName? pointer = some name → name ∈ names) →
      TypeExpr.MembersClosed names (memberTypes c required ps)
  | [], _ => trivial
  | (_, s) :: rest, h =>
    ⟨closed_toType s fun pointer hpointer => h pointer (List.mem_append_left _ hpointer),
      closed_memberTypes required rest fun pointer hpointer =>
        h pointer (List.mem_append_right _ hpointer)⟩

end

end Schema

end OpenApiClient
