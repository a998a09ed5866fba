import Mathlib.Order.Bounds.Defs
import OpenApiClient.Proofs.Types.Declared
import OpenApiClient.Proofs.Types.Reach

/-!
# The named schemas that operations need

A file that declares all its types for itself declares the named schemas that its operations need.
Their names are the least set that has the names in the schemas of the operations and is closed
(`isLeast_namesUsedBy`). A schema of such a name is declared in the order of the document, unless a
schema before it gives the same type name (`declarations_needed`).
-/

namespace OpenApiClient

open Code (Declaration)

namespace Document

/-- Whether a set of names is enough for operations: it has the names that the schemas which they
use refer to, and is closed. -/
structure Serves (d : Document) (operations : List Operation) (names : Set String) : Prop where
  given : ∀ op ∈ operations, ∀ s, op.Uses s → ∀ r ∈ s.references, r ∈ names
  closed : d.Closed names

variable {d : Document} {operations : List Operation}

theorem serves_namesUsedBy (d : Document) (operations : List Operation) :
    d.Serves operations {name | name ∈ d.namesUsedBy operations} where
  given := fun op hop s hs _ hr =>
    (d.namesUsedBy_spec operations).1 op hop s (Operation.mem_schemas.mpr hs) hr
  closed := (d.namesUsedBy_spec operations).2

/-- What is reached from the operations is in every set that is enough for them. -/
theorem Serves.namesUsedBy_subset {names : Set String} (h : d.Serves operations names) :
    ∀ name ∈ d.namesUsedBy operations, name ∈ names := by
  refine reach_subset h.closed _ _ (fun name hname => ?_) (fun name hname => nomatch hname)
  obtain ⟨op, hop, hname⟩ := List.mem_flatMap.mp (List.mem_reverse.mp hname)
  obtain ⟨s, hs, hname⟩ := List.mem_flatMap.mp hname
  exact h.given op hop s (Operation.mem_schemas.mp hs) name hname

theorem isLeast_namesUsedBy (d : Document) (operations : List Operation) :
    IsLeast {names | d.Serves operations names} {name | name ∈ d.namesUsedBy operations} :=
  ⟨d.serves_namesUsedBy operations, fun _ h => h.namesUsedBy_subset⟩

/-- What is enough depends on the named schemas only. -/
theorem Serves.of_schemas {d' : Document} {names : Set String} (h : d.Serves operations names)
    (hschemas : d'.schemas = d.schemas) : d'.Serves operations names where
  given := h.given
  closed := by
    intro name hname s hs
    rw [schema?, hschemas] at hs
    exact h.closed name hname s hs

/-- Whether operations need the schema of a name: it is in every set of names that is enough. -/
def Needs (d : Document) (operations : List Operation) (name : String) : Prop :=
  ∀ names : Set String, d.Serves operations names → name ∈ names

theorem needs_iff {name : String} :
    d.Needs operations name ↔ name ∈ d.namesUsedBy operations :=
  ⟨fun h => h _ (d.serves_namesUsedBy operations), fun h _ hs => hs.namesUsedBy_subset name h⟩

end Document

/-- The schemas before which none of the list gives the same type name. -/
def firstOfTypeName (c : TypeContext) (entries : List (String × Schema)) :
    List (String × Schema) :=
  entries.eraseDupsBy fun e first => c.typeName e.1 == c.typeName first.1

/-- The schemas that give a type name of their own are declared in order. -/
theorem declarations_eq (c : TypeContext) :
    ∀ (entries : List (String × Schema)) (declared : List String),
      (schemaDeclarations c declared entries).value.1 =
        (firstOfTypeName c (entries.filter fun e => !declared.contains (c.typeName e.1))).map
          fun e => (schemaDeclaration c e.1 e.2).value
  | [], _ => by simp [schemaDeclarations, firstOfTypeName]
  | (name, s) :: rest, declared => by
    by_cases h : c.typeName name ∈ declared
    · rw [value_schemaDeclarations_of_mem h, declarations_eq c rest, List.filter_cons_of_neg]
      simpa using h
    · rw [value_schemaDeclarations_of_not_mem h, declarations_eq c rest, List.filter_cons_of_pos]
      · rw [firstOfTypeName, firstOfTypeName, List.eraseDupsBy_cons, List.map_cons,
          List.filter_filter]
        simp only [List.contains_cons, Bool.not_or, Bool.decide_eq_false]
      · simpa using h

/-- **Needed schemas.** Among the schemas of a document, in its order, those are declared whose
names are in the least set that has the names in the schemas of the operations and is closed; only
a schema is left out whose type name one before it gives. -/
theorem declarations_needed (c : TypeContext) (ops : List PlannedOperation) :
    let operations := ops.map PlannedOperation.operation
    ∃ names : List String,
      IsLeast {S | c.document.Serves operations S} {name | name ∈ names} ∧
      (schemaDeclarations c [] (c.document.schemasUsedBy operations)).value.1 =
        (firstOfTypeName c (c.document.schemas.filter fun e => names.contains e.1)).map
          fun e => (schemaDeclaration c e.1 e.2).value := by
  intro operations
  refine ⟨c.document.namesUsedBy operations, c.document.isLeast_namesUsedBy operations, ?_⟩
  rw [declarations_eq]
  simp only [List.contains_nil, Bool.not_false, List.filter_true]
  rfl

end OpenApiClient
