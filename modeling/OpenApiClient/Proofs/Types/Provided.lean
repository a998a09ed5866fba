import OpenApiClient.Client.Generate
import OpenApiClient.Proofs.Types.Closed
import OpenApiClient.Proofs.Types.Reach

/-!
# The types of named schemas and operations together

A file with types declares those of some named schemas and then those of some operations
(`declaredTypes`). The named schemas are enough (`Supplies`) if they have every schema that the walk
over one of them, or over a schema of an operation, leads to. All schemas of a document are enough,
and so are those that the operations need (`supplies_schemas`, `supplies_schemasUsedBy`). Where they
are, every name that a walk emits is declared (`Schema.SuppliedBy.covered`).
-/

namespace OpenApiClient

open Code (Declaration)

variable {t : TypeContext} {components : List (String × Schema)} {ops : List PlannedOperation}

def withShapes (t : TypeContext) (ops : List PlannedOperation) :
    List (PlannedOperation × RequestShape) :=
  ops.map fun op => (op, (RequestShape.of t op).value)

def componentTypes (t : TypeContext) (components : List (String × Schema)) : List Declaration :=
  (schemaDeclarations t [] components).value.1

def operationTypes (t : TypeContext) (components : List (String × Schema))
    (ops : List PlannedOperation) : List Declaration :=
  (operationsDeclarations t (withShapes t ops)
    (schemaDeclarations t [] components).value.2).value.1

def declaredTypes (t : TypeContext) (components : List (String × Schema))
    (ops : List PlannedOperation) : List Declaration :=
  componentTypes t components ++ operationTypes t components ops

def declaredNames (t : TypeContext) (components : List (String × Schema))
    (ops : List PlannedOperation) : List String :=
  (declaredTypes t components ops).map Declaration.name

/-- The names that are declared in the end are those of the declarations. -/
theorem declaredOnce_declaredTypes (t : TypeContext) (components : List (String × Schema))
    (ops : List PlannedOperation) :
    DeclaredOnce [] (declaredTypes t components ops)
      (operationsDeclarations t (withShapes t ops)
        (schemaDeclarations t [] components).value.2).value.2 :=
  (declaredOnce_schemaDeclarations t components []).append
    (declaredOnce_operationsDeclarations t (withShapes t ops) _)

theorem nodup_declaredNames : (declaredNames t components ops).Nodup :=
  (declaredOnce_declaredTypes t components ops).nodup

theorem mem_declaredNames {name : String} :
    name ∈ declaredNames t components ops ↔
      name ∈ (operationsDeclarations t (withShapes t ops)
        (schemaDeclarations t [] components).value.2).value.2 := by
  rw [(declaredOnce_declaredTypes t components ops).mem_after, declaredNames, List.mem_map]
  simp

/-- The name of every given schema is declared. -/
theorem typeName_mem_declaredNames {name : String} {s : Schema} (h : (name, s) ∈ components) :
    t.typeName name ∈ declaredNames t components ops := by
  have hschemas : t.typeName name ∈ (schemaDeclarations t [] components).value.2 :=
    typeName_mem_schemaDeclarations h
  rw [mem_declaredNames, (declaredOnce_operationsDeclarations t (withShapes t ops) _).mem_after]
  exact Or.inl hschemas

/-- Every type that a given operation asks for is declared. -/
theorem name_mem_declaredNames {op : PlannedOperation} (hop : op ∈ ops) {d : Declaration}
    (hd : d ∈ wantedDeclarations t op (RequestShape.of t op).value) :
    d.name ∈ declaredNames t components ops := by
  rw [mem_declaredNames]
  exact name_mem_operationsDeclarations hd (List.mem_map.mpr ⟨op, hop, rfl⟩)

/-! ## Enough schemas -/

/-- Whether given schemas have every named schema that the walk over a schema leads to. -/
def Schema.SuppliedBy (t : TypeContext) (components : List (String × Schema)) (s : Schema) :
    Prop :=
  ∀ pointer ∈ s.visited, ∀ target, t.document.schema? (Pointer.name pointer) = some target →
    Entries.get? (Pointer.name pointer) components = some target

/-- Whether given schemas have every named schema that the walks over themselves and over the
schemas of operations lead to. -/
structure Supplies (t : TypeContext) (components : List (String × Schema))
    (ops : List PlannedOperation) : Prop where
  schema : ∀ name s, Entries.get? name components = some s → s.SuppliedBy t components
  operation : ∀ op ∈ ops, ∀ s ∈ op.operation.schemas, s.SuppliedBy t components

theorem supplies_schemas (t : TypeContext) (ops : List PlannedOperation) :
    Supplies t t.document.schemas ops where
  schema := fun _ _ _ _ _ _ h => h
  operation := fun _ _ _ _ _ _ _ h => h

/-- A schema is supplied by those of closed names that have its own references. -/
theorem suppliedBy_schemasUsedBy {operations : List Operation} {s : Schema}
    (h : s.references ⊆ t.document.namesUsedBy operations) :
    s.SuppliedBy t (t.document.schemasUsedBy operations) := by
  intro pointer hpointer target htarget
  have hname : Pointer.name pointer ∈ s.references :=
    List.mem_map_of_mem (s.visited_subset_pointers hpointer)
  rw [Document.get?_schemasUsedBy (h hname)]
  exact htarget

theorem supplies_schemasUsedBy (t : TypeContext) (ops : List PlannedOperation) :
    Supplies t (t.document.schemasUsedBy (ops.map PlannedOperation.operation)) ops where
  schema := by
    intro name s hs
    have hused := (Document.mem_schemasUsedBy.mp (Entries.mem_of_get? hs)).2
    rw [Document.get?_schemasUsedBy hused] at hs
    exact suppliedBy_schemasUsedBy ((t.document.namesUsedBy_spec _).2 name hused s hs)
  operation := by
    intro op hop s hs
    refine suppliedBy_schemasUsedBy ((t.document.namesUsedBy_spec _).1 op.operation ?_ s hs)
    exact List.mem_map_of_mem hop

/-! ## Mentioned types -/

theorem TypeContext.referenceName?_eq_some_iff {pointer name : String} :
    t.referenceName? pointer = some name ↔
      ∃ target, t.document.schema? (Pointer.name pointer) = some target ∧
        t.typeName (Pointer.name pointer) = name := by
  simp only [referenceName?, Option.map_eq_some_iff]

theorem Schema.SuppliedBy.covered {s : Schema} (h : s.SuppliedBy t components) :
    s.Covered t (declaredNames t components ops) := by
  intro pointer hpointer name hname
  obtain ⟨target, htarget, heq⟩ := TypeContext.referenceName?_eq_some_iff.mp hname
  rw [← heq]
  exact typeName_mem_declaredNames (Entries.mem_of_get? (h pointer hpointer target htarget))

/-- The first schema whose name gives a type name is the first one of its own name. -/
theorem get?_of_find?_typeName {name : String} {e : String × Schema}
    (h : components.find? (fun e => t.typeName e.1 == name) = some e) :
    Entries.get? e.1 components = some e.2 := by
  induction components with
  | nil => simp at h
  | cons first rest ih =>
    obtain ⟨key, s⟩ := first
    by_cases hfirst : t.typeName key = name
    · rw [List.find?_cons_of_pos (by simpa using hfirst)] at h
      cases h
      simp [Entries.get?]
    · rw [List.find?_cons_of_neg (by simpa using hfirst)] at h
      have hname := List.find?_some h
      have hne : key ≠ e.1 := fun heq => hfirst (heq ▸ eq_of_beq hname)
      rw [Entries.get?, if_neg hne]
      exact ih h

end OpenApiClient
