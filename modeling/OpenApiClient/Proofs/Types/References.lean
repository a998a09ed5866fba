import OpenApiClient.Proofs.Types.Defined

/-!
# The schema that a reference names

A reference is emitted as the name of the schema that it leads to, in the style of types. Schemas
whose names look the same in this style share one declaration, which is that of the first of them,
and a warning names each other one. So a reference stands for the schema that it leads to exactly if
no schema before that has the same name in this style (`reference_declaration`); with two schemas
that share a name, a reference to the second stands for the first (`second_reference_is_first`).
-/

namespace OpenApiClient

open Code (Declaration)

namespace Client

variable {c : Config} {d : Document}

theorem notes_typesUnit (c : Config) (d : Document) (ms : List ModulePlan) :
    (schemaDeclarations (c.typeContext d) [] d.schemas).notes ⊆ (typesUnit c d ms).notes := by
  intro note hnote
  exact List.mem_append_left _ (List.mem_append_left _ hnote)

theorem notes_ownDeclarations (t : TypeContext) (ops : List PlannedOperation) :
    (schemaDeclarations t [] (t.document.schemasUsedBy
      (ops.map PlannedOperation.operation))).notes ⊆
        (ownDeclarations t (withShapes t ops)).notes := by
  intro note hnote
  unfold ownDeclarations
  rw [map_operation_withShapes]
  exact List.mem_append_left _ hnote

theorem notes_moduleUnit (hfile : ¬hasTypesFile c = true) (m : ModulePlan) :
    (schemaDeclarations (c.typeContext d) [] (moduleTypes c d m).components).notes ⊆
      (moduleUnit c d m).notes := by
  intro note hnote
  have hown := notes_ownDeclarations (c.typeContext d) m.operations hnote
  simp only [hasTypesFile, Bool.or_eq_true, beq_iff_eq, not_or, Bool.not_eq_true] at hfile
  have hlanguage : c.language = .typeScript := by
    cases hlanguage : c.language with
    | typeScript => rfl
    | javaScript => exact absurd hlanguage hfile.2
  simp only [moduleUnit, moduleSource, Noted.notes_bind, value_shapesOf, hlanguage, hfile.1]
  exact List.mem_append_left _ (List.mem_append_right _ (List.mem_append_left _ hown))

theorem notes_typesUnit_subset_units (hfile : hasTypesFile c = true) (ms : List ModulePlan) :
    (typesUnit c d ms).notes ⊆ (units c d ms).notes := by
  intro note hnote
  simp only [units, if_pos hfile, Noted.notes_bind]
  exact List.mem_append_left _ (List.mem_append_left _ hnote)

theorem notes_moduleUnit_subset_units {m : ModulePlan} {ms : List ModulePlan} (hm : m ∈ ms) :
    (moduleUnit c d m).notes ⊆ (units c d ms).notes := by
  intro note hnote
  have heach : note ∈ (Noted.each (moduleUnit c d) ms).notes := by
    rw [Noted.notes_each]
    exact List.mem_flatMap.mpr ⟨m, hm, hnote⟩
  unfold units
  split_ifs <;> simp only [Noted.notes_bind] <;>
    exact List.mem_append_right _ (List.mem_append_left _ heach)

/-- What is noted about the named schemas of a file with types is reported. -/
theorem notes_subset_diagnostics {u : TypeUnit}
    (hu : u ∈ typeUnits c (selected c d) (modulePlans c d)) :
    (schemaDeclarations (c.typeContext (selected c d)) [] u.components).notes ⊆
      (generate c d).diagnostics := by
  intro note hnote
  have hunits : note ∈ (units c (selected c d) (modulePlans c d)).notes := by
    unfold typeUnits at hu
    split_ifs at hu with hfile
    · rw [List.mem_singleton.mp hu] at hnote
      exact notes_typesUnit_subset_units hfile _ (notes_typesUnit c (selected c d) _ hnote)
    · obtain ⟨m, hm, rfl⟩ := List.mem_map.mp hu
      exact notes_moduleUnit_subset_units hm (notes_moduleUnit hfile m hnote)
  exact (Pass.mem_diagnostics_recordAll _ _).mpr (Or.inr (List.mem_append_right _ hunits))

/-! ## The declaration of a reference -/

/-- The schemas that are translated in a source file with types: those that it declares and those that
its operations use. -/
def Translates (u : TypeUnit) (s : Schema) : Prop :=
  (∃ name, Entries.get? name u.components = some s) ∨
    ∃ op ∈ u.operations, op.operation.Uses s

/-- The first named schema of a source file whose name looks like a given one as a type. -/
def firstNamed (c : Config) (u : TypeUnit) (name : String) : Option (String × Schema) :=
  u.components.find? fun e => c.typeNaming.format e.1 == c.typeNaming.format name

/-- A named schema of a source file has a declaration, which is that of the first of its name. -/
theorem exists_declaration_of_get? {u : TypeUnit} (h : Collects c d u) {name : String}
    {target : Schema} (hname : Entries.get? name u.components = some target) :
    ∃ e, firstNamed c u name = some e ∧ ∃ decl ∈ u.declarations,
      decl.name = c.typeNaming.format name ∧
        decl.definition = (schemaDeclaration (c.typeContext d) e.1 e.2).value.definition := by
  obtain ⟨f, hf, hdeclarations⟩ := h.declarations
  have hdeclared : c.typeNaming.format name ∈
      (schemaDeclarations (c.typeContext d) [] u.components).value.2 :=
    typeName_mem_schemaDeclarations (Entries.mem_of_get? hname)
  rw [(declaredOnce_schemaDeclarations _ _ _).mem_after] at hdeclared
  rcases hdeclared with hnone | ⟨own, hown, hownName⟩
  · exact absurd hnone List.not_mem_nil
  · obtain ⟨e, hfind, rfl⟩ := exists_entry_of_mem_schemaDeclarations hown
    rw [hownName] at hfind
    refine ⟨e, hfind, f _, ?_, (hf _).1.trans hownName, (hf _).2⟩
    rw [hdeclarations]
    exact List.mem_append_left _ (List.mem_map_of_mem hown)

/-- **References.** In a source file with types, a reference to a named schema is emitted as the
name of that schema in the style of types. Exactly one declaration has this name. It is that of the
first named schema of the file whose name looks the same, which is the schema itself if none before
it does; and if it is another one, a warning says that the schema is left out. -/
theorem reference_declaration (c : Config) (d : Document) (u : TypeUnit)
    (hu : u ∈ typeUnits c (selected c d) (modulePlans c d)) (s : Schema) (hs : Translates u s)
    (pointer : String) (hpointer : pointer ∈ s.visited) (target : Schema)
    (htarget : (selected c d).schema? (Pointer.name pointer) = some target) :
    (∀ notes, (Schema.reference notes pointer).toType (c.typeContext (selected c d)) =
      .named (c.typeNaming.format (Pointer.name pointer))) ∧
    ∃ first owner decl,
      firstNamed c u (Pointer.name pointer) = some (first, owner) ∧
      decl ∈ u.declarations ∧
      (∀ other ∈ u.declarations,
        other.name = c.typeNaming.format (Pointer.name pointer) ↔ other = decl) ∧
      decl.definition =
        (schemaDeclaration (c.typeContext (selected c d)) first owner).value.definition ∧
      (first = Pointer.name pointer → owner = target) ∧
      (first ≠ Pointer.name pointer →
        declaredNote (schemaLocation (Pointer.name pointer))
          (c.typeNaming.format (Pointer.name pointer)) ∈ (generate c d).diagnostics) := by
  have hcollects := collects_of_mem_typeUnits c (selected c d) (modulePlans c d) u hu
  have hsupplied : s.SuppliedBy (c.typeContext (selected c d)) u.components := by
    rcases hs with ⟨name, hname⟩ | ⟨op, hop, hschema⟩
    · exact hcollects.supplies.schema name s hname
    · exact hcollects.supplies.operation op hop s (Operation.mem_schemas.mpr hschema)
  have hname := hsupplied pointer hpointer target htarget
  obtain ⟨⟨first, owner⟩, hfirst, decl, hdecl, hdeclName, hdefinition⟩ :=
    exists_declaration_of_get? hcollects hname
  refine ⟨fun notes => ?_, first, owner, decl, hfirst, hdecl, fun other hother => ⟨?_, ?_⟩,
    hdefinition, ?_, fun hne => ?_⟩
  · have hemitted : (c.typeContext (selected c d)).referenceName? pointer =
        some (c.typeNaming.format (Pointer.name pointer)) :=
      TypeContext.referenceName?_eq_some_iff.mpr ⟨target, htarget, rfl⟩
    rw [Schema.toType, hemitted]
  · intro hotherName
    exact List.inj_on_of_nodup_map hcollects.defines.nodup hother hdecl
      (hotherName.trans hdeclName.symm)
  · rintro rfl
    exact hdeclName
  · rintro rfl
    have howner := get?_of_find?_typeName (t := c.typeContext (selected c d)) hfirst
    rw [hname] at howner
    exact (Option.some.inj howner).symm
  · refine notes_subset_diagnostics hu (declaredNote_mem_schemaDeclarations
      (e := (Pointer.name pointer, target)) (Entries.mem_of_get? hname) (Or.inr fun hfind => ?_))
    have heq := hfirst.symm.trans hfind
    cases heq
    exact hne rfl

/-! ## Two schemas that share a name -/

/-- A schema that refers to two others whose names look the same as types. -/
def bothOwners : Schema :=
  .objectOf [("a", .pointingAt "#/components/schemas/pet_owner"),
    ("b", .pointingAt "#/components/schemas/PetOwner")] []

def sharedNames : Document where
  version := "3.0.0"
  info := ⟨"T", "1", none⟩
  paths := []
  components := some
    { schemas := [("pet_owner", .ofPrimitive .string), ("PetOwner", .ofPrimitive .integer),
        ("both", bothOwners)], parameters := [], requestBodies := [], responses := [] }
  tags := []
  distinct := List.nodup_nil

def sharedTypes : TypeUnit :=
  fileTypes .standard (selected .standard sharedNames) (modulePlans .standard sharedNames)

theorem sharedTypes_mem_typeUnits :
    sharedTypes ∈ typeUnits .standard (selected .standard sharedNames)
      (modulePlans .standard sharedNames) := by
  have hfile : hasTypesFile .standard = true := rfl
  rw [typeUnits, if_pos hfile]
  exact List.mem_cons_self

/-- The second of two schemas that share a name is reported. -/
theorem reference_declaration_sharedNames :
    declaredNote "components.schemas.PetOwner" "PetOwner" ∈
      (generate .standard sharedNames).diagnostics := by
  obtain ⟨-, first, owner, decl, hfirst, -, -, -, -, hnote⟩ :=
    reference_declaration .standard sharedNames _ sharedTypes_mem_typeUnits bothOwners
      (Or.inl ⟨"both", by decide +kernel⟩) "#/components/schemas/PetOwner" (by decide +kernel)
      (.ofPrimitive .integer) (by decide +kernel)
  have hshared : firstNamed .standard sharedTypes
      (Pointer.name "#/components/schemas/PetOwner") =
        some ("pet_owner", .ofPrimitive .string) := by
    decide +kernel
  rw [hshared] at hfirst
  cases hfirst
  have hpointer : Pointer.name "#/components/schemas/PetOwner" = "PetOwner" := by decide +kernel
  have hname : Config.standard.typeNaming.format "PetOwner" = "PetOwner" := by decide +kernel
  rw [hpointer, hname] at hnote
  exact hnote (by decide)

/-- Both references come out as the name of the first schema, whose declaration is not that of the
second. -/
theorem second_reference_is_first :
    let t := Config.standard.typeContext (selected .standard sharedNames)
    t.referenceName? "#/components/schemas/pet_owner" = some "PetOwner" ∧
      t.referenceName? "#/components/schemas/PetOwner" = some "PetOwner" ∧
      sharedTypes.declarations.map (fun decl => (decl.name, decl.definition)) =
        [("PetOwner", .alias "string"),
          ("Both", .interface [⟨"a", "PetOwner", none, true⟩, ⟨"b", "PetOwner", none, true⟩])] ∧
      (schemaDeclaration t "PetOwner" (.ofPrimitive .integer)).value.definition =
        .alias "number" := by
  decide +kernel

end Client

end OpenApiClient
