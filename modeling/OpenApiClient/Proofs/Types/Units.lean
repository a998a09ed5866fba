import OpenApiClient.Proofs.Types.Provided

/-!
# Files with types

A client has its types in one file, or in each module those that the module needs (`typeUnits`).
Either way a file with types (`TypeUnit`) has the declarations of some named schemas and then those
of the operations of its modules (`declarations_typesUnit`, `declarations_moduleUnit`). A module has
one function for each operation wherever the types are (`functions_moduleUnit`).
-/

namespace OpenApiClient

open Code (Declaration Function SourceFile)

def Code.Item.declaration? : Code.Item → Option Declaration
  | declaration d => some d
  | _ => none

def Code.Item.function? : Code.Item → Option Function
  | function f => some f
  | _ => none

namespace Code.SourceFile

def declarations (f : SourceFile) : List Declaration :=
  f.items.filterMap Item.declaration?

def functions (f : SourceFile) : List Function :=
  f.items.filterMap Item.function?

def typeNames (f : SourceFile) : List String :=
  f.declarations.map Declaration.name

end Code.SourceFile

@[simp] theorem declaration?_declaration (d : Declaration) :
    Code.Item.declaration? (.declaration d) = some d := rfl

@[simp] theorem declaration?_function (f : Function) :
    Code.Item.declaration? (.function f) = none := rfl

@[simp] theorem function?_function (f : Function) :
    Code.Item.function? (.function f) = some f := rfl

@[simp] theorem function?_declaration (d : Declaration) :
    Code.Item.function? (.declaration d) = none := rfl

/-- A source file with types: the named schemas that it declares and the modules that take their
types from it. -/
structure TypeUnit where
  unit : SourceUnit
  components : List (String × Schema)
  modules : List ModulePlan

namespace TypeUnit

/-- The operations whose types a source file has. -/
def operations (u : TypeUnit) : List PlannedOperation :=
  u.modules.flatMap ModulePlan.operations

def declarations (u : TypeUnit) : List Declaration :=
  u.unit.source.declarations

/-- The names that a source file declares. -/
def names (u : TypeUnit) : List String :=
  u.unit.source.typeNames

end TypeUnit

namespace Client

variable {c : Config} {d : Document} {m : ModulePlan}

def fileTypes (c : Config) (d : Document) (plans : List ModulePlan) : TypeUnit :=
  ⟨(typesUnit c d plans).value, d.schemas, plans⟩

/-- A module with its own types, which has the named schemas that its operations need. -/
def moduleTypes (c : Config) (d : Document) (m : ModulePlan) : TypeUnit :=
  ⟨(moduleUnit c d m).value, d.schemasUsedBy (m.operations.map PlannedOperation.operation), [m]⟩

def typeUnits (c : Config) (d : Document) (plans : List ModulePlan) : List TypeUnit :=
  if hasTypesFile c then [fileTypes c d plans] else plans.map (moduleTypes c d)

theorem value_shapesOf (t : TypeContext) (ops : List PlannedOperation) :
    (shapesOf t ops).value = withShapes t ops :=
  Noted.value_each _ ops

theorem value_shapedDeclarations (t : TypeContext) :
    ∀ (ops : List PlannedOperation) (declared : List String),
      (shapedDeclarations t ops declared).value =
        (operationsDeclarations t (withShapes t ops) declared).value.1
  | [], _ => rfl
  | _ :: rest, _ => congrArg (_ ++ ·) (value_shapedDeclarations t rest _)

theorem filterMap_declaration?_map (ds : List Declaration) :
    (ds.map Code.Item.declaration).filterMap Code.Item.declaration? = ds := by
  induction ds with
  | nil => rfl
  | cons d ds ih => simp [ih]

theorem declarations_typesUnit (c : Config) (d : Document) (plans : List ModulePlan) :
    (typesUnit c d plans).value.source.declarations =
      declaredTypes (c.typeContext d) d.schemas (plans.flatMap ModulePlan.operations) := by
  have hvalue : (typesUnit c d plans).value.source.items =
      ((allDeclarations (c.typeContext d) plans).value).map .declaration := rfl
  have hall : (allDeclarations (c.typeContext d) plans).value =
      componentTypes (c.typeContext d) d.schemas ++
        (shapedDeclarations (c.typeContext d) (plans.flatMap ModulePlan.operations)
          (schemaDeclarations (c.typeContext d) [] d.schemas).value.2).value := rfl
  rw [SourceFile.declarations, hvalue, filterMap_declaration?_map, hall, value_shapedDeclarations]
  rfl

/-! ## Modules -/

def moduleDeclarations (c : Config) (d : Document) (m : ModulePlan) : List Declaration :=
  let used := d.schemasUsedBy (m.operations.map PlannedOperation.operation)
  (componentTypes (c.typeContext d) used).map Declaration.hidden ++
    operationTypes (c.typeContext d) used m.operations

theorem map_operation_withShapes (t : TypeContext) (ops : List PlannedOperation) :
    (withShapes t ops).map (fun (op, _) => op.operation) =
      ops.map PlannedOperation.operation := by
  simp [withShapes]

theorem value_ownDeclarations (c : Config) (d : Document) (m : ModulePlan) :
    (ownDeclarations (c.typeContext d) (withShapes (c.typeContext d) m.operations)).value =
      moduleDeclarations c d m := by
  unfold ownDeclarations moduleDeclarations
  rw [map_operation_withShapes]
  rfl

theorem exists_titleItem (c : Config) (isNeeded : Bool) (title : String) :
    ∃ titles : List String, titleItem c isNeeded title = titles.map .title := by
  unfold titleItem
  split_ifs
  · exact ⟨[title], rfl⟩
  · exact ⟨[], rfl⟩

/-- The items of a module: its own declarations under a title, if it has its types for itself, and
its functions. -/
theorem items_moduleUnit (c : Config) (d : Document) (m : ModulePlan) :
    ∃ before after : List String,
      (moduleUnit c d m).value.source.items =
        (if hasTypesFile c then []
          else before.map .title ++ (moduleDeclarations c d m).map .declaration ++
            after.map .title) ++
          functionItems c m (withShapes (c.typeContext d) m.operations) := by
  have hown := value_ownDeclarations c d m
  simp only [moduleUnit, moduleSource, Noted.value_bind, Noted.value_pure, value_shapesOf]
  cases hlanguage : c.language with
  | javaScript =>
    have hfile : hasTypesFile c = true := by simp [hasTypesFile, hlanguage]
    refine ⟨[], [], ?_⟩
    rw [if_pos hfile]
    rfl
  | typeScript =>
    cases hseparate : c.separateTypes with
    | true =>
      have hfile : hasTypesFile c = true := by simp [hasTypesFile, hseparate]
      refine ⟨[], [], ?_⟩
      rw [if_pos hfile]
      rfl
    | false =>
      have hfile : ¬hasTypesFile c = true := by simp [hasTypesFile, hlanguage, hseparate]
      obtain ⟨before, hbefore⟩ := exists_titleItem c (!(moduleDeclarations c d m).isEmpty) "types"
      obtain ⟨after, hafter⟩ := exists_titleItem c true "API functions"
      refine ⟨before, after, ?_⟩
      simp only [if_neg hfile, Noted.value_bind, Noted.value_pure, hown, hbefore, hafter]

theorem filterMap_title (titles : List String) :
    (titles.map Code.Item.title).filterMap Code.Item.declaration? = [] ∧
      (titles.map Code.Item.title).filterMap Code.Item.function? = [] := by
  simp [List.filterMap_map, Function.comp_def, Code.Item.declaration?, Code.Item.function?]

theorem declarations_moduleUnit (c : Config) (d : Document) (m : ModulePlan) :
    (moduleUnit c d m).value.source.declarations =
      if hasTypesFile c then [] else moduleDeclarations c d m := by
  obtain ⟨before, after, hitems⟩ := items_moduleUnit c d m
  have hfunctions : (functionItems c m (withShapes (c.typeContext d) m.operations)).filterMap
      Code.Item.declaration? = [] := by
    simp [functionItems, List.filterMap_map, Function.comp_def]
  rw [SourceFile.declarations, hitems, List.filterMap_append, hfunctions, List.append_nil]
  split_ifs
  · rfl
  · simp only [List.filterMap_append, (filterMap_title before).1, (filterMap_title after).1,
      filterMap_declaration?_map, List.nil_append, List.append_nil]

/-- The functions of a module are those of its operations. -/
theorem functions_moduleUnit (c : Config) (d : Document) (m : ModulePlan) :
    (moduleUnit c d m).value.source.functions =
      m.operations.map fun op =>
        op.clientFunction c (typingOf c m) (RequestShape.of (c.typeContext d) op).value := by
  obtain ⟨before, after, hitems⟩ := items_moduleUnit c d m
  have hfunctions : (functionItems c m (withShapes (c.typeContext d) m.operations)).filterMap
      Code.Item.function? = m.operations.map fun op =>
        op.clientFunction c (typingOf c m) (RequestShape.of (c.typeContext d) op).value := by
    simp [functionItems, withShapes, List.filterMap_map, Function.comp_def]
  have hdeclarations : ((moduleDeclarations c d m).map Code.Item.declaration).filterMap
      Code.Item.function? = [] := by
    simp [List.filterMap_map, Function.comp_def]
  rw [SourceFile.functions, hitems, List.filterMap_append, hfunctions]
  split_ifs
  · rfl
  · simp only [List.filterMap_append, (filterMap_title before).2, (filterMap_title after).2,
      hdeclarations, List.nil_append]

/-- A module imports names only from the file of types. -/
theorem imports_moduleUnit {i : Code.Import}
    (h : .names i ∈ (moduleUnit c d m).value.source.imports) :
    i = typesImport m (withShapes (c.typeContext d) m.operations) := by
  have hline : Code.ImportLine.names i ∉
      (SourceFile.addImportLine c.importLine { exports := defaultExport c m }).imports := by
    unfold SourceFile.addImportLine
    split_ifs <;> simp
  simp only [moduleUnit, moduleSource, Noted.value_bind, Noted.value_pure, value_shapesOf] at h
  cases hlanguage : c.language with
  | javaScript =>
    simp only [hlanguage] at h
    exact absurd h hline
  | typeScript =>
    cases hseparate : c.separateTypes with
    | true =>
      simp only [hlanguage, hseparate, Noted.value_pure, SourceFile.addImport] at h
      split_ifs at h
      · exact absurd h hline
      · rcases List.mem_append.mp h with h | h
        · exact absurd h hline
        · simpa using h
    | false =>
      simp only [hlanguage, hseparate, Noted.value_bind, Noted.value_pure] at h
      exact absurd h hline

end Client

end OpenApiClient
