import Mathlib.Data.List.TakeWhile
import OpenApiClient.Proofs.Modules.Renaming
import OpenApiClient.Proofs.Types.Mentioned

/-!
# Exported names

The names that source files export. A file of types exports all types that it declares, a module
those of its operations but not those of named schemas, and its functions if they are exported one
by one (`exportedNames_typesUnit`, `exportedNames_moduleUnit`). All declared names are formatted
ones, so they are exported as they are declared; only names in the request helper have parameters.
-/

namespace OpenApiClient

open Code (Declaration Function Item SourceFile)

namespace Code

/-- A declared name without its parameters. -/
def bareName (name : String) : String :=
  String.ofList (name.toList.takeWhile fun c => c != '<')

def Item.exportedNames : Item → List String
  | declaration d => if d.isExported then [bareName d.name] else []
  | function f => if f.isExported then [bareName f.name] else []
  | title _ => []
  | code _ => []

/-- The names that a source file exports, but for what it exports as a default. -/
def SourceFile.exportedNames (f : SourceFile) : List String :=
  f.items.flatMap Item.exportedNames

/-- A word has no parameters. -/
theorem bareName_of_isWord {name : String} (h : isWord name = true) : bareName name = name := by
  have hmark : ∀ c ∈ name.toList, (c != '<') = true := by
    intro c hc
    rw [bne_iff_ne]
    rintro rfl
    exact absurd (isWordChar_of_isWord h hc) (by decide)
  rw [bareName, List.takeWhile_eq_self_iff.mpr hmark, String.ofList_toList]

theorem exportedNames_declarations {ds : List Declaration}
    (h : ∀ d ∈ ds, d.isExported = true ∧ isWord d.name = true) :
    (ds.map Item.declaration).flatMap Item.exportedNames = ds.map Declaration.name := by
  rw [List.flatMap_map, List.map_eq_flatMap]
  refine List.flatMap_congr fun d hd => ?_
  obtain ⟨hexported, hword⟩ := h d hd
  rw [Item.exportedNames, if_pos hexported, bareName_of_isWord hword]

theorem exportedNames_hidden (ds : List Declaration) :
    ((ds.map Declaration.hidden).map Item.declaration).flatMap Item.exportedNames = [] := by
  rw [List.flatMap_map, List.flatMap_map, List.flatMap_eq_nil_iff]
  intro d _
  rfl

theorem exportedNames_titles (titles : List String) :
    (titles.map Item.title).flatMap Item.exportedNames = [] := by
  rw [List.flatMap_map, List.flatMap_eq_nil_iff]
  intro title _
  rfl

end Code

/-! ## Declared names -/

section Declared

variable {t : TypeContext} {components : List (String × Schema)} {ops : List PlannedOperation}
  {decl : Declaration}

/-- The declaration of a named schema has a formatted name and is exported. -/
theorem name_of_mem_componentTypes (h : decl ∈ componentTypes t components) :
    (∃ e ∈ components, decl.name = t.typeName e.1) ∧ decl.isExported = true := by
  obtain ⟨e, hfind, rfl⟩ := exists_entry_of_mem_schemaDeclarations h
  refine ⟨⟨e, List.mem_of_find?_eq_some hfind, name_schemaDeclaration t e.1 e.2⟩, ?_⟩
  unfold schemaDeclaration
  rcases e.2.properties? with _ | ⟨properties, required⟩ <;> rfl

theorem name_of_mem_wantedDeclarations {op : PlannedOperation} {shape : RequestShape}
    (h : decl ∈ wantedDeclarations t op shape) :
    decl.name ∈ op.names.typeNames ∧ decl.isExported = true := by
  rcases List.mem_append.mp h with h | h
  · rcases List.mem_append.mp h with h | h
    · unfold requestDeclarations at h
      split_ifs at h
      · exact absurd h List.not_mem_nil
      · rw [List.mem_singleton.mp h]
        simp [Names.typeNames]
    · constructor
      · rw [Client.name_of_mem_dataDeclarations h]
        simp [Names.typeNames]
      · cases hdata : (DataShape.of t op).value <;> rw [hdata] at h
        · rw [List.mem_singleton.mp h]
        · rw [List.mem_singleton.mp h]
        · exact absurd h List.not_mem_nil
  · rw [List.mem_singleton.mp h]
    simp [Names.typeNames, responseDeclaration]

/-- The declaration of an operation has the name of one of its types and is exported. -/
theorem name_of_mem_operationTypes (h : decl ∈ operationTypes t components ops) :
    (∃ op ∈ ops, decl.name ∈ op.names.typeNames) ∧ decl.isExported = true := by
  obtain ⟨p, hp, hwanted⟩ := exists_of_mem_operationsDeclarations h
  obtain ⟨op, hop, rfl⟩ := List.mem_map.mp hp
  obtain ⟨hname, hexported⟩ := name_of_mem_wantedDeclarations hwanted
  exact ⟨⟨op, hop, hname⟩, hexported⟩

/-- A declared name is that of a named schema or that of a type of an operation. -/
theorem origin_of_mem_declaredNames {name : String} (h : name ∈ declaredNames t components ops) :
    (∃ e ∈ components, name = t.typeName e.1) ∨ ∃ op ∈ ops, name ∈ op.names.typeNames := by
  obtain ⟨decl, hdecl, rfl⟩ := List.mem_map.mp h
  rcases List.mem_append.mp hdecl with hdecl | hdecl
  · exact Or.inl (name_of_mem_componentTypes hdecl).1
  · exact Or.inr (name_of_mem_operationTypes hdecl).1

end Declared

/-! ## Planned operations -/

/-- Whether operations have the names of bases of operations. -/
def HasNames (c : Config) (ops : List PlannedOperation) : Prop :=
  ∀ op ∈ ops, IsOperationBase op.names.base ∧
    op.names = Names.ofBase op.names.base c.functionNaming c.typeNaming

theorem Plan.Named.hasNames {c : Config} {before : List String} {ops : List PlannedOperation}
    (h : Named c.functionNaming c.typeNaming before ops) : HasNames c ops :=
  fun op hop => ⟨h.isBase op hop, h.ofBase op hop⟩

section Words

variable {c : Config} {ops : List PlannedOperation} {op : PlannedOperation} {name : String}

/-- The name of a type of an operation is a formatted one that begins with a method. -/
theorem HasNames.exists_format (h : HasNames c ops) (hop : op ∈ ops)
    (hname : name ∈ op.names.typeNames) :
    ∃ base, IsOperationBase base ∧ name = c.typeNaming.format base := by
  obtain ⟨hbase, hnames⟩ := h op hop
  rw [hnames] at hname
  simp only [Names.typeNames, List.mem_cons, List.not_mem_nil, or_false] at hname
  rcases hname with rfl | rfl | rfl
  · rw [Names.requestType_ofBase]
    exact ⟨_, hbase.append_run Names.isRun_request, rfl⟩
  · rw [Names.responseType_ofBase]
    exact ⟨_, hbase.append_run Names.isRun_response, rfl⟩
  · rw [Names.dataType_ofBase]
    exact ⟨_, (hbase.append_run Names.isRun_response).append_run Names.isRun_data, rfl⟩

/-- The name of the function of an operation is a formatted one that begins with a method, unless it
had to be changed. -/
theorem HasNames.functionName_eq (h : HasNames c ops) (hop : op ∈ ops) :
    op.functionName = Code.safeName (c.functionNaming.format op.names.base) := by
  obtain ⟨-, hnames⟩ := h op hop
  exact congrArg Code.safeName (congrArg Names.function hnames)

theorem HasNames.isDeclarable (h : HasNames c ops) (hop : op ∈ ops) :
    Code.IsDeclarable op.functionName := by
  rw [h.functionName_eq hop]
  exact Code.isDeclarable_safeName _ (h op hop).1

end Words

/-! ## Source files -/

namespace Client

variable {c : Config} {d : Document}

def typesFileNames (c : Config) (d : Document) (plans : List ModulePlan) : List String :=
  declaredNames (c.typeContext d) d.schemas (plans.flatMap ModulePlan.operations)

def ownTypeNames (c : Config) (d : Document) (m : ModulePlan) : List String :=
  if hasTypesFile c then []
  else
    (operationTypes (c.typeContext d)
      (d.schemasUsedBy (m.operations.map PlannedOperation.operation)) m.operations).map
        Declaration.name

def ownFunctionNames (c : Config) (m : ModulePlan) : List String :=
  match c.exportStyle with
  | .named => m.operations.map PlannedOperation.functionName
  | .default => []

theorem isWord_of_mem_componentTypes {t : TypeContext} {components : List (String × Schema)} :
    ∀ decl ∈ componentTypes t components,
      decl.isExported = true ∧ Code.isWord decl.name = true := by
  intro decl hdecl
  obtain ⟨⟨e, -, hname⟩, hexported⟩ := name_of_mem_componentTypes hdecl
  rw [hname]
  exact ⟨hexported, NameStyle.isWord_format _ _⟩

theorem isWord_of_mem_operationTypes {components : List (String × Schema)}
    {ops : List PlannedOperation} (h : HasNames c ops) :
    ∀ decl ∈ operationTypes (c.typeContext d) components ops,
      decl.isExported = true ∧ Code.isWord decl.name = true := by
  intro decl hdecl
  obtain ⟨⟨op, hop, hmem⟩, hexported⟩ := name_of_mem_operationTypes hdecl
  obtain ⟨base, -, hname⟩ := h.exists_format hop hmem
  rw [hname]
  exact ⟨hexported, NameStyle.isWord_format _ _⟩

/-- A file of types exports all types that it declares. -/
theorem exportedNames_typesUnit {plans : List ModulePlan}
    (h : HasNames c (plans.flatMap ModulePlan.operations)) :
    (typesUnit c d plans).value.source.exportedNames = typesFileNames c d plans := by
  have hitems : (typesUnit c d plans).value.source.items =
      ((allDeclarations (c.typeContext d) plans).value).map .declaration := rfl
  have hdeclarations := declarations_typesUnit c d plans
  rw [SourceFile.declarations, hitems, filterMap_declaration?_map] at hdeclarations
  rw [SourceFile.exportedNames, hitems, hdeclarations, Code.exportedNames_declarations]
  · rfl
  · intro decl hdecl
    rcases List.mem_append.mp hdecl with hdecl | hdecl
    · exact isWord_of_mem_componentTypes decl hdecl
    · exact isWord_of_mem_operationTypes h decl hdecl

theorem exportedNames_functionItems {m : ModulePlan} (h : HasNames c m.operations) :
    (functionItems c m (withShapes (c.typeContext d) m.operations)).flatMap Item.exportedNames =
      ownFunctionNames c m := by
  rw [functionItems, withShapes, List.map_map, List.flatMap_map]
  cases hstyle : c.exportStyle with
  | named =>
    rw [ownFunctionNames, hstyle]
    show _ = m.operations.map PlannedOperation.functionName
    rw [List.map_eq_flatMap]
    refine List.flatMap_congr fun op hop => ?_
    have hexported : (c.exportStyle == .named) = true := by rw [hstyle]; rfl
    show (if (c.exportStyle == .named) = true then [Code.bareName op.functionName] else []) = _
    rw [if_pos hexported, Code.bareName_of_isWord (h.isDeclarable hop).word]
  | default =>
    rw [ownFunctionNames, hstyle]
    show _ = []
    rw [List.flatMap_eq_nil_iff]
    intro op _
    have hhidden : ¬(c.exportStyle == .named) = true := by rw [hstyle]; decide
    show (if (c.exportStyle == .named) = true then [Code.bareName op.functionName] else []) = []
    rw [if_neg hhidden]

/-- A module exports the types of its operations, if it declares them, and its functions. -/
theorem exportedNames_moduleUnit {m : ModulePlan} (h : HasNames c m.operations) :
    (moduleUnit c d m).value.source.exportedNames =
      ownTypeNames c d m ++ ownFunctionNames c m := by
  obtain ⟨before, after, hitems⟩ := items_moduleUnit c d m
  rw [SourceFile.exportedNames, hitems, List.flatMap_append, exportedNames_functionItems h]
  by_cases hfile : hasTypesFile c = true
  · rw [if_pos hfile, ownTypeNames, if_pos hfile]
    rfl
  · rw [if_neg hfile, ownTypeNames, if_neg hfile, List.flatMap_append, List.flatMap_append,
      Code.exportedNames_titles, Code.exportedNames_titles, moduleDeclarations, List.map_append,
      List.flatMap_append, Code.exportedNames_hidden,
      Code.exportedNames_declarations (isWord_of_mem_operationTypes h), List.nil_append,
      List.nil_append, List.append_nil]

end Client

end OpenApiClient
