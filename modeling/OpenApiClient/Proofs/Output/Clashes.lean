import OpenApiClient.Proofs.Names.Initials
import OpenApiClient.Proofs.Output.Barrel
import OpenApiClient.Proofs.Types.Needed
import OpenApiClient.Proofs.Types.Wanted

/-!
# Names that the index exports twice

Each file of a client exports no name twice, but nothing relates the names of one file to those of
another. So the index has every name once exactly if the files are apart (`indexNames_nodup_iff`),
which can be told from the schemas and the planned operations: no named schema is called like
something in the request helper or like an alias, no type like a function, and no two modules own a
type of one name. In the standard styles only the first can happen, and it does for a schema that is
called `ApiResponse` (`indexNames_apiResponse`).
-/

namespace OpenApiClient

namespace Client

variable {c : Config} {d : Document}

theorem nodup_helperNames (l : Language) : (helperNames l).Nodup := by
  cases l <;> decide

/-- Nothing in the request helper has a name that begins with a method. -/
theorem methodHead_of_mem_helperNames {l : Language} {name : String} (h : name ∈ helperNames l)
    (style : NameStyle) (m : Method) : ¬style.methodHead m <+: name.toList := by
  have hnone : ∀ name ∈ helperNames l, ¬style.methodHead m <+: name.toList := by
    cases l <;> cases style <;> cases m <;> decide
  exact hnone name h

theorem format_not_mem_helperNames (style : NameStyle) {base : String} (h : IsOperationBase base)
    (l : Language) : style.format base ∉ helperNames l := by
  intro hmem
  obtain ⟨m, hm⟩ := NameStyle.exists_methodHead style h
  exact methodHead_of_mem_helperNames hmem style m hm

theorem safeName_not_mem_helperNames (style : NameStyle) {base : String} (h : IsOperationBase base)
    (l : Language) : Code.safeName (style.format base) ∉ helperNames l := by
  rcases Code.safeName_format style h with ⟨hsafe, -⟩ | ⟨-, hsafe⟩
  · rw [hsafe]
    exact format_not_mem_helperNames style h l
  · rw [hsafe]
    cases l <;> decide

theorem alias_not_mem_helperNames {name : String} (h : endsAsAlias name = true) (l : Language) :
    name ∉ helperNames l := by
  have hnone : ∀ name ∈ helperNames l, endsAsAlias name = false := by cases l <;> decide
  intro hmem
  rw [hnone name hmem] at h
  exact absurd h (by decide)

theorem nodup_exportedHelpers (c : Config) : (exportedHelpers c).Nodup := by
  unfold exportedHelpers
  split_ifs
  · exact nodup_helperNames c.language
  · exact List.nodup_nil

theorem nodup_exportedValues (c : Config) (d : Document) : (exportedValues c d).Nodup := by
  unfold exportedValues
  split
  · exact (named_plannedOperations c d).nodup_functionNames
  · exact nodup_aliases c.language (modulePlans c d)

/-- No function and no alias has the name of something in the request helper. -/
theorem disjoint_helpers_values (c : Config) (d : Document) :
    (exportedHelpers c).Disjoint (exportedValues c d) := by
  intro name hhelper hvalue
  have hmem : name ∈ helperNames c.language := by
    unfold exportedHelpers at hhelper
    split_ifs at hhelper
    · exact hhelper
    · exact absurd hhelper List.not_mem_nil
  unfold exportedValues at hvalue
  split at hvalue
  · obtain ⟨op, hop, rfl⟩ := List.mem_map.mp hvalue
    have hnames := hasNames_plannedOperations c d
    rw [hnames.functionName_eq hop] at hmem
    exact safeName_not_mem_helperNames c.functionNaming (hnames op hop).1 c.language hmem
  · exact alias_not_mem_helperNames (endsAsAlias_of_mem_aliases hvalue) c.language hmem

/-! ## Exported types -/

variable (c d) in
/-- Whether a module exports a type of a name next to its functions: one of its operations has it,
and no named schema that the operations need is called so. -/
def OwnsType (m : ModulePlan) (name : String) : Prop :=
  (∃ op ∈ m.operations, op.HasType name) ∧
    ∀ e ∈ d.schemas, d.Needs (m.operations.map PlannedOperation.operation) e.1 →
      c.typeNaming.format e.1 ≠ name

variable (c d) in
/-- The names of the types that the index exports: with the file of types those of all schemas and
operations, without one those that modules own. -/
inductive ExportsType : String → Prop
  | schema {e : String × Schema} (exports : exportsTypes c = true) (mem : e ∈ d.schemas) :
      ExportsType (c.typeNaming.format e.1)
  | operation {op : PlannedOperation} {name : String} (exports : exportsTypes c = true)
      (mem : op ∈ plannedOperations c d) (type : op.HasType name) : ExportsType name
  | own {m : ModulePlan} {name : String} (style : c.exportStyle = .named)
      (inline : hasTypesFile c = false) (mem : m ∈ modulePlans c d) (owns : OwnsType c d m name) :
      ExportsType name

theorem mem_ownTypeNames {m : ModulePlan} {name : String} (h : hasTypesFile c = false) :
    name ∈ ownTypeNames c (selected c d) m ↔ OwnsType c d m name := by
  have hfile : ¬hasTypesFile c = true := by rw [h]; exact Bool.false_ne_true
  have hschemas := schemas_selected c d
  have hneeds (used : String) : (selected c d).Needs (m.operations.map PlannedOperation.operation)
      used ↔ d.Needs (m.operations.map PlannedOperation.operation) used :=
    ⟨fun h names hserves => h names (hserves.of_schemas hschemas),
      fun h names hserves => h names (hserves.of_schemas hschemas.symm)⟩
  rw [ownTypeNames, if_neg hfile, mem_operationTypes_iff, OwnsType]
  simp only [Prod.forall, Document.mem_schemasUsedBy, ← Document.needs_iff, and_imp, hneeds,
    hschemas]
  rfl

theorem mem_typesFileNames {name : String} :
    name ∈ typesFileNames c (selected c d) (modulePlans c d) ↔
      (∃ e ∈ d.schemas, c.typeNaming.format e.1 = name) ∨
        ∃ op ∈ plannedOperations c d, op.HasType name := by
  rw [typesFileNames, mem_declaredNames_iff, schemas_selected]
  rfl

theorem mem_inlineTypes {name : String} :
    name ∈ inlineTypes c d ↔ c.exportStyle = .named ∧ hasTypesFile c = false ∧
      ∃ m ∈ modulePlans c d, OwnsType c d m name := by
  unfold inlineTypes
  cases c.exportStyle with
  | default => simp
  | named =>
    cases hfile : hasTypesFile c with
    | true => simp [ownTypeNames, hfile]
    | false => simp [mem_ownTypeNames hfile]

theorem mem_exportedTypes {name : String} : name ∈ exportedTypes c d ↔ ExportsType c d name := by
  unfold exportedTypes
  split_ifs with hexports
  · rw [mem_typesFileNames]
    constructor
    · rintro (⟨e, he, rfl⟩ | ⟨op, hop, htype⟩)
      · exact .schema hexports he
      · exact .operation hexports hop htype
    · intro h
      cases h with
      | schema _ he => exact Or.inl ⟨_, he, rfl⟩
      | operation _ hop htype => exact Or.inr ⟨_, hop, htype⟩
      | own _ hinline =>
        rw [hasTypesFile_of_exportsTypes hexports] at hinline
        exact absurd hinline (by decide)
  · rw [mem_inlineTypes]
    constructor
    · rintro ⟨hstyle, hinline, m, hm, howns⟩
      exact .own hstyle hinline hm howns
    · intro h
      cases h with
      | schema h _ => exact absurd h hexports
      | operation h _ _ => exact absurd h hexports
      | own hstyle hinline hm howns => exact ⟨hstyle, hinline, _, hm, howns⟩

/-- A type that the index exports is that of a named schema in the file of types, or one of an
operation. -/
theorem ExportsType.origin {name : String} (h : ExportsType c d name) :
    (exportsTypes c = true ∧ ∃ e ∈ d.schemas, name = c.typeNaming.format e.1) ∨
      ∃ op ∈ plannedOperations c d, name ∈ op.names.typeNames := by
  cases h with
  | schema hexports he => exact Or.inl ⟨hexports, _, he, rfl⟩
  | operation _ hop htype => exact Or.inr ⟨_, hop, htype.mem_typeNames⟩
  | own _ _ hm howns =>
    obtain ⟨⟨op, hop, htype⟩, -⟩ := howns
    exact Or.inr ⟨op, List.mem_flatMap.mpr ⟨_, hm, hop⟩, htype.mem_typeNames⟩

/-! ## Types of different modules -/

theorem nodup_ownTypeNames (c : Config) (d : Document) (m : ModulePlan) :
    (ownTypeNames c d m).Nodup := by
  unfold ownTypeNames
  split_ifs
  · exact List.nodup_nil
  · -- they stand at the end of the names of all types that the module declares
    have hnames : (declaredNames (c.typeContext d)
        (d.schemasUsedBy (m.operations.map PlannedOperation.operation)) m.operations).Nodup :=
      nodup_declaredNames
    rw [declaredNames, declaredTypes, List.map_append] at hnames
    exact hnames.of_append_right

/-- If bases look the same in the style of types only where they do in that of functions, modules
have no type in common. -/
theorem pairwise_not_ownsType (hstyles : c.functionNaming = .snake ↔ c.typeNaming = .snake) :
    (modulePlans c d).Pairwise fun m m' => ∀ name, OwnsType c d m name → ¬OwnsType c d m' name := by
  have hnamed := named_plannedOperations c d
  have hapart := (List.pairwise_flatMap.mp hnamed.distinct).2
  apply hapart.imp_of_mem
  -- a common type would give two operations bases that look the same in both styles
  intro m m' hm hm' hne name howns howns'
  obtain ⟨⟨p, hp, htype⟩, -⟩ := howns
  obtain ⟨⟨q, hq, htype'⟩, -⟩ := howns'
  have hpmem : p ∈ plannedOperations c d := List.mem_flatMap.mpr ⟨m, hm, hp⟩
  have hqmem : q ∈ plannedOperations c d := List.mem_flatMap.mpr ⟨m', hm', hq⟩
  have htypes : c.typeNaming.format p.names.base ≠ c.typeNaming.format q.names.base := by
    rw [Ne, NameStyle.format_eq_iff_of_separators hstyles (hnamed.isBase p hpmem)
      (hnamed.isBase q hqmem)]
    exact hne p hp q hq
  have hname := htype.mem_typeNames
  have hname' := htype'.mem_typeNames
  rw [hnamed.ofBase p hpmem] at hname
  rw [hnamed.ofBase q hqmem] at hname'
  exact (Names.disjoint_typeNames_iff _ _ (hnamed.isBase p hpmem)
    (hnamed.isBase q hqmem)).mpr htypes hname hname'

/-- Types in Pascal case do not get in the way of functions in another style. -/
theorem not_exportsType_functionName (hfunctions : c.functionNaming ≠ .pascal)
    (htypes : c.typeNaming = .pascal) {op : PlannedOperation} (hop : op ∈ plannedOperations c d) :
    ¬ExportsType c d op.functionName := by
  intro h
  have hnames := hasNames_plannedOperations c d
  -- types of schemas and of operations are formatted in one style
  have hpascal : ∃ s, op.functionName = NameStyle.pascal.format s := by
    rcases h.origin with ⟨-, e, -, heq⟩ | ⟨q, hq, hname⟩
    · exact ⟨e.1, htypes ▸ heq⟩
    · obtain ⟨base, -, heq⟩ := hnames.exists_format hq hname
      exact ⟨base, htypes ▸ heq⟩
  obtain ⟨s, heq⟩ := hpascal
  rw [hnames.functionName_eq hop] at heq
  exact NameStyle.pascal_format_ne_safeName hfunctions (hnames op hop).1 s heq.symm

/-- No type of an operation ends as aliases do. -/
theorem endsAsAlias_of_mem_typeNames {op : PlannedOperation} (hop : op ∈ plannedOperations c d)
    {name : String} (h : name ∈ op.names.typeNames) : endsAsAlias name = false := by
  obtain ⟨hbase, hnames⟩ := hasNames_plannedOperations c d op hop
  rw [hnames] at h
  simp only [Names.typeNames, List.mem_cons, List.not_mem_nil, or_false] at h
  rcases h with rfl | rfl | rfl
  · rw [endsAsAlias, Names.getLast?_requestType _ _ hbase]
    rfl
  · rw [endsAsAlias, Names.getLast?_responseType _ _ hbase]
    rfl
  · rw [endsAsAlias, Names.getLast?_dataType _ _ hbase]
    rfl

/-! ## Files that are apart -/

/-- No named schema that the index exports has the name of something in the request helper. -/
def SparesHelper (c : Config) (d : Document) : Prop :=
  exportsTypes c = true → c.generateUtils = true →
    ∀ e ∈ d.schemas, c.typeNaming.format e.1 ∉ helperNames .typeScript

/-- What keeps apart the names that the index takes from different files: named schemas are not
called like anything in the request helper, no type is called like a function or an alias, and no
two modules own a type of one name. -/
structure Apart (c : Config) (d : Document) : Prop where
  helper : SparesHelper c d
  functions : c.exportStyle = .named → ∀ op ∈ plannedOperations c d,
    ¬ExportsType c d op.functionName
  aliases : c.exportStyle = .default → exportsTypes c = true → ∀ e ∈ d.schemas,
    c.typeNaming.format e.1 ∉ aliases c.language (modulePlans c d)
  modules : c.exportStyle = .named → hasTypesFile c = false →
    (modulePlans c d).Pairwise fun m m' => ∀ name, OwnsType c d m name → ¬OwnsType c d m' name

theorem sparesHelper_iff :
    SparesHelper c d ↔ (exportedTypes c d).Disjoint (exportedHelpers c) := by
  have hlanguage : exportsTypes c = true → c.language = .typeScript := fun h =>
    eq_of_beq (Bool.and_eq_true_iff.mp h).1
  constructor
  · intro h name htype hhelper
    unfold exportedHelpers at hhelper
    split_ifs at hhelper with hutils
    · rcases (mem_exportedTypes.mp htype).origin with ⟨hexports, e, he, rfl⟩ | ⟨op, hop, hname⟩
      · rw [hlanguage hexports] at hhelper
        exact h hexports hutils e he hhelper
      · obtain ⟨base, hbase, rfl⟩ := (hasNames_plannedOperations c d).exists_format hop hname
        exact format_not_mem_helperNames c.typeNaming hbase c.language hhelper
    · exact absurd hhelper List.not_mem_nil
  · intro h hexports hutils e he hmem
    refine h (mem_exportedTypes.mpr (.schema hexports he)) ?_
    rw [exportedHelpers, if_pos hutils, hlanguage hexports]
    exact hmem

theorem nodup_exportedTypes_iff :
    (exportedTypes c d).Nodup ↔ (c.exportStyle = .named → hasTypesFile c = false →
      (modulePlans c d).Pairwise fun m m' =>
        ∀ name, OwnsType c d m name → ¬OwnsType c d m' name) := by
  unfold exportedTypes
  split_ifs with hexports
  · refine iff_of_true nodup_declaredNames fun _ hinline => ?_
    rw [hasTypesFile_of_exportsTypes hexports] at hinline
    exact absurd hinline (by decide)
  · unfold inlineTypes
    cases c.exportStyle with
    | default => exact iff_of_true List.nodup_nil nofun
    | named =>
      cases hfile : hasTypesFile c with
      | true =>
        have hnone : (modulePlans c d).flatMap (ownTypeNames c (selected c d)) = [] := by
          rw [List.flatMap_eq_nil_iff]
          intro m _
          exact if_pos hfile
        rw [hnone]
        exact iff_of_true List.nodup_nil nofun
      | false =>
        rw [List.nodup_flatMap]
        constructor
        · rintro ⟨-, h⟩ _ _
          apply h.imp
          intro m m' hdisjoint name howns howns'
          exact hdisjoint ((mem_ownTypeNames hfile).mpr howns) ((mem_ownTypeNames hfile).mpr howns')
        · intro h
          refine ⟨fun m _ => nodup_ownTypeNames c _ m, (h rfl rfl).imp ?_⟩
          intro m m' hne name hname hname'
          exact hne name ((mem_ownTypeNames hfile).mp hname) ((mem_ownTypeNames hfile).mp hname')

theorem disjoint_exportedValues_iff :
    (exportedTypes c d).Disjoint (exportedValues c d) ↔
      (c.exportStyle = .named → ∀ op ∈ plannedOperations c d, ¬ExportsType c d op.functionName) ∧
      (c.exportStyle = .default → exportsTypes c = true → ∀ e ∈ d.schemas,
        c.typeNaming.format e.1 ∉ aliases c.language (modulePlans c d)) := by
  unfold exportedValues
  cases c.exportStyle with
  | named =>
    constructor
    · intro h
      refine ⟨fun _ op hop htype => ?_, nofun⟩
      exact h (mem_exportedTypes.mpr htype) (List.mem_map_of_mem hop)
    · rintro ⟨hfunctions, -⟩ name htype hvalue
      obtain ⟨op, hop, rfl⟩ := List.mem_map.mp hvalue
      exact hfunctions rfl op hop (mem_exportedTypes.mp htype)
  | default =>
    constructor
    · intro h
      refine ⟨nofun, fun _ hexports e he halias => ?_⟩
      exact h (mem_exportedTypes.mpr (.schema hexports he)) halias
    · rintro ⟨-, haliases⟩ name htype halias
      rcases (mem_exportedTypes.mp htype).origin with ⟨hexports, e, he, rfl⟩ | ⟨op, hop, hname⟩
      · exact haliases rfl hexports e he halias
      · have hends := endsAsAlias_of_mem_aliases halias
        rw [endsAsAlias_of_mem_typeNames hop hname] at hends
        exact absurd hends (by decide)

theorem nodup_indexNames_iff_apart (c : Config) (d : Document) :
    (indexNames c d).Nodup ↔ Apart c d := by
  have hvalues : (exportedHelpers c ++ exportedValues c d).Nodup :=
    List.nodup_append'.mpr
      ⟨nodup_exportedHelpers c, nodup_exportedValues c d, disjoint_helpers_values c d⟩
  rw [(perm_indexNames c d).nodup_iff, List.nodup_append', List.disjoint_append_right,
    nodup_exportedTypes_iff, disjoint_exportedValues_iff, ← sparesHelper_iff]
  constructor
  · rintro ⟨hmodules, -, hhelper, hfunctions, haliases⟩
    exact ⟨hhelper, hfunctions, haliases, hmodules⟩
  · intro h
    exact ⟨h.modules, hvalues, h.helper, h.functions, h.aliases⟩

/-- **The index.** It exports every name once exactly if the files that it exports are apart. If
types are in Pascal case, functions in camel case and both exported by name, then the files are
apart as soon as no named schema is called like something in the request helper. -/
theorem indexNames_nodup_iff (c : Config) (d : Document) :
    ((indexNames c d).Nodup ↔ Apart c d) ∧
      (c.exportStyle = .named → c.functionNaming = .camel → c.typeNaming = .pascal →
        ((indexNames c d).Nodup ↔ SparesHelper c d)) := by
  have hapart := nodup_indexNames_iff_apart c d
  refine ⟨hapart, fun hexports hfunctions htypes => ?_⟩
  rw [hapart]
  constructor
  · exact Apart.helper
  · intro hhelper
    constructor
    case helper => exact hhelper
    case functions =>
      intro _ op hop
      refine not_exportsType_functionName ?_ htypes hop
      rw [hfunctions]
      decide
    case aliases =>
      intro hstyle
      rw [hexports] at hstyle
      exact absurd hstyle (by decide)
    case modules =>
      intro _ _
      apply pairwise_not_ownsType
      rw [hfunctions, htypes]
      decide

/-- A document with nothing but one named schema. -/
def oneSchema (name : String) : Document where
  version := "3.0.0"
  info := ⟨"T", "1", none⟩
  paths := []
  components := some
    { schemas := [(name, .ofPrimitive .string)], parameters := [], requestBodies := [],
      responses := [] }
  tags := []
  distinct := List.nodup_nil

/-- A schema with a name of its own does no harm. -/
theorem indexNames_pet : (indexNames .standard (oneSchema "Pet")).Nodup := by
  have hiff := (indexNames_nodup_iff .standard (oneSchema "Pet")).2 rfl rfl rfl
  rw [hiff]
  intro _ _
  decide +kernel

/-- A schema that is called `ApiResponse` is exported next to the type of that name in the request
helper. -/
theorem indexNames_apiResponse :
    Config.standard.generateIndex = true ∧
      indexNames .standard (oneSchema "ApiResponse") =
        ["ApiResponse", "RequestConfig", "ApiResponse", "request"] ∧
      ¬(indexNames .standard (oneSchema "ApiResponse")).Nodup := by
  decide +kernel

end Client

end OpenApiClient
