import OpenApiClient.Proofs.Modules.Functions

/-!
# Clients in two languages

A client in the typed language and one in the untyped language differ in their annotations only, if
the types have a file of their own (`languages_agree`). They have the same declarations of types,
the same files but for extensions, functions of the same names that make the same calls, and the
same diagnostics; and in the untyped language it makes no difference where types are wanted.
-/

namespace OpenApiClient

/-- The properties of the object literal that a client function passes on: what the first block of
its body holds. -/
def Code.Function.callFragments? (f : Code.Function) : Option (List Code.Fragment) :=
  match f.body with
  | .block _ properties _ :: _ => some properties
  | _ => none

theorem RequestShape.call_ne_nil (shape : RequestShape) (e : Endpoint) : shape.call e ≠ [] := by
  simp [RequestShape.call]

theorem Code.Properties.wrapped_of_ne_nil {properties : Code.Properties} (h : properties ≠ [])
    (opening closing : String) :
    properties.wrapped opening closing = .block (opening ++ "\x7b")
      (Code.propertyFragments properties) (some ("\x7d" ++ closing)) := by
  cases properties with
  | nil => exact absurd rfl h
  | cons p ps => rfl

/-- However a function is annotated, it makes the call of its shape. -/
theorem PlannedOperation.callFragments?_clientFunction (c : Config) (t : Typing)
    (op : PlannedOperation) (shape : RequestShape) :
    (op.clientFunction c t shape).callFragments? =
      some (Code.propertyFragments (shape.call op.endpoint)) := by
  have hwrapped (opening : String) := Code.Properties.wrapped_of_ne_nil
    (shape.call_ne_nil op.endpoint) (opening ++ op.callHead t) ");"
  unfold Code.Function.callFragments?
  show (match op.functionBody shape c.useAsync t with
    | .block _ properties _ :: _ => some properties
    | _ => none) = _
  unfold functionBody
  cases c.useAsync <;> simp only [hwrapped] <;> rfl

namespace ModulePath

/-- The path of a module's file without its extension. -/
def filePlace (m : ModulePath) : String :=
  m.stem ++ (if m.nested then "/index" else "")

theorem file_eq (m : ModulePath) (extension : String) :
    m.file extension = m.filePlace ++ ("." ++ extension) := by
  have hmiddle : "/index." = "/index" ++ "." := rfl
  unfold file filePlace
  split
  · rw [hmiddle]
    simp only [String.append_assoc]
  · simp only [String.append_assoc, String.empty_append]

end ModulePath

namespace Client

variable (c : Config) (d : Document)

/-! ## Diagnostics -/

theorem notes_units (plans : List ModulePlan) :
    (units c d plans).notes =
      (if hasTypesFile c then (typesUnit c d plans).notes else []) ++
        plans.flatMap fun m => (moduleUnit c d m).notes := by
  unfold units
  split_ifs <;>
    simp only [Noted.notes_bind, Noted.notes_pure, Noted.notes_each, List.append_nil,
      List.nil_append]

/-- Where the types have a file of their own, a module has nothing to say but about requests. -/
theorem notes_moduleUnit_of_hasTypesFile {c : Config} (h : hasTypesFile c = true) (m : ModulePlan) :
    (moduleUnit c d m).notes = (shapesOf (c.typeContext d) m.operations).notes := by
  simp only [moduleUnit, moduleSource, Noted.notes_bind]
  cases hlanguage : c.language with
  | javaScript => simp
  | typeScript =>
    have hseparate : c.separateTypes = true := by simpa [hasTypesFile, hlanguage] using h
    simp [hseparate]

theorem notes_units_of_hasTypesFile {c : Config} (h : hasTypesFile c = true)
    (plans : List ModulePlan) :
    (units c d plans).notes = (allDeclarations (c.typeContext d) plans).notes ++
      plans.flatMap fun m => (shapesOf (c.typeContext d) m.operations).notes := by
  have htypes : (typesUnit c d plans).notes = (allDeclarations (c.typeContext d) plans).notes := by
    simp only [typesUnit, Noted.notes_bind, Noted.notes_pure, List.append_nil]
  rw [notes_units, if_pos h, htypes]
  exact congrArg _ (List.flatMap_congr fun m _ => notes_moduleUnit_of_hasTypesFile d h m)

def typedConfig : Config :=
  { c with language := .typeScript, separateTypes := true }

def untypedConfig : Config :=
  { c with language := .javaScript }

theorem hasTypesFile_typed : hasTypesFile (typedConfig c) = true := rfl

theorem hasTypesFile_untyped : hasTypesFile (untypedConfig c) = true := by
  simp [hasTypesFile, untypedConfig]

theorem diagnostics_untyped :
    (generate (untypedConfig c) d).diagnostics = (generate (typedConfig c) d).diagnostics := by
  have hnotes (c : Config) : (sources c d).notes = (plans c (selected c d)).notes ++
      (units c (selected c d) (modulePlans c d)).notes := rfl
  have hunits : (units (untypedConfig c) (selected (untypedConfig c) d)
      (modulePlans (untypedConfig c) d)).notes =
      (units (typedConfig c) (selected (typedConfig c) d)
        (modulePlans (typedConfig c) d)).notes := by
    rw [notes_units_of_hasTypesFile _ (hasTypesFile_untyped c),
      notes_units_of_hasTypesFile _ (hasTypesFile_typed c)]
    rfl
  show (Pass.recordAll (sources _ d).notes {}).diagnostics = (Pass.recordAll _ {}).diagnostics
  rw [hnotes, hnotes, hunits]
  rfl

theorem nodup_diagnostics : (generate c d).diagnostics.Nodup := by
  show (Pass.recordAll _ {}).diagnostics.Nodup
  rw [Pass.diagnostics_recordAll]
  exact nodup_eraseDups _

/-! ## Files -/

/-- The source files besides that of types. -/
def otherUnits : List SourceUnit :=
  (if c.generateUtils then [RequestHelper.unit c c.language] else []) ++
    ((modulePlans c d).map fun m => (moduleUnit c (selected c d) m).value) ++
    (if c.generateIndex then [indexUnit c (modulePlans c d)] else [])

/-- The paths of these files without their extensions. -/
def otherPlaces : List String :=
  (if c.generateUtils then ["utils/request"] else []) ++
    ((modulePlans c d).map fun m => m.place.filePlace) ++
    (if c.generateIndex then ["index"] else [])

theorem files_of_hasTypesFile {c : Config} (h : hasTypesFile c = true) :
    (generate c d).files = (typesUnit c (selected c d) (modulePlans c d)).value.file ::
      (otherUnits c d).map SourceUnit.file := by
  show (sources c d).value.map SourceUnit.file = _
  rw [value_sources, if_pos h, List.append_assoc, List.append_assoc, List.singleton_append,
    List.map_cons, otherUnits, List.append_assoc]

theorem map_path_otherUnits :
    (otherUnits c d).map SourceUnit.path =
      (otherPlaces c d).map (· ++ ("." ++ c.language.extension)) := by
  have hhelper : (if c.generateUtils then [RequestHelper.unit c c.language] else []).map
      SourceUnit.path =
        (if c.generateUtils then ["utils/request"] else []).map
          (· ++ ("." ++ c.language.extension)) := by
    cases c.generateUtils with
    | false => rfl
    | true => cases c.language <;> rfl
  have hmodules : ((modulePlans c d).map fun m => (moduleUnit c (selected c d) m).value).map
      SourceUnit.path =
        ((modulePlans c d).map fun m => m.place.filePlace).map
          (· ++ ("." ++ c.language.extension)) := by
    rw [List.map_map, List.map_map]
    exact List.map_congr_left fun m _ => m.place.file_eq c.language.extension
  have hindex : (if c.generateIndex then [indexUnit c (modulePlans c d)] else []).map
      SourceUnit.path =
        (if c.generateIndex then ["index"] else []).map (· ++ ("." ++ c.language.extension)) := by
    have hindex : (indexUnit c (modulePlans c d)).path =
        "index" ++ ("." ++ c.language.extension) := by
      show "index" ++ "." ++ _ = _
      rw [String.append_assoc]
    cases c.generateIndex with
    | false => rfl
    | true => exact congrArg (fun path => [path]) hindex
  rw [otherUnits, otherPlaces, List.map_append, List.map_append, hhelper, hmodules, hindex,
    List.map_append, List.map_append]

/-- The names of the functions of a source file, each with the call that it makes. -/
def callsOf (u : SourceUnit) : List (String × Option (List Code.Fragment)) :=
  u.source.functions.map fun f => (f.name, f.callFragments?)

/-- A module has for each of its operations the function of its name with the call of its shape,
whatever the language is. -/
theorem callsOf_moduleUnit (m : ModulePlan) :
    callsOf (moduleUnit c d m).value = m.operations.map fun op =>
      (op.functionName, some (Code.propertyFragments
        ((RequestShape.of (c.typeContext d) op).value.call op.endpoint))) := by
  rw [callsOf, functions_moduleUnit, List.map_map]
  refine List.map_congr_left fun op _ => ?_
  exact congrArg (Prod.mk op.functionName) (op.callFragments?_clientFunction c _ _)

/-- The wish for a file of types is of no account in the untyped language, which has one always. -/
theorem units_untyped (wanted : Bool) (plans : List ModulePlan) :
    units { untypedConfig c with separateTypes := wanted } d plans =
      units (untypedConfig c) d plans := by
  have hwanted : hasTypesFile { untypedConfig c with separateTypes := wanted } = true :=
    hasTypesFile_untyped { c with separateTypes := wanted }
  unfold units
  rw [hwanted, hasTypesFile_untyped]
  rfl

/-! ## Agreement -/

/-- What a typed client and an untyped one have in common. Each begins with a file of types, whose
contents are equal; the others have the same places, in the same order. The same modules have
functions of the same names with the same calls, which are those of the shapes of their operations.
There are the same diagnostics, each once, and the untyped client does not depend on whether types
are wanted in a file of their own. -/
structure LanguagesAgree : Prop where
  files : ∃ (content : String) (typed untyped : List GeneratedFile) (places : List String),
    (generate (typedConfig c) d).files = ⟨"types.ts", content, .typeScript⟩ :: typed ∧
      (generate (untypedConfig c) d).files = ⟨"types.d.ts", content, .typeScript⟩ :: untyped ∧
      typed.map GeneratedFile.path = places.map (· ++ ".ts") ∧
      untyped.map GeneratedFile.path = places.map (· ++ ".js")
  modules : modulePlans (untypedConfig c) d = modulePlans (typedConfig c) d
  units : ∀ m ∈ modulePlans (typedConfig c) d,
    (moduleUnit (typedConfig c) (selected c d) m).value ∈ (sources (typedConfig c) d).value ∧
      (moduleUnit (untypedConfig c) (selected c d) m).value ∈ (sources (untypedConfig c) d).value
  calls : ∀ m ∈ modulePlans (typedConfig c) d,
    callsOf (moduleUnit (untypedConfig c) (selected c d) m).value =
        callsOf (moduleUnit (typedConfig c) (selected c d) m).value ∧
      callsOf (moduleUnit (typedConfig c) (selected c d) m).value = m.operations.map fun op =>
        (op.functionName, some (Code.propertyFragments
          ((RequestShape.of (c.typeContext (selected c d)) op).value.call op.endpoint)))
  diagnostics : (generate (untypedConfig c) d).diagnostics =
    (generate (typedConfig c) d).diagnostics
  nodup : (generate (typedConfig c) d).diagnostics.Nodup
  separate : ∀ wanted,
    generate { untypedConfig c with separateTypes := wanted } d = generate (untypedConfig c) d

/-- **Languages.** A typed client with a file of types and an untyped client agree, for every
configuration and every document. -/
theorem languages_agree (c : Config) (d : Document) : LanguagesAgree c d := by
  constructor
  case files =>
    refine ⟨_, _, _, otherPlaces c d, files_of_hasTypesFile d (hasTypesFile_typed c),
      files_of_hasTypesFile d (hasTypesFile_untyped c), ?_, ?_⟩
    · rw [List.map_map]
      exact map_path_otherUnits (typedConfig c) d
    · rw [List.map_map]
      exact map_path_otherUnits (untypedConfig c) d
  case modules => rfl
  case units =>
    intro m hm
    exact ⟨moduleUnit_mem_sources (c := typedConfig c) hm,
      moduleUnit_mem_sources (c := untypedConfig c) hm⟩
  case calls =>
    intro m hm
    rw [callsOf_moduleUnit, callsOf_moduleUnit]
    exact ⟨rfl, rfl⟩
  case diagnostics => exact diagnostics_untyped c d
  case nodup => exact nodup_diagnostics _ d
  case separate =>
    intro wanted
    have hsources : sources { untypedConfig c with separateTypes := wanted } d =
        sources (untypedConfig c) d := by
      unfold sources
      simp only [units_untyped]
      rfl
    unfold generate
    rw [hsources]

end Client

end OpenApiClient
