import OpenApiClient.Proofs.Types.Units

/-!
# Types that a module mentions

A module mentions types in the signatures of its functions, in the calls and the comments in them
and in its imports. All of these are types that one of its operations asks for
(`knowsTypes_of_wanted`).
-/

namespace OpenApiClient

open Code (Declaration Function SourceFile)

namespace Client

variable {c : Config} {d : Document} {m : ModulePlan} {names : List String}

def typeReference (module name : String) : String :=
  "import('" ++ module ++ "')." ++ name

/-- Whether all types that a module mentions have known names: those of its operations, those of the
arguments and the results of its functions, of the calls and the comments in them, and those that it
imports. -/
structure KnowsTypes (names : List String) (c : Config) (d : Document) (m : ModulePlan) : Prop where
  response : ∀ op ∈ m.operations, op.names.responseType ∈ names
  request : ∀ op ∈ m.operations, (RequestShape.of (c.typeContext d) op).value.isEmpty = false →
    op.names.requestType ∈ names
  data : ∀ op ∈ m.operations, dataDeclarations op (DataShape.of (c.typeContext d) op).value ≠ [] →
    op.names.dataType ∈ names
  arguments : ∀ f ∈ (moduleUnit c d m).value.source.functions, ∀ a ∈ f.arguments,
    ∀ type ∈ a.type, type ∈ names
  results : ∀ f ∈ (moduleUnit c d m).value.source.functions, ∀ type ∈ f.result,
    ∃ name ∈ names, type = "Promise<" ++ name ++ ">"
  calls : ∀ op ∈ m.operations, op.callHead (typingOf c m) = "request(" ∨
    ∃ name ∈ names, op.callHead (typingOf c m) = "request<" ++ name ++ ">("
  comments : ∀ op ∈ m.operations,
    ∀ line ∈ op.typeLines (RequestShape.of (c.typeContext d) op).value (typingOf c m),
      ∃ name ∈ names,
        line = "@param \x7b" ++ typeReference (typesModule m) name ++ "\x7d " ++ argumentName ∨
          line = "@returns \x7bPromise<" ++ typeReference (typesModule m) name ++ ">\x7d"
  imports : ∀ i, .names i ∈ (moduleUnit c d m).value.source.imports →
    i.source = typesModule m ∧ ∀ name ∈ i.names, name ∈ names

section Wanted

variable {t : TypeContext} {op : PlannedOperation} {shape : RequestShape}

theorem responseType_mem_of_wanted
    (h : ∀ decl ∈ wantedDeclarations t op shape, decl.name ∈ names) :
    op.names.responseType ∈ names :=
  h _ (List.mem_append_right _ List.mem_cons_self)

theorem requestType_mem_of_wanted
    (h : ∀ decl ∈ wantedDeclarations t op shape, decl.name ∈ names)
    (hshape : shape.isEmpty = false) : op.names.requestType ∈ names := by
  simp only [wantedDeclarations, requestDeclarations, hshape] at h
  exact h _ List.mem_cons_self

theorem name_of_mem_dataDeclarations {data : DataShape} {decl : Declaration}
    (h : decl ∈ dataDeclarations op data) : decl.name = op.names.dataType := by
  cases data with
  | «alias» type => rw [List.mem_singleton.mp h]
  | interface members => rw [List.mem_singleton.mp h]
  | inline type => simp [dataDeclarations] at h

theorem dataType_mem_of_wanted
    (h : ∀ decl ∈ wantedDeclarations t op shape, decl.name ∈ names)
    (hdata : dataDeclarations op (DataShape.of t op).value ≠ []) : op.names.dataType ∈ names := by
  obtain ⟨decl, hdecl⟩ := List.exists_mem_of_ne_nil _ hdata
  have hname := h decl (List.mem_append_left _ (List.mem_append_right _ hdecl))
  rwa [name_of_mem_dataDeclarations hdecl] at hname

end Wanted

/-! ## Functions and imports -/

section Functions

variable {op : PlannedOperation} {shape : RequestShape} {t : Typing}

/-- A function takes the request type, or an argument without a type. -/
theorem mem_of_mem_arguments (h : shape.isEmpty = false → op.names.requestType ∈ names) :
    ∀ a ∈ op.functionArguments shape t, ∀ type ∈ a.type, type ∈ names := by
  intro a ha type htype
  unfold PlannedOperation.functionArguments at ha
  split_ifs at ha with hshape
  · simp at ha
  · cases t with
    | typed =>
      rw [List.mem_singleton.mp ha] at htype
      rw [← Option.mem_some_iff.mp htype]
      exact h (eq_false_of_ne_true hshape)
    | commented typesModule =>
      rw [List.mem_singleton.mp ha] at htype
      simp at htype

/-- The result of a function is the response type, if it has a type. -/
theorem exists_of_mem_result (h : op.names.responseType ∈ names) :
    ∀ type ∈ (op.clientFunction c t shape).result,
      ∃ name ∈ names, type = "Promise<" ++ name ++ ">" := by
  intro type htype
  cases t with
  | typed => exact ⟨_, h, (Option.mem_some_iff.mp htype).symm⟩
  | commented typesModule => exact absurd htype (Option.not_mem_none type)

/-- A call names the response type, if it names a type. -/
theorem callHead_cases (h : op.names.responseType ∈ names) :
    op.callHead t = "request(" ∨ ∃ name ∈ names, op.callHead t = "request<" ++ name ++ ">(" := by
  cases t with
  | typed => exact Or.inr ⟨_, h, rfl⟩
  | commented typesModule => exact Or.inl rfl

/-- The comment of a function names the request type, if there is a request, and the response
type. -/
theorem exists_of_mem_typeLines (hrequest : shape.isEmpty = false → op.names.requestType ∈ names)
    (hresponse : op.names.responseType ∈ names) (module : String) :
    ∀ line ∈ op.typeLines shape (.commented module),
      ∃ name ∈ names,
        line = "@param \x7b" ++ typeReference module name ++ "\x7d " ++ argumentName ∨
          line = "@returns \x7bPromise<" ++ typeReference module name ++ ">\x7d" := by
  intro line hline
  rcases List.mem_append.mp hline with hparam | hreturns
  · split_ifs at hparam with hshape
    · exact absurd hparam List.not_mem_nil
    · refine ⟨_, hrequest (eq_false_of_ne_true hshape), Or.inl ?_⟩
      rw [List.mem_singleton.mp hparam]
      rfl
  · refine ⟨_, hresponse, Or.inr ?_⟩
    rw [List.mem_singleton.mp hreturns]
    rfl

end Functions

theorem mem_typesImport {shapes : List (PlannedOperation × RequestShape)} {name : String} :
    name ∈ (typesImport m shapes).names ↔ name ∈ mentionedTypes shapes := by
  rw [typesImport, List.mem_mergeSort, List.mem_eraseDups]

/-- An imported type is the response type of an operation, or its request type if there is a
request. -/
theorem exists_of_mem_mentionedTypes {t : TypeContext} {ops : List PlannedOperation} {name : String}
    (h : name ∈ mentionedTypes (withShapes t ops)) :
    ∃ op ∈ ops, name = op.names.responseType ∨
      name = op.names.requestType ∧ (RequestShape.of t op).value.isEmpty = false := by
  obtain ⟨p, hp, hname⟩ := List.mem_flatMap.mp h
  obtain ⟨op, hop, rfl⟩ := List.mem_map.mp hp
  refine ⟨op, hop, ?_⟩
  rcases List.mem_append.mp hname with hname | hname
  · split_ifs at hname with hshape
    · exact absurd hname List.not_mem_nil
    · exact Or.inr ⟨List.mem_singleton.mp hname, eq_false_of_ne_true hshape⟩
  · exact Or.inl (List.mem_singleton.mp hname)

/-! ## Modules -/

/-- A module mentions only types that its operations ask for. -/
theorem knowsTypes_of_wanted (c : Config) (d : Document) (m : ModulePlan)
    (h : ∀ op ∈ m.operations,
      ∀ decl ∈ wantedDeclarations (c.typeContext d) op (RequestShape.of (c.typeContext d) op).value,
        decl.name ∈ names) :
    KnowsTypes names c d m := by
  have hresponse : ∀ op ∈ m.operations, op.names.responseType ∈ names :=
    fun op hop => responseType_mem_of_wanted (h op hop)
  have hrequest : ∀ op ∈ m.operations,
      (RequestShape.of (c.typeContext d) op).value.isEmpty = false →
        op.names.requestType ∈ names :=
    fun op hop => requestType_mem_of_wanted (h op hop)
  constructor
  case response => exact hresponse
  case request => exact hrequest
  case data => exact fun op hop => dataType_mem_of_wanted (h op hop)
  case arguments =>
    intro f hf
    rw [functions_moduleUnit] at hf
    obtain ⟨op, hop, rfl⟩ := List.mem_map.mp hf
    exact mem_of_mem_arguments (hrequest op hop)
  case results =>
    intro f hf
    rw [functions_moduleUnit] at hf
    obtain ⟨op, hop, rfl⟩ := List.mem_map.mp hf
    exact exists_of_mem_result (hresponse op hop)
  case calls => exact fun op hop => callHead_cases (hresponse op hop)
  case comments =>
    intro op hop line hline
    unfold typingOf at hline
    cases hlanguage : c.language with
    | typeScript =>
      -- with types in the code there is none in a comment
      rw [hlanguage] at hline
      exact absurd hline List.not_mem_nil
    | javaScript =>
      rw [hlanguage] at hline
      exact exists_of_mem_typeLines (hrequest op hop) (hresponse op hop) _ line hline
  case imports =>
    intro i hi
    rw [imports_moduleUnit hi]
    refine ⟨rfl, fun name hname => ?_⟩
    rw [mem_typesImport] at hname
    obtain ⟨op, hop, rfl | ⟨rfl, hshape⟩⟩ := exists_of_mem_mentionedTypes hname
    · exact hresponse op hop
    · exact hrequest op hop hshape

end Client

end OpenApiClient
