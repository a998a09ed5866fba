import OpenApiClient.Client.Plan
import OpenApiClient.Proofs.Names.Supply
import OpenApiClient.Proofs.Noted

/-!
# The types of planned operations

Every planned operation has names that come from one base. The bases are claimed from one supply,
so their names in the style of functions all differ (`Named`); nothing is claimed in the style of
types. Whether two operations share a type is therefore a question about the two styles:

* types of different kinds never have one name, as they end in different letters
  (`Names.kinds_ne`);
* types of the same kind have one name exactly if the bases look the same in the style of types
  (`format_append_run_eq_iff`);
* a base looks the same as another in both styles or in neither, if both styles or none put a
  separator between words (`format_eq_iff_of_separators`).

A style with separators and one without disagree on which bases are the same, and then operations
with different functions can have the same types (`types_shared_between_styles`).
-/

namespace OpenApiClient

namespace NameStyle

variable {base base' : String}

/-- A word with its first letter in lower case. -/
def uncapitalize : List Char → List Char
  | [] => []
  | c :: rest => c.toLower :: rest

theorem assemble_pascal_method (m : Method) (ws : List (List Char)) :
    pascal.assemble (m.name.toList :: ws) =
      capitalize (camel.assemble (m.name.toList :: ws)) := by
  cases m <;> rfl

theorem assemble_camel_method (m : Method) (ws : List (List Char)) :
    camel.assemble (m.name.toList :: ws) =
      uncapitalize (pascal.assemble (m.name.toList :: ws)) := by
  cases m <;> rfl

theorem format_eq_iff_assemble_eq (style : NameStyle) (h : IsOperationBase base)
    (h' : IsOperationBase base') :
    style.format base = style.format base' ↔
      style.assemble (Text.words base.toList) = style.assemble (Text.words base'.toList) := by
  rw [← String.toList_inj, format_of_isOperationBase style h, format_of_isOperationBase style h']

/-- The two styles without separators differ only in the first letter, and only in its case. -/
theorem camel_eq_iff_pascal_eq (h : IsOperationBase base) (h' : IsOperationBase base') :
    camel.format base = camel.format base' ↔ pascal.format base = pascal.format base' := by
  -- the first word is a method, whose first letter is known, so its case can be put back
  rw [format_eq_iff_assemble_eq camel h h', format_eq_iff_assemble_eq pascal h h']
  obtain ⟨m, ws, hws⟩ := h
  obtain ⟨m', ws', hws'⟩ := h'
  rw [hws, hws']
  constructor
  · intro heq
    rw [assemble_pascal_method, assemble_pascal_method, heq]
  · intro heq
    rw [assemble_camel_method, assemble_camel_method, heq]

/-- Styles that both put separators between words, or both do not, tell apart the same bases. -/
theorem format_eq_iff_of_separators {functions types : NameStyle}
    (hstyles : functions = snake ↔ types = snake) (h : IsOperationBase base)
    (h' : IsOperationBase base') :
    types.format base = types.format base' ↔ functions.format base = functions.format base' := by
  cases functions <;> cases types <;>
    simp only [reduceCtorEq, iff_true, iff_false, not_true_eq_false] at hstyles ⊢
  · exact (camel_eq_iff_pascal_eq h h').symm
  · exact camel_eq_iff_pascal_eq h h'

/-- A kind that is added to two bases is no help in telling them apart, nor a hindrance. -/
theorem format_append_run_eq_iff (style : NameStyle) (h : IsOperationBase base)
    (h' : IsOperationBase base') {run : String} (hrun : Text.IsRun run.toList) :
    style.format (base ++ "_" ++ run) = style.format (base' ++ "_" ++ run) ↔
      style.format base = style.format base' := by
  rw [← String.toList_inj, format_append_run style h hrun, format_append_run style h' hrun,
    List.append_cancel_right_eq, format_eq_iff_assemble_eq style h h']

/-- The name of a type ends as its kind does. -/
theorem getLast?_format_append_run (style : NameStyle) (h : IsOperationBase base) (run : String)
    {c d : Char} {rest : List Char} (hchars : run.toList = c :: d :: rest)
    (hrun : Text.IsRun run.toList) (hlower : lower run.toList = run.toList) :
    (style.format (base ++ "_" ++ run)).toList.getLast? = (d :: rest).getLast? := by
  rw [hchars] at hlower
  have hlast := getLast?_further style hlower
  rw [format_append_run style h hrun, hchars, List.getLast?_append, hlast]
  rcases hd : (d :: rest).getLast? with _ | e
  · simp at hd
  · rfl

end NameStyle

/-! ## The types of an operation -/

namespace Names

/-! The words for the kinds of types are runs. -/

theorem isRun_request : Text.IsRun "request".toList := by decide

theorem isRun_response : Text.IsRun "response".toList := by decide

theorem isRun_data : Text.IsRun "data".toList := by decide

def typeNames (n : Names) : List String :=
  [n.requestType, n.responseType, n.dataType]

theorem requestType_ofBase (base : String) (functions types : NameStyle) :
    (ofBase base functions types).requestType = types.format (base ++ "_" ++ "request") := by
  rw [String.append_assoc]
  rfl

theorem responseType_ofBase (base : String) (functions types : NameStyle) :
    (ofBase base functions types).responseType = types.format (base ++ "_" ++ "response") := by
  rw [String.append_assoc]
  rfl

theorem dataType_ofBase (base : String) (functions types : NameStyle) :
    (ofBase base functions types).dataType =
      types.format (base ++ "_" ++ "response" ++ "_" ++ "data") := by
  rw [String.append_assoc, String.append_assoc, String.append_assoc]
  rfl

variable {base base' : String} (functions types : NameStyle)

/-! The last letters of the three kinds of types are those of `request`, `response` and `data`. -/

theorem getLast?_requestType (h : IsOperationBase base) :
    (ofBase base functions types).requestType.toList.getLast? = some 't' := by
  rw [requestType_ofBase]
  exact NameStyle.getLast?_format_append_run types h "request" rfl isRun_request rfl

theorem getLast?_responseType (h : IsOperationBase base) :
    (ofBase base functions types).responseType.toList.getLast? = some 'e' := by
  rw [responseType_ofBase]
  exact NameStyle.getLast?_format_append_run types h "response" rfl isRun_response rfl

theorem getLast?_dataType (h : IsOperationBase base) :
    (ofBase base functions types).dataType.toList.getLast? = some 'a' := by
  rw [dataType_ofBase]
  exact NameStyle.getLast?_format_append_run types (h.append_run isRun_response) "data" rfl
    isRun_data rfl

/-- Types of different kinds never have one name, be it of one operation or of two. -/
theorem kinds_ne (h : IsOperationBase base) (h' : IsOperationBase base') :
    (ofBase base functions types).requestType ≠ (ofBase base' functions types).responseType ∧
      (ofBase base functions types).requestType ≠ (ofBase base' functions types).dataType ∧
      (ofBase base functions types).responseType ≠ (ofBase base' functions types).dataType := by
  refine ⟨fun heq => ?_, fun heq => ?_, fun heq => ?_⟩
  · have hlast := getLast?_requestType functions types h
    rw [heq, getLast?_responseType functions types h'] at hlast
    simp at hlast
  · have hlast := getLast?_requestType functions types h
    rw [heq, getLast?_dataType functions types h'] at hlast
    simp at hlast
  · have hlast := getLast?_responseType functions types h
    rw [heq, getLast?_dataType functions types h'] at hlast
    simp at hlast

/-- The three types of an operation have three names. -/
theorem nodup_typeNames (h : IsOperationBase base) :
    (ofBase base functions types).typeNames.Nodup := by
  obtain ⟨hrs, hrd, hsd⟩ := kinds_ne functions types h h
  simp [typeNames, hrs, hrd, hsd]

/-- Two operations have no type in common exactly if their bases look different in the style of
types. -/
theorem disjoint_typeNames_iff (h : IsOperationBase base) (h' : IsOperationBase base') :
    (ofBase base functions types).typeNames.Disjoint (ofBase base' functions types).typeNames ↔
      types.format base ≠ types.format base' := by
  have hrequest := NameStyle.format_append_run_eq_iff types h h' isRun_request
  have hresponse := NameStyle.format_append_run_eq_iff types h h' isRun_response
  have hdata := NameStyle.format_append_run_eq_iff types (h.append_run isRun_response)
    (h'.append_run isRun_response) isRun_data
  rw [← requestType_ofBase _ functions, ← requestType_ofBase _ functions] at hrequest
  rw [← dataType_ofBase _ functions, ← dataType_ofBase _ functions, hresponse] at hdata
  rw [← responseType_ofBase _ functions, ← responseType_ofBase _ functions] at hresponse
  obtain ⟨hrs, hrd, hsd⟩ := kinds_ne functions types h h'
  obtain ⟨hrs', hrd', hsd'⟩ := kinds_ne functions types h' h
  rw [List.disjoint_comm]
  simp [typeNames, hrequest, hresponse, hdata, hrs, hrd, hsd, hrs'.symm, hrd'.symm, hsd'.symm]

end Names

/-! ## Planned operations -/

namespace Plan

variable {functions types : NameStyle}

/-- What holds of operations that were named one after another, the first of them when `before` was
in use: each has the names of a base of its own, and no two bases look the same in the style of
functions. -/
structure Named (functions types : NameStyle) (before : List String)
    (ops : List PlannedOperation) : Prop where
  isBase : ∀ op ∈ ops, IsOperationBase op.names.base
  ofBase : ∀ op ∈ ops, op.names = Names.ofBase op.names.base functions types
  fresh : ∀ op ∈ ops, functions.format op.names.base ∉ before
  distinct : ops.Pairwise fun p q =>
    functions.format p.names.base ≠ functions.format q.names.base

/-- A claimed base begins with the method as the base does that was asked for. -/
theorem isOperationBase_claim (e : Endpoint) (style : NameStyle) (s : NameSupply) :
    IsOperationBase (s.claim (nameBase e.method e.path) style).1.base := by
  have hbase := isOperationBase_nameBase e.method e.path
  rcases (NameSupply.claim_spec (nameBase e.method e.path) style s).2.2 with heq | ⟨n, heq⟩
  · rwa [heq]
  · rw [heq]
    exact hbase.numbered n

/-- Naming one operation after another keeps their bases apart. -/
theorem named_nameOperations : ∀ (endpoints : List Endpoint) (s : NameSupply),
    Named functions types s.used (nameOperations functions types endpoints s).value.1
  | [], s => ⟨by simp [nameOperations], by simp [nameOperations], by simp [nameOperations],
      by simp [nameOperations]⟩
  | e :: rest, s => by
    obtain ⟨hfree, hused, -⟩ := NameSupply.claim_spec (nameBase e.method e.path) functions s
    have hclaimed := isOperationBase_claim e functions s
    have ih := named_nameOperations rest (s.claim (nameBase e.method e.path) functions).2
    generalize hclaim : s.claim (nameBase e.method e.path) functions = claim at *
    have hvalue : (nameOperations functions types (e :: rest) s).value.1 =
        ⟨e, Names.ofBase claim.1.base functions types⟩ ::
          (nameOperations functions types rest claim.2).value.1 := by
      rw [← hclaim]
      rfl
    rw [hvalue]
    refine ⟨?_, ?_, ?_, ?_⟩
    · rintro op (_ | ⟨_, hop⟩)
      · exact hclaimed
      · exact ih.isBase op hop
    · rintro op (_ | ⟨_, hop⟩)
      · rfl
      · exact ih.ofBase op hop
    · rintro op (_ | ⟨_, hop⟩)
      · exact hfree
      · have hfresh := ih.fresh op hop
        rw [hused] at hfresh
        exact fun hmem => hfresh (List.mem_cons_of_mem _ hmem)
    · -- later bases are free after this one is claimed, so none of them looks like it
      refine List.pairwise_cons.mpr ⟨fun op hop heq => ?_, ih.distinct⟩
      have hfresh := ih.fresh op hop
      rw [hused] at hfresh
      exact hfresh (heq ▸ List.mem_cons_self)

theorem nameOperations_append (es fs : List Endpoint) : ∀ s : NameSupply,
    (nameOperations functions types (es ++ fs) s).value.1 =
      (nameOperations functions types es s).value.1 ++
        (nameOperations functions types fs
          (nameOperations functions types es s).value.2).value.1 := by
  induction es with
  | nil => intro s; rfl
  | cons e es ih =>
    intro s
    exact congrArg (_ :: ·) (ih _)

/-- The modules of a plan share one supply: their operations are named as if they stood in one
list. -/
theorem operations_modulesFrom : ∀ (groups : Groups) (taken : List String) (s : NameSupply),
    (modulesFrom functions types groups taken s).value.flatMap ModulePlan.operations =
      (nameOperations functions types (groups.flatMap Prod.snd) s).value.1
  | [], taken, s => rfl
  | (tag, endpoints) :: rest, taken, s => by
    rw [List.flatMap_cons, nameOperations_append]
    exact congrArg (_ ++ ·) (operations_modulesFrom rest _ _)

def operations (c : Config) (groups : Groups) : List PlannedOperation :=
  (modules c groups).value.flatMap ModulePlan.operations

theorem named_operations (c : Config) (groups : Groups) :
    Named c.functionNaming c.typeNaming [] (operations c groups) := by
  rw [operations, modules, operations_modulesFrom]
  exact named_nameOperations _ NameSupply.empty

/-- **The types of operations.** Types of different kinds never have one name, in one operation or
in two. Two operations have no type in common exactly if their bases look different in the style of
types, and this is always so if the styles of functions and of types both put a separator between
words or both do not. -/
theorem operation_types_disjoint (c : Config) (groups : Groups) :
    (∀ op ∈ operations c groups, op.names.typeNames.Nodup) ∧
      (∀ p ∈ operations c groups, ∀ q ∈ operations c groups,
        p.names.requestType ≠ q.names.responseType ∧ p.names.requestType ≠ q.names.dataType ∧
          p.names.responseType ≠ q.names.dataType) ∧
      ((operations c groups).Pairwise fun p q =>
        p.names.typeNames.Disjoint q.names.typeNames ↔
          c.typeNaming.format p.names.base ≠ c.typeNaming.format q.names.base) ∧
      ((c.functionNaming = .snake ↔ c.typeNaming = .snake) →
        (operations c groups).Pairwise fun p q =>
          p.names.typeNames.Disjoint q.names.typeNames) := by
  have hnamed := named_operations c groups
  have hdisjoint : ∀ p ∈ operations c groups, ∀ q ∈ operations c groups,
      (p.names.typeNames.Disjoint q.names.typeNames ↔
        c.typeNaming.format p.names.base ≠ c.typeNaming.format q.names.base) := by
    intro p hp q hq
    rw [hnamed.ofBase p hp, hnamed.ofBase q hq]
    exact Names.disjoint_typeNames_iff _ _ (hnamed.isBase p hp) (hnamed.isBase q hq)
  refine ⟨fun op hop => ?_, fun p hp q hq => ?_, ?_, fun hstyles => ?_⟩
  · rw [hnamed.ofBase op hop]
    exact Names.nodup_typeNames _ _ (hnamed.isBase op hop)
  · rw [hnamed.ofBase p hp, hnamed.ofBase q hq]
    exact Names.kinds_ne _ _ (hnamed.isBase p hp) (hnamed.isBase q hq)
  · exact List.pairwise_of_forall_mem_list hdisjoint
  · refine hnamed.distinct.imp_of_mem fun {p q} hp hq hne => ?_
    rw [hdisjoint p hp q hq, Ne, NameStyle.format_eq_iff_of_separators hstyles
      (hnamed.isBase p hp) (hnamed.isBase q hq)]
    exact hne

/-- Two paths that differ only in a placeholder: the second operation is numbered, and its types are
its own. -/
theorem operation_types_disjoint_standard :
    (Config.standard.functionNaming = .snake ↔ Config.standard.typeNaming = .snake) ∧
      (operations Config.standard
        [("Pets", [⟨"/pets/\x7bid\x7d", .get, default⟩]),
          ("pets", [⟨"/pets/\x7bpetId\x7d/", .get, default⟩])]).Pairwise fun p q =>
        p.names.typeNames.Disjoint q.names.typeNames :=
  ⟨by decide, (operation_types_disjoint _ _).2.2.2 (by decide)⟩

/-- With functions in snake case and types in Pascal case, `GET /a/b` and `GET /AB` have the
functions `get_a_b` and `get_ab` but the same types. -/
theorem types_shared_between_styles :
    ¬ (operations { Config.standard with functionNaming := .snake }
      [("default", [⟨"/a/b", .get, default⟩, ⟨"/AB", .get, default⟩])]).Pairwise fun p q =>
        p.names.typeNames.Disjoint q.names.typeNames := by
  intro h
  have hshared := (List.pairwise_cons.mp h).1 _ (List.mem_cons_self)
  exact hshared (a := "GetABRequest") (by decide +kernel) (by decide +kernel)

end Plan

end OpenApiClient
