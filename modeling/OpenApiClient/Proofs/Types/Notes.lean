import OpenApiClient.Client.Generate
import OpenApiClient.Proofs.Noted

/-!
# What is noted about types

Whatever is noted while the source files of planned modules are written is about types
(`aboutTypes_units`). That all diagnostics of a computation have a property is kept by the ways in
which computations are put together (`Noted.Only`); the walk over a schema is by cases of schemas.
-/

namespace OpenApiClient

namespace Noted

variable {α β : Type} {P : Diagnostic → Prop}

def Only (P : Diagnostic → Prop) (x : Noted α) : Prop :=
  ∀ n ∈ x.notes, P n

theorem only_pure (a : α) : Only P (pure a) := by
  intro n hn
  exact absurd hn List.not_mem_nil

theorem only_note {d : Diagnostic} (h : P d) : Only P (note d) := by
  intro n hn
  rwa [List.mem_singleton.mp hn]

theorem only_noteIf {d : Diagnostic} (h : P d) (condition : Bool) :
    Only P (noteIf condition d) := by
  cases condition
  · exact only_pure ()
  · exact only_note h

theorem only_bind {x : Noted α} {f : α → Noted β} (hx : Only P x) (hf : ∀ a, Only P (f a)) :
    Only P (x >>= f) := by
  intro n hn
  rcases List.mem_append.mp hn with hn | hn
  · exact hx n hn
  · exact hf x.value n hn

theorem only_each {f : α → Noted β} (hf : ∀ a, Only P (f a)) (as : List α) :
    Only P (each f as) := by
  intro n hn
  rw [notes_each] at hn
  obtain ⟨a, -, ha⟩ := List.mem_flatMap.mp hn
  exact hf a n ha

end Noted

open Noted

/-! ## Types of schemas -/

def Diagnostic.IsAboutTypes (d : Diagnostic) : Prop :=
  d.stage = .types

theorem isAboutTypes_typeWarning (location message : String) :
    (Diagnostic.typeWarning location message).IsAboutTypes := rfl

theorem isAboutTypes_typeInfo (location message : String) :
    (Diagnostic.typeInfo location message).IsAboutTypes := rfl

variable (t : TypeContext) (location : String)

mutual

theorem Schema.isAboutTypes_typeNotes :
    ∀ (s : Schema), ∀ n ∈ s.typeNotes t location, n.IsAboutTypes
  | .reference _ pointer, n, hn => by
    rw [Schema.typeNotes] at hn
    split at hn
    · exact absurd hn List.not_mem_nil
    · rw [List.mem_singleton.mp hn]
      exact isAboutTypes_typeWarning _ _
  | .primitive _ _, n, hn => absurd hn List.not_mem_nil
  | .enumeration _ _ _, n, hn => absurd hn List.not_mem_nil
  | .array _ none, n, hn => absurd hn List.not_mem_nil
  | .array _ (some items), n, hn => Schema.isAboutTypes_typeNotes items n hn
  | .object _ [] _ none, n, hn => absurd hn List.not_mem_nil
  | .object _ [] _ (some extra), n, hn => Schema.isAboutTypes_typeNotes extra n hn
  | .object _ (p :: ps) _ none, n, hn => Schema.isAboutTypes_memberNotes (p :: ps) n hn
  | .object _ (p :: ps) _ (some _), n, hn => Schema.isAboutTypes_memberNotes (p :: ps) n hn
  | .combination _ kind _, n, hn => by
    rw [Schema.typeNotes, List.mem_singleton] at hn
    rw [hn]
    exact isAboutTypes_typeWarning _ _
  | .anything _ _, n, hn => absurd hn List.not_mem_nil
termination_by structural s => s

theorem Schema.isAboutTypes_memberNotes :
    ∀ (ps : List (String × Schema)), ∀ n ∈ Schema.memberNotes t location ps, n.IsAboutTypes
  | [], n, hn => absurd hn List.not_mem_nil
  | (_, s) :: rest, n, hn => by
    rw [Schema.memberNotes, List.mem_append] at hn
    rcases hn with hn | hn
    · exact Schema.isAboutTypes_typeNotes s n hn
    · exact Schema.isAboutTypes_memberNotes rest n hn
termination_by structural ps => ps

end

/-- A computation that has nothing to say but about types. -/
abbrev Noted.AboutTypes {α : Type} (x : Noted α) : Prop :=
  x.Only Diagnostic.IsAboutTypes

theorem aboutTypes_typeAt (s : Schema) : (s.typeAt t location).AboutTypes :=
  Schema.isAboutTypes_typeNotes t location s

/-! ## Requests -/

theorem aboutTypes_typeOrAny (s : Option Schema) : (typeOrAny t location s).AboutTypes := by
  cases s with
  | none => exact only_pure _
  | some s => exact aboutTypes_typeAt t location s

theorem aboutTypes_field (p : Parameter) : (p.field t location).AboutTypes :=
  only_bind (aboutTypes_typeOrAny t location p.schema) fun _ => only_pure _

theorem aboutTypes_propertyField (required : List String) (property : String × Schema) :
    (propertyField t location required property).AboutTypes :=
  only_bind (aboutTypes_typeAt t location property.2) fun _ => only_pure _

theorem aboutTypes_claimFields {α : Type} {nameOf : α → String} {clash : String → Diagnostic}
    {field : α → Noted RequestField} (hclash : ∀ name, (clash name).IsAboutTypes)
    (hfield : ∀ a, (field a).AboutTypes) (taken : List String) (items : List α) :
    (claimFields nameOf clash field taken items).AboutTypes := by
  induction items generalizing taken with
  | nil => exact only_pure _
  | cons a rest ih =>
    rw [claimFields]
    split
    · exact only_bind (only_note (hclash _)) fun _ => ih _
    · exact only_bind (hfield a) fun _ => only_bind (ih _) fun _ => only_pure _

namespace RequestShape

theorem aboutTypes_placeholderField (op : Operation) (name : String) :
    (placeholderField t location op name).AboutTypes := by
  unfold placeholderField
  split
  · exact only_bind (aboutTypes_field t location _) fun _ => only_pure _
  · exact only_pure _

theorem aboutTypes_keepContainer (name : String) (wanted : Bool) (placeholders : List String) :
    (keepContainer location name wanted placeholders).AboutTypes :=
  only_bind (only_noteIf (isAboutTypes_typeWarning _ _) _) fun _ => only_pure _

theorem aboutTypes_bodyOf (op : Operation) (keepBody : Bool) (taken : List String) :
    (bodyOf t location op keepBody taken).AboutTypes := by
  unfold bodyOf
  split
  · exact only_pure _
  · split
    · refine only_bind (aboutTypes_claimFields (fun _ => isAboutTypes_typeWarning _ _) ?_ _ _)
        fun _ => only_pure _
      exact aboutTypes_propertyField t location _
    · split
      · exact only_bind (aboutTypes_typeOrAny t location _) fun _ => only_pure _
      · exact only_pure _

/-- All that is noted about a request is about types. -/
theorem aboutTypes_of (op : PlannedOperation) : (of t op).AboutTypes := by
  have hnote {report : Parameter → Diagnostic} (hreport : ∀ p, (report p).IsAboutTypes)
      (ps : List Parameter) : (Noted.each (fun p => Noted.note (report p)) ps).AboutTypes :=
    only_each (fun p => only_note (hreport p)) ps
  unfold of
  refine only_bind (only_each (aboutTypes_placeholderField t _ _) _) fun _ => ?_
  refine only_bind (hnote (fun _ => isAboutTypes_typeWarning _ _) _) fun _ => ?_
  refine only_bind (aboutTypes_keepContainer _ _ _ _) fun _ => ?_
  refine only_bind (aboutTypes_keepContainer _ _ _ _) fun _ => ?_
  refine only_bind (aboutTypes_claimFields (fun _ => isAboutTypes_typeWarning _ _)
    (aboutTypes_field t _) _ _) fun _ => ?_
  refine only_bind (only_each (aboutTypes_field t _) _) fun _ => ?_
  refine only_bind (hnote (fun _ => isAboutTypes_typeInfo _ _) _) fun _ => ?_
  exact only_bind (aboutTypes_bodyOf t _ _ _ _) fun _ => only_pure _

end RequestShape

/-! ## Declarations -/

theorem aboutTypes_propertyMembers (required : List String) (properties : List (String × Schema)) :
    (propertyMembers t location required properties).AboutTypes := by
  refine only_each (fun p => ?_) _
  exact only_bind (aboutTypes_typeAt t location p.2) fun _ => only_pure _

theorem aboutTypes_schemaDeclaration (name : String) (s : Schema) :
    (schemaDeclaration t name s).AboutTypes := by
  unfold schemaDeclaration
  split
  · exact only_bind (aboutTypes_propertyMembers t _ _ _) fun _ =>
      only_bind (only_pure _) fun _ => only_pure _
  · exact only_bind (aboutTypes_typeAt t _ s) fun _ =>
      only_bind (only_pure _) fun _ => only_pure _

theorem aboutTypes_schemaDeclarations (declared : List String)
    (schemas : List (String × Schema)) : (schemaDeclarations t declared schemas).AboutTypes := by
  induction schemas generalizing declared with
  | nil => exact only_pure _
  | cons entry rest ih =>
    obtain ⟨name, s⟩ := entry
    rw [schemaDeclarations]
    split
    · exact only_bind (only_note (isAboutTypes_typeWarning _ _)) fun _ => ih _
    · exact only_bind (aboutTypes_schemaDeclaration t name s) fun _ =>
        only_bind (ih _) fun _ => only_pure _

theorem aboutTypes_dataShape (op : PlannedOperation) : (DataShape.of t op).AboutTypes := by
  unfold DataShape.of
  split
  · exact only_bind (only_note (isAboutTypes_typeInfo _ _)) fun _ => only_pure _
  · split
    · exact only_bind (aboutTypes_typeAt t _ _) fun _ => only_pure _
    · exact only_bind (aboutTypes_typeAt t _ _) fun _ => only_pure _
    · split
      · exact only_bind (aboutTypes_propertyMembers t _ _ _) fun _ => only_pure _
      · exact only_bind (aboutTypes_typeAt t _ _) fun _ => only_pure _

theorem aboutTypes_keepFresh (declared : List String) (ds : List Code.Declaration) :
    (keepFresh location declared ds).AboutTypes := by
  induction ds generalizing declared with
  | nil => exact only_pure _
  | cons d rest ih =>
    rw [keepFresh]
    split
    · exact only_bind (only_note (isAboutTypes_typeWarning _ _)) fun _ => ih _
    · exact only_bind (ih _) fun _ => only_pure _

theorem aboutTypes_operationDeclarations (op : PlannedOperation) (shape : RequestShape)
    (declared : List String) : (operationDeclarations t op shape declared).AboutTypes :=
  only_bind (aboutTypes_dataShape t op) fun _ => aboutTypes_keepFresh _ _ _

theorem aboutTypes_operationsDeclarations (shapes : List (PlannedOperation × RequestShape))
    (declared : List String) : (operationsDeclarations t shapes declared).AboutTypes := by
  induction shapes generalizing declared with
  | nil => exact only_pure _
  | cons shaped rest ih =>
    exact only_bind (aboutTypes_operationDeclarations t _ _ _) fun _ =>
      only_bind (ih _) fun _ => only_pure _

/-! ## Source files -/

theorem aboutTypes_shapesOf (ops : List PlannedOperation) : (shapesOf t ops).AboutTypes :=
  only_each (fun op => only_bind (RequestShape.aboutTypes_of t op) fun _ => only_pure _) ops

theorem aboutTypes_shapedDeclarations (ops : List PlannedOperation) (declared : List String) :
    (shapedDeclarations t ops declared).AboutTypes := by
  induction ops generalizing declared with
  | nil => exact only_pure _
  | cons op rest ih =>
    exact only_bind (RequestShape.aboutTypes_of t op) fun _ =>
      only_bind (aboutTypes_operationDeclarations t op _ _) fun _ =>
        only_bind (ih _) fun _ => only_pure _

theorem aboutTypes_ownDeclarations (shapes : List (PlannedOperation × RequestShape)) :
    (ownDeclarations t shapes).AboutTypes :=
  only_bind (aboutTypes_schemaDeclarations t _ _) fun _ =>
    only_bind (aboutTypes_operationsDeclarations t _ _) fun _ => only_pure _

namespace Client

variable (c : Config) (d : Document)

theorem aboutTypes_typesUnit (plans : List ModulePlan) : (typesUnit c d plans).AboutTypes := by
  refine only_bind ?_ fun _ => only_pure _
  exact only_bind (aboutTypes_schemaDeclarations _ _ _) fun _ =>
    only_bind (aboutTypes_shapedDeclarations _ _ _) fun _ => only_pure _

theorem aboutTypes_moduleUnit (m : ModulePlan) : (moduleUnit c d m).AboutTypes := by
  refine only_bind ?_ fun _ => only_pure _
  refine only_bind (aboutTypes_shapesOf _ _) fun _ => ?_
  split
  · exact only_pure _
  · exact only_pure _
  · exact only_bind (aboutTypes_ownDeclarations _ _) fun _ => only_pure _

/-- The source files of planned modules come with nothing but notes about types. -/
theorem aboutTypes_units (plans : List ModulePlan) : (units c d plans).AboutTypes := by
  have hmodules : (each (moduleUnit c d) plans).AboutTypes :=
    only_each (aboutTypes_moduleUnit c d) plans
  unfold units
  by_cases hfile : hasTypesFile c = true
  · simp only [if_pos hfile]
    refine only_bind (only_bind (aboutTypes_typesUnit c d plans) fun _ => only_pure _) fun _ => ?_
    exact only_bind hmodules fun _ => only_pure _
  · simp only [if_neg hfile]
    refine only_bind (only_pure _) fun _ => ?_
    exact only_bind hmodules fun _ => only_pure _

end Client

end OpenApiClient
