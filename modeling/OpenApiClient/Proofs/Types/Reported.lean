import Mathlib.Data.List.Basic
import OpenApiClient.Client.SchemaType

/-!
# What is reported about a type

The walk from a schema to its type meets some of the schemas inside of it (`Schema.Meets`): items,
properties, and the schema of further entries where no properties are declared. What is reported are
the references that lead nowhere and the combinations among them (`Schema.Reported`), and these are
the diagnostics of the type (`mem_typeNotes_iff`).
-/

namespace OpenApiClient.Schema

/-- Whether the walk from a schema to its type comes to another one. -/
inductive Meets : Schema → Schema → Prop where
  | here (s : Schema) : Meets s s
  | items {notes : Notes} {items t : Schema} : Meets items t → Meets (array notes (some items)) t
  | further {notes : Notes} {required : List String} {extra t : Schema} :
    Meets extra t → Meets (object notes [] required (some extra)) t
  | property {notes : Notes} {properties : List (String × Schema)} {required : List String}
      {additional : Option Schema} {p : String × Schema} {t : Schema} :
    p ∈ properties → Meets p.2 t → Meets (object notes properties required additional) t

/-- What is reported about the type of a schema that is used at a location. -/
inductive Reported (c : TypeContext) (location : String) (s : Schema) : Diagnostic → Prop where
  | dangling {notes : Notes} {pointer : String} :
    s.Meets (reference notes pointer) → c.document.schema? (Pointer.name pointer) = none →
      Reported c location s (danglingNote location pointer)
  | combination {notes : Notes} {kind : Combinator} {branches : List Schema} :
    s.Meets (.combination notes kind branches) →
      Reported c location s (combinationNote location kind)

theorem Meets.trans {s t u : Schema} (hst : s.Meets t) (htu : t.Meets u) : s.Meets u := by
  induction hst with
  | here => exact htu
  | items _ ih => exact .items (ih htu)
  | further _ ih => exact .further (ih htu)
  | property hp _ ih => exact .property hp (ih htu)

variable {c : TypeContext} {location : String}

/-- What is reported about a schema that is met is reported about the whole. -/
theorem Reported.of_meets {s t : Schema} {d : Diagnostic} (hst : s.Meets t)
    (h : t.Reported c location d) : s.Reported c location d := by
  cases h with
  | dangling hmeets hnone => exact .dangling (hst.trans hmeets) hnone
  | combination hmeets => exact .combination (hst.trans hmeets)

theorem typeNotes_subset_memberNotes {ps : List (String × Schema)} {p : String × Schema}
    (h : p ∈ ps) : p.2.typeNotes c location ⊆ memberNotes c location ps := by
  induction ps with
  | nil => exact absurd h List.not_mem_nil
  | cons q ps ih =>
    rw [memberNotes]
    rcases List.mem_cons.mp h with rfl | hmem
    · exact List.subset_append_left _ _
    · exact List.subset_append_of_subset_right _ (ih hmem)

theorem typeNotes_object {notes : Notes} {p : String × Schema} {ps : List (String × Schema)}
    {required : List String} {additional : Option Schema} :
    (object notes (p :: ps) required additional).typeNotes c location =
      memberNotes c location (p :: ps) := by
  cases additional with
  | none => rfl
  | some extra => rfl

/-- A schema that is met adds its diagnostics to those of the whole. -/
theorem Meets.typeNotes_subset {s t : Schema} (h : s.Meets t) :
    t.typeNotes c location ⊆ s.typeNotes c location := by
  induction h with
  | here => exact List.Subset.refl _
  | items _ ih => exact ih
  | further _ ih => exact ih
  | @property notes properties required additional p t hp _ ih =>
    cases properties with
    | nil => exact absurd hp List.not_mem_nil
    | cons q qs =>
      rw [typeNotes_object]
      intro d hd
      exact typeNotes_subset_memberNotes hp (ih hd)

theorem mem_typeNotes_of_reported {s : Schema} {d : Diagnostic} (h : s.Reported c location d) :
    d ∈ s.typeNotes c location := by
  cases h with
  | @dangling notes pointer hmeets hnone =>
    apply hmeets.typeNotes_subset
    have hname : c.referenceName? pointer = none := by
      rw [TypeContext.referenceName?, hnone]
      rfl
    rw [typeNotes, hname]
    exact List.mem_singleton.mpr rfl
  | combination hmeets =>
    apply hmeets.typeNotes_subset
    exact List.mem_singleton.mpr rfl

mutual

theorem reported_of_mem_typeNotes {d : Diagnostic} :
    ∀ s : Schema, d ∈ s.typeNotes c location → s.Reported c location d
  | reference _ pointer, h => by
    rw [typeNotes] at h
    split_ifs at h with hname
    · exact absurd h List.not_mem_nil
    · rw [List.mem_singleton.mp h]
      refine .dangling (.here _) ?_
      rw [TypeContext.referenceName?, Option.isSome_map, Bool.not_eq_true,
        Option.isSome_eq_false_iff, Option.isNone_iff_eq_none] at hname
      exact hname
  | primitive _ _, h => absurd h List.not_mem_nil
  | enumeration _ _ _, h => absurd h List.not_mem_nil
  | array _ none, h => absurd h List.not_mem_nil
  | array _ (some items), h =>
    .of_meets (.items (.here items)) (reported_of_mem_typeNotes items h)
  | object _ [] _ none, h => absurd h List.not_mem_nil
  | object _ [] _ (some extra), h =>
    .of_meets (.further (.here extra)) (reported_of_mem_typeNotes extra h)
  | object notes (p :: ps) required additional, h => by
    rw [typeNotes_object] at h
    obtain ⟨q, hq, hd⟩ := exists_reported_of_mem_memberNotes (p :: ps) h
    exact .of_meets (.property hq (.here q.2)) hd
  | combination _ kind _, h => by
    rw [typeNotes, List.mem_singleton] at h
    rw [h]
    exact .combination (.here _)
  | anything _ _, h => absurd h List.not_mem_nil
termination_by structural s => s

theorem exists_reported_of_mem_memberNotes {d : Diagnostic} :
    ∀ ps : List (String × Schema), d ∈ memberNotes c location ps →
      ∃ p ∈ ps, p.2.Reported c location d
  | [], h => absurd h List.not_mem_nil
  | (name, s) :: rest, h => by
    rw [memberNotes] at h
    rcases List.mem_append.mp h with hown | hrest
    · exact ⟨(name, s), List.mem_cons_self, reported_of_mem_typeNotes s hown⟩
    · obtain ⟨p, hp, hd⟩ := exists_reported_of_mem_memberNotes rest hrest
      exact ⟨p, List.mem_cons_of_mem _ hp, hd⟩
termination_by structural ps => ps

end

/-- The diagnostics of a type are the reports about the schemas that are met. -/
theorem mem_typeNotes_iff {s : Schema} {d : Diagnostic} :
    d ∈ s.typeNotes c location ↔ s.Reported c location d :=
  ⟨reported_of_mem_typeNotes s, mem_typeNotes_of_reported⟩

end OpenApiClient.Schema
