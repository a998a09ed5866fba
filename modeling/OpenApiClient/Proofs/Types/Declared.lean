import Mathlib.Data.List.Nodup
import OpenApiClient.Client.Declarations
import OpenApiClient.Proofs.Noted

/-!
# Names are declared once

The declarations of a file are collected with the names that are declared before them, and what
would declare one of these again is left out. So no name is declared twice, every name that was
asked for is declared in the end (`DeclaredOnce`), and among the named schemas that give one name
the first one is declared (`exists_entry_of_mem_schemaDeclarations`); the others are reported
(`declaredNote_mem_schemaDeclarations`).
-/

namespace OpenApiClient

open Code (Declaration)

/-- What collected declarations have in common: their names differ from each other and from those
that were declared before, and the names that are declared after them are both together. -/
structure DeclaredOnce (before : List String) (ds : List Declaration)
    (after : List String) : Prop where
  nodup : (ds.map Declaration.name).Nodup
  fresh : ∀ d ∈ ds, d.name ∉ before
  mem_after : ∀ name, name ∈ after ↔ name ∈ before ∨ ∃ d ∈ ds, d.name = name

namespace DeclaredOnce

variable {before mid after : List String} {d : Declaration} {ds es : List Declaration}

theorem nil : DeclaredOnce before [] before where
  nodup := List.nodup_nil
  fresh := by simp
  mem_after := by simp

theorem cons (hd : d.name ∉ before) (h : DeclaredOnce (d.name :: before) ds after) :
    DeclaredOnce before (d :: ds) after where
  nodup := by
    rw [List.map_cons, List.nodup_cons, List.mem_map]
    refine ⟨?_, h.nodup⟩
    rintro ⟨e, he, hname⟩
    exact h.fresh e he (hname ▸ List.mem_cons_self)
  fresh := by
    intro e he
    rcases List.mem_cons.mp he with rfl | he
    · exact hd
    · exact fun hmem => h.fresh e he (List.mem_cons_of_mem _ hmem)
  mem_after := by
    intro name
    rw [h.mem_after, List.mem_cons, List.exists_mem_cons_iff, eq_comm (a := name), or_assoc,
      or_left_comm]

theorem append (h : DeclaredOnce before ds mid) (h' : DeclaredOnce mid es after) :
    DeclaredOnce before (ds ++ es) after where
  nodup := by
    rw [List.map_append, List.nodup_append]
    refine ⟨h.nodup, h'.nodup, ?_⟩
    rintro name hname name' hname' rfl
    obtain ⟨d, hd, hd'⟩ := List.mem_map.mp hname
    obtain ⟨e, he, he'⟩ := List.mem_map.mp hname'
    exact h'.fresh e he ((h.mem_after _).mpr (Or.inr ⟨d, hd, hd'.trans he'.symm⟩))
  fresh := by
    intro d hd
    rcases List.mem_append.mp hd with hd | hd
    · exact h.fresh d hd
    · exact fun hmem => h'.fresh d hd ((h.mem_after _).mpr (Or.inl hmem))
  mem_after := by
    intro name
    rw [h'.mem_after, h.mem_after, or_assoc]
    simp only [List.mem_append, or_and_right, exists_or]

end DeclaredOnce

/-! ## Named schemas -/

section Schemas

variable {c : TypeContext} {declared : List String} {name : String} {s : Schema}
  {rest entries : List (String × Schema)}

theorem value_schemaDeclarations_of_mem (h : c.typeName name ∈ declared) :
    (schemaDeclarations c declared ((name, s) :: rest)).value =
      (schemaDeclarations c declared rest).value := by
  rw [schemaDeclarations, if_pos (List.contains_iff_mem.mpr h)]
  rfl

theorem notes_schemaDeclarations_of_mem (h : c.typeName name ∈ declared) :
    (schemaDeclarations c declared ((name, s) :: rest)).notes =
      declaredNote (schemaLocation name) (c.typeName name) ::
        (schemaDeclarations c declared rest).notes := by
  rw [schemaDeclarations, if_pos (List.contains_iff_mem.mpr h)]
  rfl

theorem value_schemaDeclarations_of_not_mem (h : c.typeName name ∉ declared) :
    (schemaDeclarations c declared ((name, s) :: rest)).value =
      ((schemaDeclaration c name s).value ::
          (schemaDeclarations c (c.typeName name :: declared) rest).value.1,
        (schemaDeclarations c (c.typeName name :: declared) rest).value.2) := by
  rw [schemaDeclarations, if_neg (mt List.contains_iff_mem.mp h)]
  rfl

theorem notes_schemaDeclarations_of_not_mem (h : c.typeName name ∉ declared) :
    (schemaDeclarations c declared ((name, s) :: rest)).notes =
      (schemaDeclaration c name s).notes ++
        (schemaDeclarations c (c.typeName name :: declared) rest).notes := by
  rw [schemaDeclarations, if_neg (mt List.contains_iff_mem.mp h)]
  simp [Noted.notes_bind]

@[simp] theorem name_schemaDeclaration (c : TypeContext) (name : String) (s : Schema) :
    (schemaDeclaration c name s).value.name = c.typeName name := by
  unfold schemaDeclaration
  rcases s.properties? with _ | ⟨properties, required⟩ <;> rfl

theorem declaredOnce_schemaDeclarations (c : TypeContext) :
    ∀ (entries : List (String × Schema)) (declared : List String),
      DeclaredOnce declared (schemaDeclarations c declared entries).value.1
        (schemaDeclarations c declared entries).value.2
  | [], _ => .nil
  | (name, s) :: rest, declared => by
    by_cases h : c.typeName name ∈ declared
    · rw [value_schemaDeclarations_of_mem h]
      exact declaredOnce_schemaDeclarations c rest declared
    · rw [value_schemaDeclarations_of_not_mem h]
      refine .cons (by rwa [name_schemaDeclaration]) ?_
      rw [name_schemaDeclaration]
      exact declaredOnce_schemaDeclarations c rest _

/-- The name of every schema is declared in the end. -/
theorem typeName_mem_schemaDeclarations :
    ∀ {entries : List (String × Schema)} {declared : List String}, (name, s) ∈ entries →
      c.typeName name ∈ (schemaDeclarations c declared entries).value.2
  | (first, _) :: rest, declared, hmem => by
    by_cases h : c.typeName first ∈ declared
    · rw [value_schemaDeclarations_of_mem h]
      rcases List.mem_cons.mp hmem with heq | hmem
      · cases heq
        exact ((declaredOnce_schemaDeclarations c rest declared).mem_after _).mpr (Or.inl h)
      · exact typeName_mem_schemaDeclarations hmem
    · rw [value_schemaDeclarations_of_not_mem h]
      rcases List.mem_cons.mp hmem with heq | hmem
      · cases heq
        exact ((declaredOnce_schemaDeclarations c rest _).mem_after _).mpr
          (Or.inl List.mem_cons_self)
      · exact typeName_mem_schemaDeclarations hmem

/-- A declaration is that of the first schema whose name gives its name. -/
theorem exists_entry_of_mem_schemaDeclarations {d : Declaration} :
    ∀ {entries : List (String × Schema)} {declared : List String},
      d ∈ (schemaDeclarations c declared entries).value.1 →
        ∃ e, entries.find? (fun e => c.typeName e.1 == d.name) = some e ∧
          d = (schemaDeclaration c e.1 e.2).value
  | [], _, hd => by simp [schemaDeclarations] at hd
  | (name, s) :: rest, declared, hd => by
    have hfresh := (declaredOnce_schemaDeclarations c ((name, s) :: rest) declared).fresh d hd
    by_cases h : c.typeName name ∈ declared
    · -- this schema is left out, and `d` does not have its name, which was declared before
      rw [value_schemaDeclarations_of_mem h] at hd
      have hne : c.typeName name ≠ d.name := fun heq => hfresh (heq ▸ h)
      rw [List.find?_cons_of_neg (by simpa using hne)]
      exact exists_entry_of_mem_schemaDeclarations hd
    · rw [value_schemaDeclarations_of_not_mem h] at hd
      rcases List.mem_cons.mp hd with rfl | hd
      · exact ⟨(name, s), List.find?_cons_of_pos (by simp), rfl⟩
      · have hfresh := (declaredOnce_schemaDeclarations c rest _).fresh d hd
        have hne : c.typeName name ≠ d.name := fun heq => hfresh (heq ▸ List.mem_cons_self)
        rw [List.find?_cons_of_neg (by simpa using hne)]
        exact exists_entry_of_mem_schemaDeclarations hd

/-- A schema whose name was declared before, or is given by an earlier schema, is reported. -/
theorem declaredNote_mem_schemaDeclarations {e : String × Schema} :
    ∀ {entries : List (String × Schema)} {declared : List String}, e ∈ entries →
      (c.typeName e.1 ∈ declared ∨
        entries.find? (fun other => c.typeName other.1 == c.typeName e.1) ≠ some e) →
      declaredNote (schemaLocation e.1) (c.typeName e.1) ∈
        (schemaDeclarations c declared entries).notes
  | (name, s) :: rest, declared, he, hearlier => by
    -- an earlier schema of the same name is either this one, or it is found in the rest as well
    have hrest : e ∈ rest → c.typeName e.1 ∈ c.typeName name :: declared ∨
        rest.find? (fun other => c.typeName other.1 == c.typeName e.1) ≠ some e := by
      intro _
      rcases hearlier with hmem | hfind
      · exact Or.inl (List.mem_cons_of_mem _ hmem)
      · by_cases hname : c.typeName name = c.typeName e.1
        · exact Or.inl (hname ▸ List.mem_cons_self)
        · rw [List.find?_cons_of_neg (by simpa using hname)] at hfind
          exact Or.inr hfind
    by_cases h : c.typeName name ∈ declared
    · rw [notes_schemaDeclarations_of_mem h]
      rcases List.mem_cons.mp he with rfl | he
      · exact List.mem_cons_self
      · refine List.mem_cons_of_mem _ (declaredNote_mem_schemaDeclarations he ?_)
        rcases hrest he with hmem | hfind
        · rcases List.mem_cons.mp hmem with heq | hmem
          · exact Or.inl (heq ▸ h)
          · exact Or.inl hmem
        · exact Or.inr hfind
    · rw [notes_schemaDeclarations_of_not_mem h]
      refine List.mem_append_right _ ?_
      rcases List.mem_cons.mp he with rfl | he
      · rcases hearlier with hmem | hfind
        · exact absurd hmem h
        · exact absurd (List.find?_cons_of_pos (by simp)) hfind
      · exact declaredNote_mem_schemaDeclarations he (hrest he)

end Schemas

/-! ## Operations -/

section Operations

variable {location : String} {declared : List String} {d : Declaration} {rest : List Declaration}

theorem value_keepFresh_of_mem (h : d.name ∈ declared) :
    (keepFresh location declared (d :: rest)).value = (keepFresh location declared rest).value := by
  rw [keepFresh, if_pos (List.contains_iff_mem.mpr h)]
  rfl

theorem value_keepFresh_of_not_mem (h : d.name ∉ declared) :
    (keepFresh location declared (d :: rest)).value =
      (d :: (keepFresh location (d.name :: declared) rest).value.1,
        (keepFresh location (d.name :: declared) rest).value.2) := by
  rw [keepFresh, if_neg (mt List.contains_iff_mem.mp h)]
  rfl

theorem declaredOnce_keepFresh (location : String) :
    ∀ (ds : List Declaration) (declared : List String),
      DeclaredOnce declared (keepFresh location declared ds).value.1
        (keepFresh location declared ds).value.2
  | [], _ => .nil
  | d :: rest, declared => by
    by_cases h : d.name ∈ declared
    · rw [value_keepFresh_of_mem h]
      exact declaredOnce_keepFresh location rest declared
    · rw [value_keepFresh_of_not_mem h]
      exact .cons h (declaredOnce_keepFresh location rest _)

theorem name_mem_keepFresh : ∀ {ds : List Declaration} {declared : List String}, d ∈ ds →
    d.name ∈ (keepFresh location declared ds).value.2
  | e :: rest, declared, hd => by
    by_cases h : e.name ∈ declared
    · rw [value_keepFresh_of_mem h]
      rcases List.mem_cons.mp hd with rfl | hd
      · exact ((declaredOnce_keepFresh location rest declared).mem_after _).mpr (Or.inl h)
      · exact name_mem_keepFresh hd
    · rw [value_keepFresh_of_not_mem h]
      rcases List.mem_cons.mp hd with rfl | hd
      · exact ((declaredOnce_keepFresh location rest _).mem_after _).mpr
          (Or.inl List.mem_cons_self)
      · exact name_mem_keepFresh hd

theorem mem_of_mem_keepFresh : ∀ {ds : List Declaration} {declared : List String},
    d ∈ (keepFresh location declared ds).value.1 → d ∈ ds
  | [], _, hd => hd
  | e :: rest, declared, hd => by
    by_cases h : e.name ∈ declared
    · rw [value_keepFresh_of_mem h] at hd
      exact List.mem_cons_of_mem _ (mem_of_mem_keepFresh hd)
    · rw [value_keepFresh_of_not_mem h] at hd
      rcases List.mem_cons.mp hd with rfl | hd
      · exact List.mem_cons_self
      · exact List.mem_cons_of_mem _ (mem_of_mem_keepFresh hd)

variable {c : TypeContext}

/-- The types that an operation asks for, be they declared before or not. -/
def wantedDeclarations (c : TypeContext) (op : PlannedOperation) (shape : RequestShape) :
    List Declaration :=
  requestDeclarations c op shape ++ dataDeclarations op (DataShape.of c op).value ++
    [responseDeclaration c op (DataShape.of c op).value]

theorem value_operationDeclarations (c : TypeContext) (op : PlannedOperation)
    (shape : RequestShape) (declared : List String) :
    (operationDeclarations c op shape declared).value =
      (keepFresh op.location declared (wantedDeclarations c op shape)).value :=
  rfl

theorem value_operationsDeclarations_cons (c : TypeContext) (op : PlannedOperation)
    (shape : RequestShape) (rest : List (PlannedOperation × RequestShape))
    (declared : List String) :
    (operationsDeclarations c ((op, shape) :: rest) declared).value =
      ((operationDeclarations c op shape declared).value.1 ++
          (operationsDeclarations c rest
            (operationDeclarations c op shape declared).value.2).value.1,
        (operationsDeclarations c rest
          (operationDeclarations c op shape declared).value.2).value.2) :=
  rfl

theorem declaredOnce_operationsDeclarations (c : TypeContext) :
    ∀ (shapes : List (PlannedOperation × RequestShape)) (declared : List String),
      DeclaredOnce declared (operationsDeclarations c shapes declared).value.1
        (operationsDeclarations c shapes declared).value.2
  | [], _ => .nil
  | (op, shape) :: rest, declared => by
    rw [value_operationsDeclarations_cons, value_operationDeclarations]
    exact (declaredOnce_keepFresh op.location _ declared).append
      (declaredOnce_operationsDeclarations c rest _)

/-- Every type that an operation asks for is declared in the end. -/
theorem name_mem_operationsDeclarations {op : PlannedOperation} {shape : RequestShape}
    (hd : d ∈ wantedDeclarations c op shape) :
    ∀ {shapes : List (PlannedOperation × RequestShape)} {declared : List String},
      (op, shape) ∈ shapes → d.name ∈ (operationsDeclarations c shapes declared).value.2
  | (op', shape') :: rest, declared, hop => by
    rw [value_operationsDeclarations_cons, value_operationDeclarations]
    rcases List.mem_cons.mp hop with heq | hop
    · cases heq
      exact ((declaredOnce_operationsDeclarations c rest _).mem_after _).mpr
        (Or.inl (name_mem_keepFresh hd))
    · exact name_mem_operationsDeclarations hd hop

theorem exists_of_mem_operationsDeclarations :
    ∀ {shapes : List (PlannedOperation × RequestShape)} {declared : List String},
      d ∈ (operationsDeclarations c shapes declared).value.1 →
        ∃ p ∈ shapes, d ∈ wantedDeclarations c p.1 p.2
  | (op, shape) :: rest, declared, hd => by
    rw [value_operationsDeclarations_cons, value_operationDeclarations] at hd
    rcases List.mem_append.mp hd with hd | hd
    · exact ⟨(op, shape), List.mem_cons_self, mem_of_mem_keepFresh hd⟩
    · obtain ⟨p, hp, hwanted⟩ := exists_of_mem_operationsDeclarations hd
      exact ⟨p, List.mem_cons_of_mem _ hp, hwanted⟩

end Operations

end OpenApiClient
