import Mathlib.Data.List.Nodup
import OpenApiClient.Proofs.Json.Readings
import OpenApiClient.Schema.Wire

/-!
# Normal schemas

The shape of a schema is decided once, when all its keywords are known. What is decided then holds
of every schema that is read, at every depth (`gives_read`): an enumeration has values and a
combination has branches, an object names no required property twice, and what may be anything has
no type that is understood.

`nodes` lists a schema with all schemas inside it, for statements about every depth.
-/

namespace OpenApiClient

namespace Schema

mutual

def nodes : Schema → List Schema
  | array n items => array n items :: optionNodes items
  | object n ps required extra =>
    object n ps required extra :: (propertyNodes ps ++ optionNodes extra)
  | combination n kind branches => combination n kind branches :: branchNodes branches
  | s => [s]
termination_by structural s => s

def optionNodes : Option Schema → List Schema
  | none => []
  | some s => nodes s
termination_by structural s => s

def propertyNodes : List (String × Schema) → List Schema
  | [] => []
  | (_, s) :: rest => nodes s ++ propertyNodes rest
termination_by structural ps => ps

def branchNodes : List Schema → List Schema
  | [] => []
  | s :: rest => nodes s ++ branchNodes rest
termination_by structural bs => bs

end

/-! ## Normal schemas -/

def isUnknownType (type : String) : Prop :=
  type ≠ "array" ∧ type ≠ "object" ∧ Primitive.ofName? type = none

mutual

/-- Whether a schema is as schemas are that were read. -/
def IsNormal : Schema → Prop
  | enumeration _ _ values => values ≠ []
  | array _ items => OptionNormal items
  | object _ ps required extra => PropertiesNormal ps ∧ required.Nodup ∧ OptionNormal extra
  | combination _ _ branches => branches ≠ [] ∧ BranchesNormal branches
  | anything _ type => ∀ t ∈ type, isUnknownType t
  | _ => True
termination_by structural s => s

def OptionNormal : Option Schema → Prop
  | none => True
  | some s => IsNormal s
termination_by structural s => s

def PropertiesNormal : List (String × Schema) → Prop
  | [] => True
  | (_, s) :: rest => IsNormal s ∧ PropertiesNormal rest
termination_by structural ps => ps

def BranchesNormal : List Schema → Prop
  | [] => True
  | s :: rest => IsNormal s ∧ BranchesNormal rest
termination_by structural bs => bs

end

theorem optionNormal_iff {o : Option Schema} : OptionNormal o ↔ ∀ s ∈ o, s.IsNormal := by
  cases o <;> simp [OptionNormal]

theorem propertiesNormal_iff {ps : List (String × Schema)} :
    PropertiesNormal ps ↔ ∀ p ∈ ps, p.2.IsNormal := by
  induction ps with
  | nil => simp [PropertiesNormal]
  | cons p rest ih => rw [PropertiesNormal, ih, List.forall_mem_cons]

theorem branchesNormal_iff {bs : List Schema} : BranchesNormal bs ↔ ∀ s ∈ bs, s.IsNormal := by
  induction bs with
  | nil => simp [BranchesNormal]
  | cons s rest ih => rw [BranchesNormal, ih, List.forall_mem_cons]

mutual

/-- What is inside a normal schema is normal. -/
theorem IsNormal.of_mem_nodes : ∀ {s : Schema}, s.IsNormal → ∀ t ∈ s.nodes, t.IsNormal
  | reference .., h => List.forall_mem_singleton.mpr h
  | primitive .., h => List.forall_mem_singleton.mpr h
  | enumeration .., h => List.forall_mem_singleton.mpr h
  | anything .., h => List.forall_mem_singleton.mpr h
  | array .., h => List.forall_mem_cons.mpr ⟨h, OptionNormal.of_mem_nodes h⟩
  | object .., h => List.forall_mem_cons.mpr ⟨h, List.forall_mem_append.mpr
      ⟨PropertiesNormal.of_mem_nodes h.1, OptionNormal.of_mem_nodes h.2.2⟩⟩
  | combination .., h => List.forall_mem_cons.mpr ⟨h, BranchesNormal.of_mem_nodes h.2⟩

theorem OptionNormal.of_mem_nodes : ∀ {o : Option Schema}, OptionNormal o →
    ∀ t ∈ optionNodes o, t.IsNormal
  | none, _ => nofun
  | some _, h => IsNormal.of_mem_nodes h

theorem PropertiesNormal.of_mem_nodes : ∀ {ps : List (String × Schema)}, PropertiesNormal ps →
    ∀ t ∈ propertyNodes ps, t.IsNormal
  | [], _ => nofun
  | (_, _) :: _, h => List.forall_mem_append.mpr
      ⟨IsNormal.of_mem_nodes h.1, PropertiesNormal.of_mem_nodes h.2⟩

theorem BranchesNormal.of_mem_nodes : ∀ {bs : List Schema}, BranchesNormal bs →
    ∀ t ∈ branchNodes bs, t.IsNormal
  | [], _ => nofun
  | _ :: _, h => List.forall_mem_append.mpr
      ⟨IsNormal.of_mem_nodes h.1, BranchesNormal.of_mem_nodes h.2⟩

end

/-- Whether a schema has what its shape calls for: an enumeration has values, a combination has
branches, and an object names no required property twice. -/
def IsComplete : Schema → Prop
  | enumeration _ _ values => values ≠ []
  | object _ _ required _ => required.Nodup
  | combination _ _ branches => branches ≠ []
  | _ => True

theorem IsNormal.isComplete : ∀ {s : Schema}, s.IsNormal → s.IsComplete
  | enumeration .., h => h
  | object .., h => h.2.1
  | combination .., h => h.1
  | reference .., _ | primitive .., _ | array .., _ | anything .., _ => trivial

/-! ## From keywords to a schema -/

theorem nodup_distinct : ∀ xs : List String, (distinct xs).Nodup
  | [] => List.nodup_nil
  | y :: rest => by
    rw [distinct, List.nodup_cons]
    exact ⟨by simp, (nodup_distinct rest).filter _⟩

theorem ne_nil_of_nonEmpty {α : Type} {o : Option (List α)} {as : List α}
    (h : nonEmpty o = some as) : o = some as ∧ as ≠ [] := by
  obtain ⟨ho, has⟩ := Option.filter_eq_some_iff.mp h
  exact ⟨ho, by simpa using has⟩

namespace Keywords

structure IsNormal (k : Keywords) : Prop where
  items : ∀ s ∈ k.items, s.IsNormal
  properties : ∀ ps ∈ k.properties, ∀ p ∈ ps, p.2.IsNormal
  additional : ∀ s, k.additional = some (.schema s) → s.IsNormal
  allOf : ∀ bs ∈ k.allOf, ∀ s ∈ bs, s.IsNormal
  anyOf : ∀ bs ∈ k.anyOf, ∀ s ∈ bs, s.IsNormal
  oneOf : ∀ bs ∈ k.oneOf, ∀ s ∈ bs, s.IsNormal

theorem isNormal_empty : IsNormal {} := by
  constructor <;> nofun

variable {k : Keywords}

theorem exists_of_combination {kind : Combinator} {branches : List Schema}
    (h : k.combination = some (kind, branches)) : branches ≠ [] ∧
      (k.allOf = some branches ∨ k.anyOf = some branches ∨ k.oneOf = some branches) := by
  rw [combination, Option.or_eq_some_iff, Option.or_eq_some_iff] at h
  rcases h with h | ⟨-, h | ⟨-, h⟩⟩ <;> obtain ⟨bs, hbs, ⟨⟩⟩ := Option.map_eq_some_iff.mp h <;>
    obtain ⟨hk, hne⟩ := ne_nil_of_nonEmpty hbs
  · exact ⟨hne, .inl hk⟩
  · exact ⟨hne, .inr (.inl hk)⟩
  · exact ⟨hne, .inr (.inr hk)⟩

theorem IsNormal.combination (hk : k.IsNormal) {kind : Combinator} {branches : List Schema}
    (h : k.combination = some (kind, branches)) (notes : Notes) :
    (Schema.combination notes kind branches).IsNormal := by
  obtain ⟨hne, hbranches⟩ := exists_of_combination h
  refine ⟨hne, branchesNormal_iff.mpr ?_⟩
  rcases hbranches with hk' | hk' | hk'
  · exact hk.allOf branches hk'
  · exact hk.anyOf branches hk'
  · exact hk.oneOf branches hk'

theorem IsNormal.toObject (hk : k.IsNormal) (notes : Notes) : (k.toObject notes).IsNormal := by
  refine ⟨propertiesNormal_iff.mpr ?_, nodup_distinct _, optionNormal_iff.mpr ?_⟩
  · cases hps : k.properties with
    | none => exact nofun
    | some ps => exact hk.properties ps hps
  · cases hextra : k.additional with
    | none => exact nofun
    | some extra =>
      cases extra with
      | flag => exact nofun
      | schema s =>
        rintro t ⟨⟩
        exact hk.additional s hextra

theorem IsNormal.array (hk : k.IsNormal) (notes : Notes) :
    (Schema.array notes k.items).IsNormal :=
  optionNormal_iff.mpr hk.items

theorem IsNormal.ofType (hk : k.IsNormal) (notes : Notes) (type : String) :
    (k.ofType notes type).IsNormal := by
  unfold Keywords.ofType
  split_ifs with harray hobject
  · exact hk.array notes
  · exact hk.toObject notes
  · cases hname : Primitive.ofName? type with
    | some p => trivial
    | none =>
      rintro t ⟨⟩
      exact ⟨harray, hobject, hname⟩

theorem IsNormal.toSchema (hk : k.IsNormal) : k.toSchema.IsNormal := by
  unfold Keywords.toSchema
  dsimp only
  split
  case h_1 => trivial
  split
  case h_1 kind branches hbranches => exact hk.combination hbranches _
  split
  case h_1 values hvalues => exact (ne_nil_of_nonEmpty hvalues).2
  split
  case h_1 type htype => exact hk.ofType _ type
  split_ifs
  · exact hk.toObject _
  · exact hk.array _
  · exact nofun

end Keywords

/-! ## Reading -/

theorem gives_unlessNull {α : Type} {P : α → Prop} {read : Unit → Json.Typed α} {v : Json}
    (h : Gives P (read ())) : Gives (fun o => ∀ a ∈ o, P a) (unlessNull v read) := by
  have hsome : Gives (fun o => ∀ a ∈ o, P a) ((read ()).map some) :=
    Gives.map (h.mono fun a ha b hb => Option.some.inj hb ▸ ha)
  cases v with
  | null => exact Gives.ok nofun
  | _ => exact hsome

theorem gives_asAdditional {read : Unit → Json.Typed Schema} {v : Json}
    (h : Gives IsNormal (read ())) :
    Gives (fun extra => ∀ s : Schema, extra = .schema s → s.IsNormal) (asAdditional read v) := by
  unfold asAdditional
  split
  · exact Gives.ok nofun
  · split
    next s hs =>
      refine Gives.ok ?_
      rintro t ⟨⟩
      exact h s hs
    next => exact Gives.error

/-- Entering a keyword keeps the schemas among the keywords normal. -/
theorem gives_enterKeyword {v : Json} {one : Unit → Json.Typed Schema}
    {list : Unit → Json.Typed (List Schema)} {named : Unit → Json.Typed (List (String × Schema))}
    {k : Keywords} (hone : Gives IsNormal (one ()))
    (hlist : Gives (fun bs => ∀ s ∈ bs, s.IsNormal) (list ()))
    (hnamed : Gives (fun ps => ∀ p ∈ ps, p.2.IsNormal) (named ())) (hk : k.IsNormal)
    (key : String) : Gives Keywords.IsNormal (enterKeyword key v one list named k) := by
  unfold enterKeyword
  split
  case h_7 =>
    exact (gives_unlessNull hone).bind fun o ho => Gives.ok { hk with items := ho }
  case h_8 =>
    exact (gives_unlessNull hnamed).bind fun o ho => Gives.ok { hk with properties := ho }
  case h_10 =>
    refine (gives_unlessNull (gives_asAdditional hone)).bind fun o ho => ?_
    exact Gives.ok { hk with additional := fun s hs => ho _ hs s rfl }
  case h_11 => exact (gives_unlessNull hlist).bind fun o ho => Gives.ok { hk with allOf := ho }
  case h_12 => exact (gives_unlessNull hlist).bind fun o ho => Gives.ok { hk with anyOf := ho }
  case h_13 => exact (gives_unlessNull hlist).bind fun o ho => Gives.ok { hk with oneOf := ho }
  case h_14 => exact Gives.ok hk
  -- The other keywords hold no schemas.
  all_goals exact Gives.bind_any fun _ => Gives.ok { hk with }

mutual

/-- **Normal schemas.** What is read as a schema is normal. -/
theorem gives_read : ∀ v : Json, Gives IsNormal (read v)
  | .obj entries => (gives_readKeywords entries Keywords.isNormal_empty).bind fun _ hk =>
      Gives.ok hk.toSchema
  | .arr items => (gives_readPositions 0 wireRecord.fields items Keywords.isNormal_empty).bind
      fun _ hk => Gives.bind_any fun _ => Gives.ok hk.toSchema
  | .null | .bool _ | .num _ | .str _ => Gives.error

theorem gives_readKeywords : ∀ (entries : List (String × Json)) {k : Keywords}, k.IsNormal →
    Gives Keywords.IsNormal (readKeywords entries k)
  | [], _, hk => Gives.ok hk
  | (key, v) :: rest, k, hk => by
    refine (Json.gives_within ?_ _).bind fun _ hk => gives_readKeywords rest hk
    exact gives_enterKeyword (gives_read v) (gives_readList v) (gives_readMap v) hk key

theorem gives_readPositions : ∀ (i : Nat) (keys : List String) (items : List Json)
    {k : Keywords}, k.IsNormal → Gives Keywords.IsNormal (readPositions i keys items k)
  | _, [], [], _, hk => Gives.ok hk
  | _, [], _ :: _, _, hk => Gives.ok hk
  | _, _ :: _, [], _, hk => Gives.ok hk
  | i, key :: keys, v :: rest, k, hk => by
    refine (Json.gives_within ?_ _).bind fun _ hk => gives_readPositions (i + 1) keys rest hk
    exact gives_enterKeyword (gives_read v) (gives_readList v) (gives_readMap v) hk key

theorem gives_readList : ∀ v : Json, Gives (fun bs => ∀ s ∈ bs, s.IsNormal) (readList v)
  | .arr items => gives_readBranches 0 items
  | .null | .bool _ | .num _ | .str _ | .obj _ => Gives.error

theorem gives_readBranches : ∀ (i : Nat) (items : List Json),
    Gives (fun bs => ∀ s ∈ bs, s.IsNormal) (readBranches i items)
  | _, [] => Gives.ok nofun
  | i, v :: rest => (Json.gives_within (gives_read v) _).bind fun _ hs =>
      (gives_readBranches (i + 1) rest).bind fun _ hbs =>
        Gives.ok (List.forall_mem_cons.mpr ⟨hs, hbs⟩)

theorem gives_readMap : ∀ v : Json, Gives (fun ps => ∀ p ∈ ps, p.2.IsNormal) (readMap v)
  | .obj entries => gives_readProperties entries
  | .null | .bool _ | .num _ | .str _ | .arr _ => Gives.error

theorem gives_readProperties : ∀ entries : List (String × Json),
    Gives (fun ps => ∀ p ∈ ps, p.2.IsNormal) (readProperties entries)
  | [] => Gives.ok nofun
  | (_, v) :: rest => (Json.gives_within (gives_read v) _).bind fun _ hs =>
      (gives_readProperties rest).bind fun _ hps =>
        Gives.ok (List.forall_mem_cons.mpr ⟨hs, hps⟩)

end

end Schema

end OpenApiClient
