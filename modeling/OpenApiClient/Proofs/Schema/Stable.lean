import OpenApiClient.Proofs.Schema.Written

/-!
# Stable schemas

A schema comes back from its raw value as it was exactly if it is stable at every depth
(`read_toJson_eq_iff`): an enumeration has values and a combination has branches, an object names no
required property twice, and what may be anything has no type that is understood. If it is not
stable somewhere, then no order of the properties makes up for that, since stability does not depend
on the order (`IsNormal.of_alike`). What is read is stable, so writing and reading it once more
changes nothing.
-/

namespace OpenApiClient.Schema

def knownTypes : List String := ["array", "object", "string", "number", "integer", "boolean"]

/-- Whether a schema, without the schemas inside it, keeps its shape when it is written and read. -/
def IsStable : Schema → Prop
  | enumeration _ _ values => values ≠ []
  | object _ _ required _ => required.Nodup
  | combination _ _ branches => branches ≠ []
  | anything _ type => ∀ t ∈ type, t ∉ knownTypes
  | _ => True

theorem isUnknownType_iff {type : String} : isUnknownType type ↔ type ∉ knownTypes := by
  have hname : Primitive.ofName? type = none ↔
      "string" ≠ type ∧ "number" ≠ type ∧ "integer" ≠ type ∧ "boolean" ≠ type := by
    simp [Primitive.ofName?, Primitive.all, Primitive.name]
  simp only [isUnknownType, hname, knownTypes, List.mem_cons, List.not_mem_nil, or_false, not_or,
    ne_comm (b := type)]

mutual

/-- A schema is normal exactly if it is stable at every depth. -/
theorem isNormal_iff_stable : ∀ s : Schema, s.IsNormal ↔ ∀ t ∈ s.nodes, t.IsStable
  | reference .. | primitive .. | enumeration .. => by
    simp only [IsNormal, nodes, List.forall_mem_singleton, IsStable]
  | anything .. => by
    simp only [IsNormal, nodes, List.forall_mem_singleton, IsStable, isUnknownType_iff]
  | array _ items => by
    rw [IsNormal, nodes, List.forall_mem_cons, optionNormal_iff_stable items]
    exact (and_iff_right trivial).symm
  | object _ ps required extra => by
    rw [IsNormal, nodes, List.forall_mem_cons, List.forall_mem_append,
      propertiesNormal_iff_stable ps, optionNormal_iff_stable extra]
    exact and_left_comm
  | combination _ _ branches => by
    rw [IsNormal, nodes, List.forall_mem_cons, branchesNormal_iff_stable branches]
    exact Iff.rfl

theorem optionNormal_iff_stable : ∀ o : Option Schema,
    OptionNormal o ↔ ∀ t ∈ optionNodes o, t.IsStable
  | none => by simp [OptionNormal, optionNodes]
  | some s => isNormal_iff_stable s

theorem propertiesNormal_iff_stable : ∀ ps : List (String × Schema),
    PropertiesNormal ps ↔ ∀ t ∈ propertyNodes ps, t.IsStable
  | [] => by simp [PropertiesNormal, propertyNodes]
  | (_, s) :: rest => by
    rw [PropertiesNormal, propertyNodes, List.forall_mem_append, isNormal_iff_stable s,
      propertiesNormal_iff_stable rest]

theorem branchesNormal_iff_stable : ∀ bs : List Schema,
    BranchesNormal bs ↔ ∀ t ∈ branchNodes bs, t.IsStable
  | [] => by simp [BranchesNormal, branchNodes]
  | s :: rest => by
    rw [BranchesNormal, branchNodes, List.forall_mem_append, isNormal_iff_stable s,
      branchesNormal_iff_stable rest]

end

/-! ## Alike but for the order -/

mutual

/-- Whether two schemas are the same as far as neither the order of properties counts nor what the
values of enumerations are, but only how many there are. -/
def Alike : Schema → Schema → Prop
  | reference n p, reference m q => n = m ∧ p = q
  | primitive n p, primitive m q => n = m ∧ p = q
  | enumeration n b vs, enumeration m c ws => n = m ∧ b = c ∧ vs.length = ws.length
  | array n i, array m j => n = m ∧ AlikeOption i j
  | object n ps r a, object m qs t b =>
    n = m ∧ ps.length = qs.length ∧ AlikeProperties ps qs ∧ r = t ∧ AlikeOption a b
  | combination n k bs, combination m l cs => n = m ∧ k = l ∧ AlikeBranches bs cs
  | anything n t, anything m u => n = m ∧ t = u
  | _, _ => False
termination_by structural s => s

def AlikeOption : Option Schema → Option Schema → Prop
  | none, none => True
  | some s, some t => Alike s t
  | _, _ => False
termination_by structural s => s

/-- Whether all properties of a list are alike to those of the same names in another one. -/
def AlikeProperties : List (String × Schema) → List (String × Schema) → Prop
  | [], _ => True
  | (name, s) :: ps, qs => (∃ t ∈ Entries.get? name qs, Alike s t) ∧ AlikeProperties ps qs
termination_by structural ps => ps

def AlikeBranches : List Schema → List Schema → Prop
  | [], [] => True
  | s :: bs, t :: cs => Alike s t ∧ AlikeBranches bs cs
  | _, _ => False
termination_by structural bs => bs

end

theorem AlikeBranches.length_eq : ∀ {bs cs : List Schema}, AlikeBranches bs cs →
    bs.length = cs.length
  | [], [], _ => rfl
  | [], _ :: _, h => h.elim
  | _ :: _, [], h => h.elim
  | _ :: _, _ :: _, h => congrArg (· + 1) (length_eq h.2)

mutual

/-- What is alike to a normal schema is normal. -/
theorem IsNormal.of_alike : ∀ {s t : Schema}, Alike s t → t.IsNormal → s.IsNormal
  | reference .., _, _, _ => trivial
  | primitive .., _, _, _ => trivial
  | enumeration n b vs, t, h, ht => by
    cases t <;> try exact h.elim
    case enumeration m c ws =>
      intro hnil
      obtain ⟨-, -, hlength⟩ := h
      exact ht (List.length_eq_zero_iff.mp (by rw [← hlength, hnil, List.length_nil]))
  | array n i, t, h, ht => by
    cases t <;> try exact h.elim
    case array m j => exact OptionNormal.of_alike h.2 ht
  | object n ps r a, t, h, ht => by
    cases t <;> try exact h.elim
    case object m qs u b =>
      obtain ⟨-, -, hps, rfl, ha⟩ := h
      exact ⟨PropertiesNormal.of_alike hps ht.1, ht.2.1, OptionNormal.of_alike ha ht.2.2⟩
  | combination n k bs, t, h, ht => by
    cases t <;> try exact h.elim
    case combination m l cs =>
      obtain ⟨-, -, hbs⟩ := h
      refine ⟨?_, BranchesNormal.of_alike hbs ht.2⟩
      intro hnil
      exact ht.1 (List.length_eq_zero_iff.mp (by rw [← hbs.length_eq, hnil, List.length_nil]))
  | anything n type, t, h, ht => by
    cases t <;> try exact h.elim
    case anything m u => exact h.2 ▸ ht

theorem OptionNormal.of_alike : ∀ {o p : Option Schema}, AlikeOption o p → OptionNormal p →
    OptionNormal o
  | none, _, _, _ => trivial
  | some _, none, h, _ => h.elim
  | some _, some _, h, hp => IsNormal.of_alike h hp

theorem PropertiesNormal.of_alike : ∀ {ps qs : List (String × Schema)}, AlikeProperties ps qs →
    PropertiesNormal qs → PropertiesNormal ps
  | [], _, _, _ => trivial
  | (_, s) :: _, qs, h, hqs => by
    obtain ⟨⟨t, ht, hst⟩, hrest⟩ := h
    have htn : t.IsNormal := propertiesNormal_iff.mp hqs _ (Entries.mem_of_get? ht)
    exact ⟨IsNormal.of_alike hst htn, PropertiesNormal.of_alike hrest hqs⟩

theorem BranchesNormal.of_alike : ∀ {bs cs : List Schema}, AlikeBranches bs cs →
    BranchesNormal cs → BranchesNormal bs
  | [], _, _, _ => trivial
  | _ :: _, [], h, _ => h.elim
  | _ :: _, _ :: _, h, hcs => ⟨IsNormal.of_alike h.1 hcs.1, BranchesNormal.of_alike h.2 hcs.2⟩

end

/-! ## Writing and reading -/

theorem isNormal_tidied (s : Schema) : s.tidied.IsNormal :=
  gives_read s.toJson s.tidied (read_toJson_eq_tidied s)

/-- **Round trips.** Writing a schema and reading the result always gives a schema. It is the one
that was written exactly if that one is stable at every depth, and otherwise not even one that is
alike but for the order of properties. What was read from any raw value is stable at every depth, so
writing and reading it once more gives it back. -/
theorem read_toJson_eq_iff (s : Schema) :
    (read s.toJson = .ok s ↔ ∀ t ∈ s.nodes, t.IsStable) ∧
    (∃ back, read s.toJson = .ok back ∧ (s.Alike back → ∀ t ∈ s.nodes, t.IsStable)) ∧
    ∀ v, Gives (fun r => (∀ t ∈ r.nodes, t.IsStable) ∧ read r.toJson = .ok r) (read v) := by
  refine ⟨⟨fun hread => ?_, fun hstable => ?_⟩,
    ⟨s.tidied, read_toJson_eq_tidied s, ?_⟩, fun v => ?_⟩
  · exact (isNormal_iff_stable s).mp (gives_read s.toJson s hread)
  · exact read_toJson ((isNormal_iff_stable s).mpr hstable)
  · intro halike
    exact (isNormal_iff_stable s).mp (IsNormal.of_alike halike (isNormal_tidied s))
  · exact (gives_read v).mono fun r hr => ⟨(isNormal_iff_stable r).mp hr, read_toJson hr⟩

end OpenApiClient.Schema
