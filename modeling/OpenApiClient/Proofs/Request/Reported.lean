import OpenApiClient.Client.Declarations
import OpenApiClient.Proofs.Request.Coverage
import OpenApiClient.Proofs.Types.Reported

/-!
# What is reported about requests and responses

The reports about an operation are told apart by what they are about: types of fields, parameters
that the path has no place for, the two fixed fields, names that are taken, and cookies
(`RequestShape.Reported`); and for a response that there is nothing to say about its data, or its
type (`DataShape.Reported`). They are stated by what the operation has, without the order in which
the fields are found, and they are exactly the diagnostics of the shapes.
-/

namespace OpenApiClient

section Fields

variable {c : TypeContext} {location : String} {d : Diagnostic}

theorem mem_notes_typeOrAny {o : Option Schema} :
    d ∈ (typeOrAny c location o).notes ↔ ∃ s, o = some s ∧ s.Reported c location d := by
  cases o with
  | none => simp [typeOrAny]
  | some s =>
    show d ∈ s.typeNotes c location ↔ _
    rw [Schema.mem_typeNotes_iff]
    simp

theorem mem_notes_field {p : Parameter} :
    d ∈ (p.field c location).notes ↔ ∃ s, p.schema = some s ∧ s.Reported c location d := by
  rw [← mem_notes_typeOrAny, Parameter.field, Noted.notes_bind, Noted.notes_pure, List.append_nil]

theorem mem_notes_propertyField {required : List String} {property : String × Schema} :
    d ∈ (propertyField c location required property).notes ↔
      property.2.Reported c location d := by
  rw [← Schema.mem_typeNotes_iff, propertyField, Noted.notes_bind, Noted.notes_pure,
    List.append_nil]
  rfl

end Fields

/-! ## Claims of names -/

section Claims

variable {α : Type} {nameOf : α → String} {clash : String → Diagnostic}
  {field : α → Noted RequestField}

/-- Whether the name of an item is taken at the outset or is that of an item before it. -/
def TakenBefore (nameOf : α → String) (taken : String → Prop) (before : List α) (a : α) : Prop :=
  taken (nameOf a) ∨ nameOf a ∈ before.map nameOf

theorem takenBefore_congr {taken taken' : String → Prop} (h : ∀ name, taken name ↔ taken' name)
    {before : List α} {a : α} :
    TakenBefore nameOf taken before a ↔ TakenBefore nameOf taken' before a :=
  or_congr_left (h (nameOf a))

theorem exists_split_cons {P : List α → α → Prop} {b : α} {rest : List α} :
    (∃ before a after, b :: rest = before ++ a :: after ∧ P before a) ↔
      P [] b ∨ ∃ before a after, rest = before ++ a :: after ∧ P (b :: before) a := by
  constructor
  · rintro ⟨before, a, after, heq, h⟩
    cases before with
    | nil =>
      cases heq
      exact Or.inl h
    | cons first before =>
      cases heq
      exact Or.inr ⟨before, a, after, rfl, h⟩
  · rintro (h | ⟨before, a, after, rfl, h⟩)
    · exact ⟨[], b, rest, rfl, h⟩
    · exact ⟨b :: before, a, after, rfl, h⟩

/-- An item is reported to clash if its name is taken before it, and else what its field has to
report is reported. -/
theorem mem_notes_claimFields {d : Diagnostic} {items : List α} {taken : List String} :
    d ∈ (claimFields nameOf clash field taken items).notes ↔
      ∃ before a after, items = before ++ a :: after ∧
        (TakenBefore nameOf (· ∈ taken) before a ∧ d = clash (nameOf a) ∨
          ¬TakenBefore nameOf (· ∈ taken) before a ∧ d ∈ (field a).notes) := by
  induction items generalizing taken with
  | nil => simp [claimFields]
  | cons b rest ih =>
    rw [exists_split_cons]
    by_cases h : nameOf b ∈ taken
    · -- the item is left out, so the same names are taken for the rest
      have htaken (before : List α) (a : α) : TakenBefore nameOf (· ∈ taken) (b :: before) a ↔
          TakenBefore nameOf (· ∈ taken) before a := by
        show _ ∨ nameOf a ∈ nameOf b :: before.map nameOf ↔ _
        rw [List.mem_cons]
        constructor
        · rintro (htaken | heq | hbefore)
          · exact Or.inl htaken
          · exact Or.inl (heq ▸ h)
          · exact Or.inr hbefore
        · rintro (htaken | hbefore)
          · exact Or.inl htaken
          · exact Or.inr (Or.inr hbefore)
      have hfirst : TakenBefore nameOf (· ∈ taken) [] b := Or.inl h
      simp only [claimFields_of_mem h, List.mem_cons, ih, htaken, hfirst, true_and, not_true,
        false_and, or_false]
    · -- the item gets its field, and its name is taken for the rest
      have htaken (before : List α) (a : α) : TakenBefore nameOf (· ∈ taken) (b :: before) a ↔
          TakenBefore nameOf (· ∈ nameOf b :: taken) before a := by
        show nameOf a ∈ taken ∨ nameOf a ∈ nameOf b :: before.map nameOf ↔
          nameOf a ∈ nameOf b :: taken ∨ _
        rw [List.mem_cons, List.mem_cons]
        exact or_left_comm.trans or_assoc.symm
      have hfirst : ¬TakenBefore nameOf (· ∈ taken) [] b := by
        rintro (htaken | hnone)
        · exact h htaken
        · exact List.not_mem_nil hnone
      simp only [claimFields_of_not_mem h, List.mem_append, ih, htaken, hfirst, false_and,
        not_false_eq_true, true_and, false_or]

/-- After a claim the names of all items are taken. -/
theorem mem_taken_claimFields_iff {name : String} {items : List α} {taken : List String} :
    name ∈ (claimFields nameOf clash field taken items).value.2 ↔
      name ∈ taken ∨ name ∈ items.map nameOf := by
  induction items generalizing taken with
  | nil => simp [claimFields]
  | cons a rest ih =>
    rw [List.map_cons, List.mem_cons]
    by_cases h : nameOf a ∈ taken
    · rw [claimFields_of_mem h]
      refine ih.trans ⟨?_, ?_⟩
      · rintro (htaken | hrest)
        · exact Or.inl htaken
        · exact Or.inr (Or.inr hrest)
      · rintro (htaken | rfl | hrest)
        · exact Or.inl htaken
        · exact Or.inl h
        · exact Or.inr hrest
    · rw [claimFields_of_not_mem h]
      refine ih.trans ?_
      rw [List.mem_cons]
      exact or_assoc.trans or_left_comm

end Claims

namespace RequestShape

variable (c : TypeContext) (op : PlannedOperation)

/-! ## Names that are taken first -/

/-- Whether a request should have a fixed field of a name. -/
def Wants (op : PlannedOperation) (name : String) : Prop :=
  name = "headers" ∧ op.operation.parametersIn .header ≠ [] ∨
    name = "body" ∧ hasWholeBody op.operation = true

/-- Whether a name is taken before the query and the body are looked at: by a placeholder, or by a
fixed field. -/
def TakenFirst (op : PlannedOperation) (name : String) : Prop :=
  name ∈ PathTemplate.placeholders op.endpoint.path ∨ Wants op name

/-- Whether a name is taken before the properties of the body are looked at. -/
def TakenByQuery (op : PlannedOperation) (name : String) : Prop :=
  TakenFirst op name ∨ name ∈ (op.operation.parametersIn .query).map Parameter.name

inductive Reported : Diagnostic → Prop where
  | placeholder {name : String} {p : Parameter} {s : Schema} {d : Diagnostic} :
    name ∈ PathTemplate.placeholders op.endpoint.path →
      ((op.operation.parametersIn .path).find? fun p => p.name == name) = some p →
        p.schema = some s → s.Reported c op.location d → Reported d
  | unmatched {p : Parameter} :
    p ∈ op.operation.parametersIn .path → p.name ∉ PathTemplate.placeholders op.endpoint.path →
      Reported (unmatchedNote op.location p.name)
  | container {name : String} :
    Wants op name → name ∈ PathTemplate.placeholders op.endpoint.path →
      Reported (containerNote op.location name)
  | queryClash {before after : List Parameter} {p : Parameter} :
    op.operation.parametersIn .query = before ++ p :: after →
      TakenBefore Parameter.name (TakenFirst op) before p →
        Reported (clashNote op.location "query parameter" p.name)
  | queryType {before after : List Parameter} {p : Parameter} {s : Schema} {d : Diagnostic} :
    op.operation.parametersIn .query = before ++ p :: after →
      ¬TakenBefore Parameter.name (TakenFirst op) before p →
        p.schema = some s → s.Reported c op.location d → Reported d
  | headerType {p : Parameter} {s : Schema} {d : Diagnostic} :
    p ∈ op.operation.parametersIn .header →
      "headers" ∉ PathTemplate.placeholders op.endpoint.path →
        p.schema = some s → s.Reported c op.location d → Reported d
  | cookie {p : Parameter} :
    p ∈ op.operation.parametersIn .cookie → Reported (cookieNote op.location p.name)
  | bodyClash {b : RequestBody} {required : List String} {before after : List (String × Schema)}
      {property : String × Schema} :
    op.operation.requestBody = some b →
      b.schema?.bind Schema.properties? = some (before ++ property :: after, required) →
        TakenBefore Prod.fst (TakenByQuery op) before property →
          Reported (clashNote op.location "body field" property.1)
  | bodyFieldType {b : RequestBody} {required : List String}
      {before after : List (String × Schema)} {property : String × Schema} {d : Diagnostic} :
    op.operation.requestBody = some b →
      b.schema?.bind Schema.properties? = some (before ++ property :: after, required) →
        ¬TakenBefore Prod.fst (TakenByQuery op) before property →
          property.2.Reported c op.location d → Reported d
  | bodyType {b : RequestBody} {s : Schema} {d : Diagnostic} :
    op.operation.requestBody = some b → b.schema? = some s → s.properties? = none →
      "body" ∉ PathTemplate.placeholders op.endpoint.path →
        s.Reported c op.location d → Reported d

variable {c op} {d : Diagnostic}

theorem keepsHeaders_iff : keepsHeaders op = true ↔
    Wants op "headers" ∧ "headers" ∉ PathTemplate.placeholders op.endpoint.path := by
  simp [keepsHeaders, Wants]

theorem keepsBody_iff : keepsBody op = true ↔
    Wants op "body" ∧ "body" ∉ PathTemplate.placeholders op.endpoint.path := by
  simp [keepsBody, Wants]

theorem mem_claimedFirst {name : String} : name ∈ claimedFirst op ↔ TakenFirst op name := by
  rw [claimedFirst, List.mem_append, List.mem_append, List.mem_ite_nil_right,
    List.mem_ite_nil_right, keepsHeaders_iff, keepsBody_iff, List.mem_singleton,
    List.mem_singleton]
  constructor
  · rintro ((hplaceholder | ⟨⟨hwants, -⟩, rfl⟩) | ⟨⟨hwants, -⟩, rfl⟩)
    · exact Or.inl hplaceholder
    · exact Or.inr hwants
    · exact Or.inr hwants
  · intro h
    by_cases hplaceholder : name ∈ PathTemplate.placeholders op.endpoint.path
    · exact Or.inl (Or.inl hplaceholder)
    · have hwants := h.resolve_left hplaceholder
      rcases hwants with ⟨rfl, -⟩ | ⟨rfl, -⟩
      · exact Or.inl (Or.inr ⟨⟨h.resolve_left hplaceholder, hplaceholder⟩, rfl⟩)
      · exact Or.inr ⟨⟨h.resolve_left hplaceholder, hplaceholder⟩, rfl⟩

theorem mem_taken_queryFields {name : String} :
    name ∈ (queryFields c op).value.2 ↔ TakenByQuery op name :=
  mem_taken_claimFields_iff.trans (or_congr_left mem_claimedFirst)

/-! ## Parts of a request -/

theorem mem_notes_placeholders :
    d ∈ (Noted.each (placeholderField c op.location op.operation)
        (PathTemplate.placeholders op.endpoint.path)).notes ↔
      ∃ name ∈ PathTemplate.placeholders op.endpoint.path, ∃ p,
        ((op.operation.parametersIn .path).find? fun p => p.name == name) = some p ∧
          ∃ s, p.schema = some s ∧ s.Reported c op.location d := by
  rw [Noted.notes_each, List.mem_flatMap]
  refine exists_congr fun name => and_congr_right fun _ => ?_
  unfold placeholderField
  cases (op.operation.parametersIn .path).find? fun p => p.name == name with
  | none => simp
  | some p =>
    rw [Noted.notes_bind, Noted.notes_pure, List.append_nil, mem_notes_field]
    simp

theorem mem_unmatched {p : Parameter} :
    p ∈ unmatched op.operation (PathTemplate.placeholders op.endpoint.path) ↔
      p ∈ op.operation.parametersIn .path ∧
        p.name ∉ PathTemplate.placeholders op.endpoint.path := by
  simp [unmatched]

theorem mem_notes_keepContainer {location name : String} {wanted : Bool}
    {placeholders : List String} :
    d ∈ (keepContainer location name wanted placeholders).notes ↔
      wanted = true ∧ name ∈ placeholders ∧ d = containerNote location name := by
  have htaken : (wanted && placeholders.contains name) = true ↔
      wanted = true ∧ name ∈ placeholders := by simp
  rw [keepContainer, Noted.notes_bind, Noted.notes_pure, List.append_nil, ← and_assoc, ← htaken]
  cases wanted && placeholders.contains name with
  | false => simp [Noted.noteIf]
  | true => simp [Noted.noteIf, Noted.note]

theorem mem_notes_queryFields :
    d ∈ (queryFields c op).notes ↔
      ∃ before p after, op.operation.parametersIn .query = before ++ p :: after ∧
        (TakenBefore Parameter.name (TakenFirst op) before p ∧
            d = clashNote op.location "query parameter" p.name ∨
          ¬TakenBefore Parameter.name (TakenFirst op) before p ∧
            ∃ s, p.schema = some s ∧ s.Reported c op.location d) := by
  have htaken {before : List Parameter} {p : Parameter} :
      TakenBefore Parameter.name (· ∈ claimedFirst op) before p ↔
        TakenBefore Parameter.name (TakenFirst op) before p :=
    takenBefore_congr fun _ => mem_claimedFirst
  rw [queryFields, mem_notes_claimFields]
  simp only [htaken, mem_notes_field]

theorem mem_notes_headerFields :
    d ∈ (headerFields c op).notes ↔
      "headers" ∉ PathTemplate.placeholders op.endpoint.path ∧
        ∃ p ∈ op.operation.parametersIn .header, ∃ s, p.schema = some s ∧
          s.Reported c op.location d := by
  rw [headerFields, Noted.notes_each, List.mem_flatMap]
  simp only [mem_notes_field, List.mem_ite_nil_right, keepsHeaders_iff]
  constructor
  · rintro ⟨p, ⟨⟨-, hfree⟩, hp⟩, hd⟩
    exact ⟨hfree, p, hp, hd⟩
  · rintro ⟨hfree, p, hp, hd⟩
    exact ⟨p, ⟨⟨Or.inl ⟨rfl, List.ne_nil_of_mem hp⟩, hfree⟩, hp⟩, hd⟩

/-- A body with declared properties has the reports of their fields. -/
theorem mem_notes_bodyPart_properties {b : RequestBody} (hb : op.operation.requestBody = some b)
    {properties : List (String × Schema)} {required : List String}
    (hprops : b.schema?.bind Schema.properties? = some (properties, required)) :
    d ∈ (bodyPart c op).notes ↔
      ∃ before property after, properties = before ++ property :: after ∧
        (TakenBefore Prod.fst (TakenByQuery op) before property ∧
            d = clashNote op.location "body field" property.1 ∨
          ¬TakenBefore Prod.fst (TakenByQuery op) before property ∧
            property.2.Reported c op.location d) := by
  have htaken {before : List (String × Schema)} {property : String × Schema} :
      TakenBefore Prod.fst (· ∈ (queryFields c op).value.2) before property ↔
        TakenBefore Prod.fst (TakenByQuery op) before property :=
    takenBefore_congr fun _ => mem_taken_queryFields
  rw [(bodyPart_properties c hb hprops).2, propertyFields, mem_notes_claimFields]
  simp only [htaken, mem_notes_propertyField]

/-- A body without declared properties has the reports of its type, if it is kept. -/
theorem mem_notes_bodyPart_whole {b : RequestBody} (hb : op.operation.requestBody = some b)
    (hwhole : b.schema?.bind Schema.properties? = none) :
    d ∈ (bodyPart c op).notes ↔ "body" ∉ PathTemplate.placeholders op.endpoint.path ∧
      ∃ s, b.schema? = some s ∧ s.Reported c op.location d := by
  have hwants : Wants op "body" := Or.inr ⟨rfl, hasWholeBody_iff.mpr ⟨b, hb, hwhole⟩⟩
  rw [bodyPart, bodyOf, hb]
  simp only [hwhole]
  split_ifs with hkeep
  · rw [Noted.notes_bind, Noted.notes_pure, List.append_nil, mem_notes_typeOrAny]
    exact (and_iff_right (keepsBody_iff.mp hkeep).2).symm
  · have hplaceholder : "body" ∈ PathTemplate.placeholders op.endpoint.path := by
      by_contra hfree
      exact hkeep (keepsBody_iff.mpr ⟨hwants, hfree⟩)
    simp [hplaceholder]

/-! ## All reports -/

theorem reported_of_mem_bodyPart (h : d ∈ (bodyPart c op).notes) : Reported c op d := by
  cases hb : op.operation.requestBody with
  | none =>
    rw [bodyPart, bodyOf, hb] at h
    exact absurd h List.not_mem_nil
  | some b =>
    cases hprops : b.schema?.bind Schema.properties? with
    | none =>
      obtain ⟨hfree, s, hs, hd⟩ := (mem_notes_bodyPart_whole hb hprops).mp h
      rw [hs] at hprops
      exact .bodyType hb hs hprops hfree hd
    | some declared =>
      obtain ⟨properties, required⟩ := declared
      obtain ⟨before, property, after, rfl, ⟨htaken, rfl⟩ | ⟨hfree, hd⟩⟩ :=
        (mem_notes_bodyPart_properties hb hprops).mp h
      · exact .bodyClash hb hprops htaken
      · exact .bodyFieldType hb hprops hfree hd

theorem reported_of_mem_notes (h : d ∈ (of c op).notes) : Reported c op d := by
  rw [notes_of] at h
  obtain ⟨part, hpart, hd⟩ := List.mem_flatten.mp h
  simp only [noteParts, List.mem_cons, List.not_mem_nil, or_false] at hpart
  rcases hpart with rfl | rfl | rfl | rfl | rfl | rfl | rfl | rfl
  · obtain ⟨name, hname, p, hp, s, hs, hd⟩ := mem_notes_placeholders.mp hd
    exact .placeholder hname hp hs hd
  · obtain ⟨p, hp, rfl⟩ := List.mem_map.mp hd
    obtain ⟨hp, hfree⟩ := mem_unmatched.mp hp
    exact .unmatched hp hfree
  · obtain ⟨hwanted, hplaceholder, rfl⟩ := mem_notes_keepContainer.mp hd
    exact .container (Or.inl ⟨rfl, by simpa using hwanted⟩) hplaceholder
  · obtain ⟨hwanted, hplaceholder, rfl⟩ := mem_notes_keepContainer.mp hd
    exact .container (Or.inr ⟨rfl, hwanted⟩) hplaceholder
  · obtain ⟨before, p, after, hquery, ⟨htaken, rfl⟩ | ⟨hfree, s, hs, hd⟩⟩ :=
      mem_notes_queryFields.mp hd
    · exact .queryClash hquery htaken
    · exact .queryType hquery hfree hs hd
  · obtain ⟨hfree, p, hp, s, hs, hd⟩ := mem_notes_headerFields.mp hd
    exact .headerType hp hfree hs hd
  · obtain ⟨p, hp, rfl⟩ := List.mem_map.mp hd
    exact .cookie hp
  · exact reported_of_mem_bodyPart hd

theorem mem_notes_of_mem_noteParts {part : List Diagnostic} (hd : d ∈ part)
    (hpart : part ∈ noteParts c op) : d ∈ (of c op).notes := by
  rw [notes_of]
  exact List.mem_flatten_of_mem hpart hd

theorem mem_notes_of_reported (h : Reported c op d) : d ∈ (of c op).notes := by
  cases h with
  | placeholder hname hp hs hd =>
    have hpart := mem_notes_placeholders.mpr ⟨_, hname, _, hp, _, hs, hd⟩
    exact mem_notes_of_mem_noteParts hpart (by simp [noteParts])
  | unmatched hp hfree =>
    have hpart := List.mem_map_of_mem (f := fun p => unmatchedNote op.location p.name)
      (mem_unmatched.mpr ⟨hp, hfree⟩)
    exact mem_notes_of_mem_noteParts hpart (by simp [noteParts])
  | container hwants hplaceholder =>
    rcases hwants with ⟨rfl, hheaders⟩ | ⟨rfl, hbody⟩
    · have hwanted : (!(op.operation.parametersIn .header).isEmpty) = true := by
        simpa using hheaders
      have hpart : containerNote op.location "headers" ∈ _ :=
        mem_notes_keepContainer.mpr ⟨hwanted, hplaceholder, rfl⟩
      exact mem_notes_of_mem_noteParts hpart (by simp [noteParts])
    · have hpart : containerNote op.location "body" ∈ _ :=
        mem_notes_keepContainer.mpr ⟨hbody, hplaceholder, rfl⟩
      exact mem_notes_of_mem_noteParts hpart (by simp [noteParts])
  | queryClash hquery htaken =>
    have hpart := (mem_notes_queryFields (c := c)).mpr
      ⟨_, _, _, hquery, Or.inl ⟨htaken, rfl⟩⟩
    exact mem_notes_of_mem_noteParts hpart (by simp [noteParts])
  | queryType hquery hfree hs hd =>
    have hpart := mem_notes_queryFields.mpr ⟨_, _, _, hquery, Or.inr ⟨hfree, _, hs, hd⟩⟩
    exact mem_notes_of_mem_noteParts hpart (by simp [noteParts])
  | headerType hp hfree hs hd =>
    have hpart := mem_notes_headerFields.mpr ⟨hfree, _, hp, _, hs, hd⟩
    exact mem_notes_of_mem_noteParts hpart (by simp [noteParts])
  | cookie hp =>
    have hpart := List.mem_map_of_mem (f := fun p => cookieNote op.location p.name) hp
    exact mem_notes_of_mem_noteParts hpart (by simp [noteParts])
  | bodyClash hb hprops htaken =>
    have hpart := (mem_notes_bodyPart_properties (c := c) hb hprops).mpr
      ⟨_, _, _, rfl, Or.inl ⟨htaken, rfl⟩⟩
    exact mem_notes_of_mem_noteParts hpart (by simp [noteParts])
  | bodyFieldType hb hprops hfree hd =>
    have hpart := (mem_notes_bodyPart_properties hb hprops).mpr
      ⟨_, _, _, rfl, Or.inr ⟨hfree, hd⟩⟩
    exact mem_notes_of_mem_noteParts hpart (by simp [noteParts])
  | bodyType hb hs hwhole hfree hd =>
    have hpart := (mem_notes_bodyPart_whole hb (by rw [hs]; exact hwhole)).mpr ⟨hfree, _, hs, hd⟩
    exact mem_notes_of_mem_noteParts hpart (by simp [noteParts])

/-- The diagnostics of the shape of a request are what is reported about the request. -/
theorem mem_notes_iff : d ∈ (of c op).notes ↔ Reported c op d :=
  ⟨reported_of_mem_notes, mem_notes_of_reported⟩

end RequestShape

/-! ## Responses -/

namespace DataShape

variable {c : TypeContext} {op : PlannedOperation} {d : Diagnostic}

variable (c op) in
inductive Reported : Diagnostic → Prop where
  | missing : op.operation.successSchema? = none → Reported (noDataNote op.location)
  | type {s : Schema} {d : Diagnostic} :
    op.operation.successSchema? = some s → s.Reported c op.location d → Reported d

theorem notes_propertyMembers (location : String) (required : List String)
    (properties : List (String × Schema)) :
    (propertyMembers c location required properties).notes =
      Schema.memberNotes c location properties := by
  rw [propertyMembers, Noted.notes_each]
  induction properties with
  | nil => rfl
  | cons p properties ih =>
    rw [List.flatMap_cons, ih, Noted.notes_bind, Noted.notes_pure, List.append_nil]
    rfl

theorem notes_of_some {s : Schema} (h : op.operation.successSchema? = some s) :
    (DataShape.of c op).notes = s.typeNotes c op.location := by
  have halias : (do return .alias (← s.typeAt c op.location) : Noted DataShape).notes =
      s.typeNotes c op.location := List.append_nil _
  have hinline : (do return .inline (← s.typeAt c op.location) : Noted DataShape).notes =
      s.typeNotes c op.location := List.append_nil _
  rw [DataShape.of, h]
  cases s with
  | reference n pointer => exact halias
  | array n items => exact halias
  | object n properties required additional =>
    cases properties with
    | nil => exact hinline
    | cons p ps =>
      rw [Schema.typeNotes_object, ← notes_propertyMembers op.location required (p :: ps)]
      exact List.append_nil _
  | primitive n p => exact hinline
  | enumeration n base values => exact hinline
  | combination n kind branches => exact hinline
  | anything n type => exact hinline

/-- The diagnostics of the data of a response are what is reported about them. -/
theorem mem_notes_of_iff : d ∈ (DataShape.of c op).notes ↔ Reported c op d := by
  cases hs : op.operation.successSchema? with
  | none =>
    have hnotes : (DataShape.of c op).notes = [noDataNote op.location] := by
      rw [DataShape.of, hs]
      rfl
    rw [hnotes, List.mem_singleton]
    constructor
    · rintro rfl
      exact .missing hs
    · rintro (_ | ⟨hsome, -⟩)
      · rfl
      · rw [hs] at hsome
        cases hsome
  | some s =>
    rw [notes_of_some hs, Schema.mem_typeNotes_iff]
    constructor
    · exact .type hs
    · rintro (hnone | ⟨hsome, hd⟩)
      · rw [hs] at hnone
        cases hnone
      · rw [hs] at hsome
        cases hsome
        exact hd

end DataShape

end OpenApiClient
