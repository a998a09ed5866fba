import OpenApiClient.Proofs.Schema.Normal

/-!
# Written schemas

What is written of a schema can always be read, and gives the schema in its tidied form
(`read_toJson_eq_tidied`). The keywords of its words come first and are the same for all shapes
(`read_wireEntries`); then each shape has its own keywords, and they decide for that shape again
unless they are empty. A normal schema has nothing to tidy and is read back (`read_toJson`).
-/

namespace OpenApiClient.Schema

/-- The enumeration of some values. Without values it is whatever its type says. -/
def ofValues (notes : Notes) (base : Option Primitive) : List Json → Schema
  | [] =>
    match base with
    | some p => primitive notes p
    | none => anything notes none
  | values => enumeration notes base values

/-- The combination of some branches. Without branches it says nothing. -/
def ofBranches (notes : Notes) (kind : Combinator) : List Schema → Schema
  | [] => anything notes none
  | branches => combination notes kind branches

mutual

def tidied : Schema → Schema
  | reference notes pointer => reference notes pointer
  | primitive notes p => primitive notes p
  | enumeration notes base values => ofValues notes base values
  | array notes items => array notes (tidiedOption items)
  | object notes ps required extra =>
    object notes (tidiedProperties ps) (distinct required) (tidiedOption extra)
  | combination notes kind branches => ofBranches notes kind (tidiedBranches branches)
  | anything notes none => anything notes none
  | anything notes (some type) => Keywords.ofType {} notes type
termination_by structural s => s

def tidiedOption : Option Schema → Option Schema
  | none => none
  | some s => some (tidied s)
termination_by structural s => s

def tidiedProperties : List (String × Schema) → List (String × Schema)
  | [] => []
  | (name, s) :: rest => (name, tidied s) :: tidiedProperties rest
termination_by structural ps => ps

def tidiedBranches : List Schema → List Schema
  | [] => []
  | s :: rest => tidied s :: tidiedBranches rest
termination_by structural bs => bs

end

/-! ## Keywords -/

def enterValue (key : String) (v : Json) (k : Keywords) : Json.Typed Keywords :=
  enterKeyword key v (fun _ => read v) (fun _ => readList v) (fun _ => readMap v) k

theorem readKeywords_cons {key : String} {v : Json} {k l : Keywords}
    (h : enterValue key v k = .ok l) (rest : List (String × Json)) :
    readKeywords ((key, v) :: rest) k = readKeywords rest l := by
  rw [readKeywords, show enterKeyword key v _ _ _ k = .ok l from h]
  rfl

/-- A word is read back from its entry, and from none if there is no word. -/
theorem readKeywords_word {key : String} (set : Option String → Keywords)
    (h : ∀ word, enterValue key (.str word) (set none) = .ok (set (some word)))
    (word : Option String) (rest : List (String × Json)) :
    readKeywords (optionalEntry key (word.map .str) ++ rest) (set none) =
      readKeywords rest (set word) := by
  cases word with
  | none => rfl
  | some word => exact readKeywords_cons (h word) rest

def Keywords.words (notes : Notes) (ref type : Option String) : Keywords where
  ref := ref
  type := type.map fun t => [t]
  title := notes.title
  description := notes.description
  format := notes.format

theorem read_wireEntries (notes : Notes) (ref type : Option String)
    (rest : List (String × Json)) :
    read (wireEntries notes ref type rest) =
      (readKeywords rest (.words notes ref type)).map Keywords.toSchema := by
  have hwords : readKeywords (optionalEntry "$ref" (ref.map .str) ++
      (optionalEntry "type" (type.map .str) ++ (optionalEntry "title" (notes.title.map .str) ++
        (optionalEntry "description" (notes.description.map .str) ++
          (optionalEntry "format" (notes.format.map .str) ++ rest))))) {} =
      readKeywords rest (.words notes ref type) := by
    refine (readKeywords_word (fun o => { ref := o }) (fun _ => rfl) ref _).trans ?_
    refine (readKeywords_word (fun o => .words ⟨none, none, none⟩ ref o)
      (fun _ => rfl) type _).trans ?_
    refine (readKeywords_word (fun o => .words ⟨o, none, none⟩ ref type)
      (fun _ => rfl) notes.title _).trans ?_
    refine (readKeywords_word (fun o => .words ⟨notes.title, o, none⟩ ref type)
      (fun _ => rfl) notes.description _).trans ?_
    exact readKeywords_word (fun o => .words ⟨notes.title, notes.description, o⟩ ref type)
      (fun _ => rfl) notes.format rest
  rw [← List.append_assoc, ← List.append_assoc, ← List.append_assoc, ← List.append_assoc]
    at hwords
  rw [wireEntries, read, hwords]
  rfl

theorem readKeywords_required (names : List String) (rest : List (String × Json)) {k : Keywords}
    (h : k.required = none) :
    readKeywords (textsEntry "required" names ++ rest) k =
      readKeywords rest { k with required := if names.isEmpty then none else some names } := by
  cases names with
  | nil => rw [List.isEmpty_nil, if_pos rfl, ← h]; rfl
  | cons name names =>
    have hnames : Json.asOptional (Json.asList Json.asText) (.arr ((name :: names).map .str)) =
        .ok (some (name :: names)) :=
      congrArg (Except.map some) (Json.asTexts_map (name :: names))
    exact readKeywords_cons (bind_of_eq_ok hnames _) rest

/-! ## Parts -/

theorem exists_toJson : ∀ s : Schema, ∃ entries, s.toJson = .obj entries
  | reference .. | primitive .. | enumeration .. | array _ none | array _ (some _)
  | object _ [] _ none | object _ [] _ (some _) | object _ (_ :: _) _ none
  | object _ (_ :: _) _ (some _) | combination .. | anything .. => ⟨_, by rw [toJson]; rfl⟩

/-- A written schema is not null. -/
theorem unlessNull_toJson {α : Type} (s : Schema) {read : Unit → Json.Typed α} {a : α}
    (h : read () = .ok a) : unlessNull s.toJson read = .ok (some a) := by
  obtain ⟨entries, hs⟩ := s.exists_toJson
  rw [hs]
  exact congrArg (Except.map some) h

/-- A written schema is not a truth value. -/
theorem asAdditional_toJson {s t : Schema} {read : Unit → Json.Typed Schema}
    (h : read () = .ok t) : asAdditional read s.toJson = .ok (.schema t) := by
  obtain ⟨entries, hs⟩ := s.exists_toJson
  rw [hs]
  unfold asAdditional
  rw [h]

theorem readKeywords_items {items : Option Schema}
    (h : ∀ s ∈ items, read s.toJson = .ok s.tidied) {k : Keywords} (hk : k.items = none) :
    readKeywords (optionalEntry "items" (items.map toJson)) k =
      .ok { k with items := tidiedOption items } := by
  cases items with
  | none =>
    show Except.ok k = .ok { k with items := none }
    rw [← hk]
  | some s =>
    have hitems : unlessNull s.toJson (fun _ => read s.toJson) = .ok (some s.tidied) :=
      unlessNull_toJson s (h s rfl)
    exact readKeywords_cons (bind_of_eq_ok hitems _) []

theorem readKeywords_additional {extra : Option Schema}
    (h : ∀ s ∈ extra, read s.toJson = .ok s.tidied) {k : Keywords} (hk : k.additional = none) :
    readKeywords (optionalEntry "additionalProperties" (extra.map toJson)) k =
      .ok { k with additional := (tidiedOption extra).map .schema } := by
  cases extra with
  | none =>
    show Except.ok k = .ok { k with additional := none }
    rw [← hk]
  | some s =>
    have hextra : unlessNull s.toJson
        (fun _ => asAdditional (fun _ => read s.toJson) s.toJson) =
          .ok (some (.schema s.tidied)) :=
      unlessNull_toJson s (asAdditional_toJson (h s rfl))
    exact readKeywords_cons (bind_of_eq_ok hextra _) []

def Keywords.withBranches (k : Keywords) (branches : List Schema) : Combinator → Keywords
  | .allOf => { k with allOf := some branches }
  | .anyOf => { k with anyOf := some branches }
  | .oneOf => { k with oneOf := some branches }

theorem readKeywords_branches {kind : Combinator} {branches : List Schema}
    (h : readBranches 0 (branchesToJson branches) = .ok (tidiedBranches branches)) (k : Keywords) :
    readKeywords [(kind.name, .arr (branchesToJson branches))] k =
      .ok (k.withBranches (tidiedBranches branches) kind) := by
  have hlist : (readList (.arr (branchesToJson branches))).map some =
      .ok (some (tidiedBranches branches)) :=
    congrArg (Except.map some) h
  cases kind with
  | allOf => exact readKeywords_cons (bind_of_eq_ok hlist _) []
  | anyOf => exact readKeywords_cons (bind_of_eq_ok hlist _) []
  | oneOf => exact readKeywords_cons (bind_of_eq_ok hlist _) []

theorem readKeywords_enum (values : List Json) (k : Keywords) :
    readKeywords [("enum", .arr values)] k = .ok { k with enum := some values } := by
  have hvalues : Json.asList (.ok : Json → Json.Typed Json) (.arr (values.map id)) = .ok values :=
    Json.asList_map fun _ _ => rfl
  rw [List.map_id] at hvalues
  exact readKeywords_cons (bind_of_eq_ok (congrArg (Except.map some) hvalues) _) []

theorem readKeywords_properties {ps : List (String × Schema)}
    (h : readProperties (propertiesToJson ps) = .ok (tidiedProperties ps))
    (rest : List (String × Json)) {k : Keywords} (hk : k.properties = none) :
    readKeywords (optionalEntry "properties"
        (if ps.isEmpty then none else some (.obj (propertiesToJson ps))) ++ rest) k =
      readKeywords rest
        { k with properties := if ps.isEmpty then none else some (tidiedProperties ps) } := by
  cases ps with
  | nil => rw [List.isEmpty_nil, if_pos rfl, if_pos rfl, ← hk]; rfl
  | cons p ps =>
    exact readKeywords_cons (bind_of_eq_ok (congrArg (Except.map some) h) _) rest

/-- The entries of an object, whichever of its parts are left out. -/
theorem toJson_object (notes : Notes) (ps : List (String × Schema)) (required : List String)
    (extra : Option Schema) :
    toJson (object notes ps required extra) = wireEntries notes none (some "object")
      (optionalEntry "properties"
          (if ps.isEmpty then none else some (.obj (propertiesToJson ps))) ++
        (textsEntry "required" required ++
          optionalEntry "additionalProperties" (extra.map toJson))) := by
  cases ps <;> cases extra <;> rw [toJson] <;> simp [optionalEntry]

theorem toJson_array (notes : Notes) (items : Option Schema) :
    toJson (array notes items) =
      wireEntries notes none (some "array") (optionalEntry "items" (items.map toJson)) := by
  cases items <;> rw [toJson] <;> rfl

/-! ## Shapes -/

theorem mainType_singleton (type : String) : mainType [type] = some type := by
  by_cases h : type = "null" <;> simp [mainType, h]

theorem Keywords.toSchema_of_type {k : Keywords} {type : String} (href : k.ref = none)
    (hcombination : k.combination = none) (henum : k.enum = none) (htype : k.type = some [type]) :
    k.toSchema = k.ofType ⟨k.title, k.description, k.format⟩ type := by
  unfold Keywords.toSchema
  rw [href, hcombination, henum, htype, Option.bind_some, mainType_singleton]
  rfl

theorem read_object {notes : Notes} {ps : List (String × Schema)} {required : List String}
    {extra : Option Schema}
    (hps : readProperties (propertiesToJson ps) = .ok (tidiedProperties ps))
    (hextra : ∀ s ∈ extra, read s.toJson = .ok s.tidied) :
    read (toJson (object notes ps required extra)) =
      .ok (tidied (object notes ps required extra)) := by
  rw [toJson_object, read_wireEntries, readKeywords_properties hps _ rfl,
    readKeywords_required required _ rfl, readKeywords_additional hextra rfl]
  refine congrArg Except.ok ((Keywords.toSchema_of_type rfl rfl rfl rfl).trans ?_)
  have hproperties : (if ps.isEmpty then none else some (tidiedProperties ps)).getD [] =
      tidiedProperties ps := by
    cases ps <;> rfl
  have hrequired : (if required.isEmpty then none else some required).getD [] = required := by
    cases required <;> rfl
  show object notes _ (distinct _) _ = _
  rw [hproperties, hrequired, tidied]
  cases extra <;> rfl

theorem read_array {notes : Notes} {items : Option Schema}
    (h : ∀ s ∈ items, read s.toJson = .ok s.tidied) :
    read (toJson (array notes items)) = .ok (tidied (array notes items)) := by
  rw [toJson_array, read_wireEntries, readKeywords_items h rfl]
  exact congrArg Except.ok ((Keywords.toSchema_of_type rfl rfl rfl rfl).trans rfl)

theorem read_combination {notes : Notes} {kind : Combinator} {branches : List Schema}
    (h : readBranches 0 (branchesToJson branches) = .ok (tidiedBranches branches)) :
    read (toJson (combination notes kind branches)) =
      .ok (tidied (combination notes kind branches)) := by
  rw [toJson, read_wireEntries, readKeywords_branches h, tidied]
  cases tidiedBranches branches <;> cases kind <;> rfl

theorem read_enumeration (notes : Notes) (base : Option Primitive) (values : List Json) :
    read (toJson (enumeration notes base values)) =
      .ok (tidied (enumeration notes base values)) := by
  rw [toJson, read_wireEntries, readKeywords_enum]
  rcases base with _ | ⟨_ | _ | _ | _⟩ <;> cases values <;> rfl

theorem read_anything (notes : Notes) (type : Option String) :
    read (toJson (anything notes type)) = .ok (tidied (anything notes type)) := by
  rw [toJson, read_wireEntries]
  cases type with
  | none => rfl
  | some type =>
    exact congrArg Except.ok ((Keywords.toSchema_of_type rfl rfl rfl rfl).trans rfl)

theorem read_primitive (notes : Notes) (p : Primitive) :
    read (toJson (primitive notes p)) = .ok (primitive notes p) := by
  rw [toJson, read_wireEntries]
  refine congrArg Except.ok ((Keywords.toSchema_of_type rfl rfl rfl rfl).trans ?_)
  cases p <;> rfl

theorem read_reference (notes : Notes) (pointer : String) :
    read (toJson (reference notes pointer)) = .ok (reference notes pointer) := by
  rw [toJson, read_wireEntries]
  rfl

/-! ## All schemas -/

mutual

/-- **Written schemas.** What is written of a schema is read as the tidied schema. -/
theorem read_toJson_eq_tidied : ∀ s : Schema, read s.toJson = .ok s.tidied
  | reference notes pointer => read_reference notes pointer
  | primitive notes p => read_primitive notes p
  | enumeration notes base values => read_enumeration notes base values
  | array _ none => read_array nofun
  | array _ (some items) => read_array (by
    rintro _ ⟨⟩
    exact read_toJson_eq_tidied items)
  | object _ ps _ none => read_object (readProperties_toJson ps) nofun
  | object _ ps _ (some extra) => read_object (readProperties_toJson ps) (by
    rintro _ ⟨⟩
    exact read_toJson_eq_tidied extra)
  | combination _ _ branches => read_combination (readBranches_toJson branches 0)
  | anything notes type => read_anything notes type

theorem readProperties_toJson : ∀ ps : List (String × Schema),
    readProperties (propertiesToJson ps) = .ok (tidiedProperties ps)
  | [] => rfl
  | (_, s) :: rest => by
    rw [propertiesToJson, readProperties, read_toJson_eq_tidied s, readProperties_toJson rest]
    rfl

theorem readBranches_toJson : ∀ (bs : List Schema) (i : Nat),
    readBranches i (branchesToJson bs) = .ok (tidiedBranches bs)
  | [], _ => rfl
  | s :: rest, i => by
    rw [branchesToJson, readBranches, read_toJson_eq_tidied s, readBranches_toJson rest (i + 1)]
    rfl

end

/-- A type that is understood decides when it is read, though it was kept as unknown. -/
example : read (toJson (anything .none (some "array"))) = .ok (array .none none) := rfl

/-! ## Normal schemas -/

theorem distinct_of_nodup : ∀ {xs : List String}, xs.Nodup → distinct xs = xs
  | [], _ => rfl
  | x :: rest, h => by
    obtain ⟨hx, hrest⟩ := List.nodup_cons.mp h
    rw [distinct, distinct_of_nodup hrest, List.filter_eq_self.mpr]
    intro y hy
    rw [decide_eq_true_eq]
    rintro rfl
    exact hx hy

theorem ofValues_of_ne_nil {notes : Notes} {base : Option Primitive} {values : List Json}
    (h : values ≠ []) : ofValues notes base values = enumeration notes base values := by
  cases values with
  | nil => exact absurd rfl h
  | cons v values => rfl

theorem ofBranches_of_ne_nil {notes : Notes} {kind : Combinator} {branches : List Schema}
    (h : branches ≠ []) : ofBranches notes kind branches = combination notes kind branches := by
  cases branches with
  | nil => exact absurd rfl h
  | cons b branches => rfl

theorem ofType_of_isUnknownType {type : String} (h : isUnknownType type) (k : Keywords)
    (notes : Notes) : k.ofType notes type = anything notes (some type) := by
  obtain ⟨harray, hobject, hname⟩ := h
  rw [Keywords.ofType, if_neg harray, if_neg hobject, hname]

mutual

/-- There is nothing to tidy in a normal schema. -/
theorem tidied_of_isNormal : ∀ {s : Schema}, s.IsNormal → s.tidied = s
  | reference .., _ => rfl
  | primitive .., _ => rfl
  | enumeration .., h => ofValues_of_ne_nil h
  | array _ items, h => congrArg (array _) (tidiedOption_of_normal h)
  | object .., h => by
    rw [tidied, tidiedProperties_of_normal h.1, distinct_of_nodup h.2.1,
      tidiedOption_of_normal h.2.2]
  | combination .., h => by
    rw [tidied, tidiedBranches_of_normal h.2, ofBranches_of_ne_nil h.1]
  | anything _ none, _ => rfl
  | anything _ (some type), h => ofType_of_isUnknownType (h type rfl) {} _

theorem tidiedOption_of_normal : ∀ {o : Option Schema}, OptionNormal o → tidiedOption o = o
  | none, _ => rfl
  | some _, h => congrArg some (tidied_of_isNormal h)

theorem tidiedProperties_of_normal : ∀ {ps : List (String × Schema)}, PropertiesNormal ps →
    tidiedProperties ps = ps
  | [], _ => rfl
  | (_, _) :: _, h => by
    rw [tidiedProperties, tidied_of_isNormal h.1, tidiedProperties_of_normal h.2]

theorem tidiedBranches_of_normal : ∀ {bs : List Schema}, BranchesNormal bs →
    tidiedBranches bs = bs
  | [], _ => rfl
  | _ :: _, h => by rw [tidiedBranches, tidied_of_isNormal h.1, tidiedBranches_of_normal h.2]

end

/-- A normal schema is read back. -/
theorem read_toJson {s : Schema} (h : s.IsNormal) : read s.toJson = .ok s := by
  rw [read_toJson_eq_tidied, tidied_of_isNormal h]

end OpenApiClient.Schema
