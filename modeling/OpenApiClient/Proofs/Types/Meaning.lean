import OpenApiClient.Client.SchemaType
import OpenApiClient.Proofs.Code.TypeText
import OpenApiClient.Proofs.Repetitions
import OpenApiClient.Proofs.Schema.Normal

/-!
# What the type of a schema says

A schema means a type, by recursion on the schema (`Schema.meaning`), and the text that is written
for it is read back as this type (`toType_faithful`). Whether an item type stands in parentheses is
decided by its text alone; what carries the proof is that the text of a union always has a bar
between blanks, so that every text without one is an operand (`Reads`).
-/

namespace OpenApiClient

open Code (Atom TypeTree Token)

/-- The word that a scalar is as a type. -/
def literalAtom? : Json → Option Atom
  | .null => some (.name "null")
  | .bool true => some (.name "true")
  | .bool false => some (.name "false")
  | .num n => some (.number n.text)
  | .str s => some (.string s)
  | .arr _ | .obj _ => none

/-- What a closed list of values means: one of the values, each named once, if all are scalars. -/
def enumerationMeaning (values : List Json) : TypeTree :=
  match values.mapM literalAtom? with
  | none => .any
  | some as => .oneOf as.eraseDups

namespace Schema

mutual

def meaning (c : TypeContext) : Schema → TypeTree
  | reference _ pointer =>
    match c.document.schema? (Pointer.name pointer) with
    | some _ => .atom (.name (c.typeName (Pointer.name pointer)))
    | none => .any
  | primitive _ p => .atom (.name p.typeName)
  | enumeration _ _ values => enumerationMeaning values
  | array _ none => .array .any
  | array _ (some items) => .array (meaning c items)
  | object _ [] _ none => .record .any
  | object _ [] _ (some extra) => .record (meaning c extra)
  | object _ (p :: ps) required _ => .object (memberMeanings c required (p :: ps))
  | combination _ _ _ => .any
  | anything _ type => if type = some "null" then .atom (.name "null") else .any
termination_by structural s => s

/-- The members that the properties of an object mean, in order. -/
def memberMeanings (c : TypeContext) (required : List String) :
    List (String × Schema) → List (String × Bool × TypeTree)
  | [] => []
  | (name, s) :: rest =>
    (name, !required.contains name, meaning c s) :: memberMeanings c required rest
termination_by structural ps => ps

end

/-- Whether the numbers in the values of a schema are integers or finite doubles. -/
def HasFiniteValues : Schema → Prop
  | enumeration _ _ values => ∀ n, Json.num n ∈ values → n.IsFinite
  | _ => True

end Schema

/-! ## Literals -/

theorem literal?_eq (v : Json) : literal? v = (literalAtom? v).map Atom.text := by
  cases v with
  | bool b => cases b <;> rfl
  | _ => rfl

theorem mapM_literal? (values : List Json) :
    values.mapM literal? = (values.mapM literalAtom?).map (List.map Atom.text) := by
  induction values with
  | nil => rfl
  | cons v values ih =>
    simp only [List.mapM_cons, ih, literal?_eq]
    cases literalAtom? v with
    | none => rfl
    | some a =>
      cases values.mapM literalAtom? with
      | none => rfl
      | some as => rfl

theorem isLegible_literalAtom? {v : Json} {a : Atom} (h : literalAtom? v = some a)
    (hfinite : ∀ n, v = .num n → n.IsFinite) : a.IsLegible := by
  cases v with
  | null =>
    cases h
    exact Code.lexesBefore_name (by decide)
  | bool b =>
    cases b with
    | false =>
      cases h
      exact Code.lexesBefore_name (by decide)
    | true =>
      cases h
      exact Code.lexesBefore_name (by decide)
  | num n =>
    cases h
    exact Code.lexesBefore_numeral (Json.isNumeral_text (hfinite n rfl))
  | str s =>
    cases h
    exact (Code.lexes_quote s).before
  | arr items => cases h
  | obj entries => cases h

theorem isLegible_of_mapM {values : List Json} {as : List Atom}
    (h : values.mapM literalAtom? = some as) (hfinite : ∀ n, .num n ∈ values → n.IsFinite) :
    ∀ a ∈ as, a.IsLegible := by
  induction values generalizing as with
  | nil =>
    cases h
    simp
  | cons v values ih =>
    rw [List.mapM_cons, Option.bind_eq_bind, Option.bind_eq_some_iff] at h
    obtain ⟨a, ha, h⟩ := h
    obtain ⟨rest, hrest, h⟩ := Option.bind_eq_some_iff.mp h
    cases h
    have hv := isLegible_literalAtom? ha fun n hn => hfinite n (by simp [hn])
    have hvalues := ih hrest fun n hn => hfinite n (List.mem_cons_of_mem _ hn)
    intro b hb
    rcases List.mem_cons.mp hb with rfl | hb
    · exact hv
    · exact hvalues b hb

namespace Schema

open Code (Reads ReadsMembers TypeExpr)

theorem reads_any (depth : Nat) : Reads (TypeExpr.write depth .any) .any :=
  Code.reads_name (by decide)

/-- A closed list of values is written as the words of its values, each once. -/
theorem reads_enumerationType {values : List Json} (hfinite : ∀ n, .num n ∈ values → n.IsFinite)
    (depth : Nat) :
    Reads (TypeExpr.write depth (enumerationType values)) (enumerationMeaning values) := by
  rw [enumerationType, literals?, mapM_literal?, enumerationMeaning]
  cases hatoms : values.mapM literalAtom? with
  | none => exact reads_any depth
  | some as =>
    have hlegible := isLegible_of_mapM hatoms hfinite
    have hdups : (as.map Atom.text).eraseDups = as.eraseDups.map Atom.text :=
      eraseDups_map fun a ha b hb => (hlegible a ha).injective (hlegible b hb)
    have hkept : ∀ a ∈ as.eraseDups, a.IsLegible := fun a ha =>
      hlegible a (List.mem_eraseDups.mp ha)
    simp only [Option.map_some, hdups]
    generalize as.eraseDups = kept at hkept ⊢
    cases kept with
    | nil => exact reads_any depth
    | cons a kept =>
      have hreads := Code.reads_join (hkept a List.mem_cons_self) fun b hb =>
        hkept b (List.mem_cons_of_mem _ hb)
      have hwrite : TypeExpr.write depth (.literals ((a :: kept).map Atom.text)) =
          Text.join TypeExpr.bar ((a :: kept).map fun b => b.text.toList) := by
        show Text.join TypeExpr.bar (((a :: kept).map Atom.text).map String.toList) = _
        rw [List.map_map]
        rfl
      rw [← hwrite] at hreads
      exact hreads

theorem isIdentifier_of_isWord {name : String} (h : Code.isWord name = true) :
    Code.isIdentifier name = true := by
  rw [Code.isWord] at h
  rw [Code.isIdentifier]
  cases hname : name.toList with
  | nil => simp [hname] at h
  | cons c rest =>
    rw [hname] at h
    obtain ⟨hfirst, hrest⟩ := Bool.and_eq_true_iff.mp h
    refine Bool.and_eq_true_iff.mpr ⟨?_, ?_⟩
    · rw [Code.isIdentifierStart, hfirst, Bool.true_or]
    · refine List.all_eq_true.mpr fun d hd => ?_
      have hword := List.all_eq_true.mp hrest d hd
      rw [Code.isWordChar] at hword
      rw [Code.isIdentifierPart, hword, Bool.true_or]

variable (c : TypeContext)

mutual

/-- The text of a schema at any depth is read as what the schema means. -/
theorem reads_toType : ∀ (s : Schema) (depth : Nat), (∀ t ∈ s.nodes, t.HasFiniteValues) →
    Reads (TypeExpr.write depth (s.toType c)) (s.meaning c)
  | reference _ pointer, depth, _ => by
    rw [toType, meaning, TypeContext.referenceName?]
    cases c.document.schema? (Pointer.name pointer) with
    | none => exact reads_any depth
    | some s => exact Code.reads_name (isIdentifier_of_isWord (NameStyle.isWord_format _ _))
  | primitive _ p, depth, _ => by
    cases p <;> exact Code.reads_name (by decide)
  | enumeration notes base values, depth, h => by
    have hvalues := h (enumeration notes base values) (by simp [nodes])
    exact reads_enumerationType hvalues depth
  | array _ none, depth, _ => (reads_any depth).array
  | array notes (some items), depth, h => by
    have hitems := reads_toType items depth fun t ht =>
      h t (by simp [nodes, optionNodes, ht])
    exact hitems.array
  | object _ [] _ none, depth, _ => (reads_any depth).record
  | object notes [] required (some extra), depth, h => by
    have hextra := reads_toType extra depth fun t ht =>
      h t (by simp [nodes, optionNodes, ht])
    exact hextra.record
  | object notes (p :: ps) required extra, depth, h => by
    have hmembers := readsMembers_memberTypes required (p :: ps) (depth + 1) fun t ht =>
      h t (by rw [nodes]; exact List.mem_cons_of_mem _ (List.mem_append_left _ ht))
    cases extra <;> exact hmembers.object depth
  | combination _ _ _, depth, _ => reads_any depth
  | anything _ type, depth, _ => by
    rw [toType, meaning]
    split_ifs
    · exact Code.reads_name (by decide)
    · exact reads_any depth

theorem readsMembers_memberTypes (required : List String) :
    ∀ (ps : List (String × Schema)) (depth : Nat), (∀ t ∈ propertyNodes ps, t.HasFiniteValues) →
      ReadsMembers (TypeExpr.writeMembers depth (memberTypes c required ps))
        (memberMeanings c required ps)
  | [], _, _ => .nil
  | (name, s) :: rest, depth, h => by
    have htype := reads_toType s depth fun t ht =>
      h t (by rw [propertyNodes]; exact List.mem_append_left _ ht)
    have hrest := readsMembers_memberTypes required rest depth fun t ht =>
      h t (by rw [propertyNodes]; exact List.mem_append_right _ ht)
    exact hrest.cons htype depth (memberHead c required name s)

end

/-- **Types.** The text of the type of a schema is a type expression, and it says what the schema
means: it is read back as the meaning of the schema, whatever the names, values and comments in it
are. -/
theorem toType_faithful {s : Schema} (h : ∀ t ∈ s.nodes, t.HasFiniteValues) :
    Code.readType? (s.toType c).text.toList = some (s.meaning c) := by
  rw [TypeExpr.text, String.toList_ofList]
  exact (reads_toType c s 0 h).readType?

/-- A list of objects whose keys, values and comments look like parts of types. -/
def deceptive : Schema :=
  .array .none (some (.object .none
    [("a | b", .array .none (some (.enumeration .none none
        [.str "x\" | [", .num (.int (-1)), .str "x\" | [", .null]))),
      ("id", .reference ⟨some "*/ \x7d", none, none⟩ "#/components/schemas/pet"),
      ("rest", .object .none [] [] (some (.combination .none .oneOf [])))] ["id"] none))

theorem toType_faithful_deceptive :
    let document : Document :=
      ⟨"3.0.0", ⟨"T", "1", none⟩, [], some ⟨[("pet", .anything .none none)], [], [], []⟩, [],
        by decide⟩
    (∀ t ∈ deceptive.nodes, t.HasFiniteValues) ∧
      Code.readType? (deceptive.toType ⟨document, .pascal, true⟩).text.toList =
        some (.array (.object
          [("a | b", true, .array (.union
              [.atom (.string "x\" | ["), .atom (.number "-1"), .atom (.name "null")])),
            ("id", false, .atom (.name "Pet")),
            ("rest", true, .record .any)])) := by
  intro document
  have hfinite : ∀ t ∈ deceptive.nodes, t.HasFiniteValues := by
    simp [deceptive, nodes, optionNodes, propertyNodes, branchNodes, HasFiniteValues,
      Json.Number.IsFinite]
  refine ⟨hfinite, (toType_faithful ⟨document, .pascal, true⟩ hfinite).trans ?_⟩
  have hpointer : Pointer.name "#/components/schemas/pet" = "pet" := by decide +kernel
  have hname : NameStyle.pascal.format "pet" = "Pet" := by decide +kernel
  have hpet : document.schema? "pet" = some (.anything .none none) := rfl
  have hvalues : enumerationMeaning [.str "x\" | [", .num (.int (-1)), .str "x\" | [", .null] =
      .union [.atom (.string "x\" | ["), .atom (.number "-1"), .atom (.name "null")] := by
    cbv
  simp [deceptive, meaning, memberMeanings, hvalues, hpointer, hpet, TypeContext.typeName, hname]

end Schema

end OpenApiClient
