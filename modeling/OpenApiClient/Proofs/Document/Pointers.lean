import OpenApiClient.Client.SchemaType
import OpenApiClient.Proofs.Document.Chains
import OpenApiClient.Proofs.Output.Segments

/-!
# Names in pointers

In a pointer every tilde of a name is written `~0`, and then every slash `~1`; so what stands behind
the last slash of a pointer is the whole name (`name_toComponent`). Reading undoes the slashes
first, which gives the name back with its tildes still escaped (`unescape_escape`). Whatever a
component is called, there is hence a pointer that leads to it and to nothing else
(`pointers_lead_to_components`).
-/

namespace OpenApiClient

namespace Text

variable {sep : Char}

theorem afterLast_append {after : List Char} (h : sep ∉ after) (before : List Char) :
    afterLast sep (before ++ sep :: after) = after := by
  rw [afterLast, splitOn_append_sep, splitOn_of_not_mem h, List.getLast?_concat, Option.getD_some]

end Text

namespace Pointer

/-! ## Escaped names -/

def escapeString (name : String) : String :=
  Text.replaceString "/" "~1" (Text.replaceString "~" "~0" name)

theorem escape_cons (c : Char) (cs : List Char) :
    escape (c :: cs) =
      (if c = '~' then ['~', '0'] else if c = '/' then ['~', '1'] else [c]) ++ escape cs :=
  List.flatMap_cons

/-- No slash is written for a tilde, so that both can be escaped at once. -/
theorem escape_eq_replace (cs : List Char) :
    escape cs = Text.replace '/' [] ['~', '1'] (Text.replace '~' [] ['~', '0'] cs) := by
  rw [Text.replace_char, Text.replace_char, List.flatMap_assoc, escape]
  refine congrArg (cs.flatMap ·) (funext fun c => ?_)
  by_cases htilde : c = '~'
  · subst htilde
    rfl
  · rw [if_neg htilde, if_neg htilde, List.flatMap_singleton]

theorem toList_escapeString (name : String) : (escapeString name).toList = escape name.toList := by
  rw [escape_eq_replace]
  show (String.ofList (Text.replace '/' [] ['~', '1']
    (String.ofList (Text.replace '~' [] ['~', '0'] name.toList)).toList)).toList = _
  rw [String.toList_ofList, String.toList_ofList]

theorem unescape_escape (cs : List Char) : unescape (escape cs) = cs := by
  rw [unescape, replace_escape, replace_escapeTildes]

theorem unescapeString_escapeString (name : String) :
    unescapeString (escapeString name) = name := by
  rw [unescapeString, toList_escapeString, unescape_escape, String.ofList_toList]

theorem slash_not_mem_escape (cs : List Char) : '/' ∉ escape cs := by
  induction cs with
  | nil => exact List.not_mem_nil
  | cons c cs ih =>
    rw [escape_cons, List.mem_append, not_or]
    refine ⟨?_, ih⟩
    by_cases htilde : c = '~'
    · rw [if_pos htilde]
      decide
    by_cases hslash : c = '/'
    · rw [if_neg htilde, if_pos hslash]
      decide
    · rw [if_neg htilde, if_neg hslash, List.mem_singleton]
      exact Ne.symm hslash

/-! ## Pointers to components -/

theorem toComponent_eq (sectionName name : String) :
    toComponent sectionName name = "#/components/" ++ sectionName ++ "/" ++ escapeString name := by
  have htext : ("#/components/" ++ sectionName ++ "/" ++ escapeString name).toList =
      sectionHead sectionName ++ escape name.toList := by
    rw [String.toList_append, toList_escapeString]
    rfl
  apply String.toList_inj.mp
  rw [htext, toComponent, String.toList_ofList]

theorem toList_toComponent (sectionName name : String) :
    (toComponent sectionName name).toList =
      ("#/components/" ++ sectionName).toList ++ '/' :: escape name.toList := by
  rw [toComponent_eq, String.toList_append, String.toList_append, toList_escapeString,
    List.append_assoc]
  rfl

theorem afterLast_toComponent (sectionName name : String) :
    Text.afterLast '/' (toComponent sectionName name).toList = escape name.toList := by
  rw [toList_toComponent]
  exact Text.afterLast_append (slash_not_mem_escape name.toList) _

/-- A pointer to a component ends in its name. -/
theorem name_toComponent (sectionName name : String) :
    Pointer.name (toComponent sectionName name) = name := by
  rw [Pointer.name, afterLast_toComponent, unescape_escape, String.ofList_toList]

/-- Different components have different pointers. -/
theorem toComponent_inj {sectionName name otherSection other : String} :
    toComponent otherSection other = toComponent sectionName name ↔
      otherSection = sectionName ∧ other = name := by
  constructor
  · intro heq
    have hname : other = name := by
      rw [← name_toComponent otherSection other, heq, name_toComponent]
    subst hname
    rw [toComponent_eq, toComponent_eq, String.append_left_inj, String.append_left_inj,
      String.append_right_inj] at heq
    exact ⟨heq, rfl⟩
  · rintro ⟨rfl, rfl⟩
    rfl

end Pointer

/-! ## What pointers lead to -/

namespace Inline

variable {components : List (String × Json)} {sectionName name : String} {v : Json}

theorem component?_eq_some_iff :
    component? components sectionName name = some v ↔
      ∃ entries, Entries.get? sectionName components = some (.obj entries) ∧
        Entries.get? name entries = some v := by
  rw [component?, Option.bind_eq_some_iff]
  constructor
  · rintro ⟨named, hsection, hname⟩
    obtain ⟨entries, hentries, hget⟩ := Option.bind_eq_some_iff.mp hname
    cases named with
    | obj entries' =>
      obtain rfl := Option.some.inj hentries
      exact ⟨entries', hsection, hget⟩
    | _ => cases hentries
  · rintro ⟨entries, hsection, hget⟩
    exact ⟨.obj entries, hsection, hget⟩

theorem target?_toComponent (components : List (String × Json)) (sectionName name : String) :
    target? components sectionName (Pointer.toComponent sectionName name) =
      component? components sectionName name := by
  rw [target?_eq, Pointer.nameIn?_toComponent, Option.bind_some]

/-- A reference to a component that is no reference stands for this component. -/
theorem resolve?_reference (hcomponent : component? components sectionName name = some v)
    (hpointer : pointer? v = none) :
    resolve? components sectionName (reference sectionName name) = some v := by
  have hleads : Leads components sectionName [name] (reference sectionName name) v :=
    Leads.next (refersTo?_reference sectionName name) hcomponent (Leads.here hpointer)
  have hlength : 1 < chainLimit := by decide
  exact resolve?_eq_some_iff.mpr ⟨[name], hlength, hleads⟩

end Inline

theorem TypeContext.referenceName?_toComponent (c : TypeContext) (name : String) :
    c.referenceName? (Pointer.toComponent "schemas" name) =
      (c.document.schema? name).map fun _ => c.typeName name := by
  rw [referenceName?, Pointer.name_toComponent]

/-- **Pointers.** Every name can be read back from its escaped form, and from a pointer to the
schema of that name. In every section, the pointer with the escaped name leads to the entry of that
name and to no other, and a reference with this pointer stands for the entry if that is no reference
itself; the type of a schema is found by its pointer. Different components have different
pointers. -/
theorem pointers_lead_to_components (name : String) :
    Pointer.unescapeString (Pointer.escapeString name) = name ∧
      Pointer.name ("#/components/schemas/" ++ Pointer.escapeString name) = name ∧
      (∀ (components : List (String × Json)) (sectionName : String) (v : Json),
        Inline.target? components sectionName
            ("#/components/" ++ sectionName ++ "/" ++ Pointer.escapeString name) = some v ↔
          ∃ entries, Entries.get? sectionName components = some (.obj entries) ∧
            Entries.get? name entries = some v) ∧
      (∀ (components : List (String × Json)) (sectionName : String) (v : Json),
        Inline.component? components sectionName name = some v → Inline.pointer? v = none →
          Inline.resolve? components sectionName (.obj [("$ref",
            .str ("#/components/" ++ sectionName ++ "/" ++ Pointer.escapeString name))]) =
              some v) ∧
      (∀ c : TypeContext,
        c.referenceName? ("#/components/schemas/" ++ Pointer.escapeString name) =
          (c.document.schema? name).map fun _ => c.typeName name) ∧
      ∀ sectionName otherSection other : String,
        "#/components/" ++ otherSection ++ "/" ++ Pointer.escapeString other =
            "#/components/" ++ sectionName ++ "/" ++ Pointer.escapeString name ↔
          otherSection = sectionName ∧ other = name := by
  have hschema : Pointer.toComponent "schemas" name =
      "#/components/schemas/" ++ Pointer.escapeString name :=
    Pointer.toComponent_eq "schemas" name
  refine ⟨Pointer.unescapeString_escapeString name, ?_, ?_, ?_, ?_, ?_⟩
  · rw [← hschema, Pointer.name_toComponent]
  · intro components sectionName v
    rw [← Pointer.toComponent_eq, Inline.target?_toComponent, Inline.component?_eq_some_iff]
  · intro components sectionName v hcomponent hpointer
    rw [← Pointer.toComponent_eq]
    exact Inline.resolve?_reference hcomponent hpointer
  · intro c
    rw [← hschema, TypeContext.referenceName?_toComponent]
  · intro sectionName otherSection other
    rw [← Pointer.toComponent_eq, ← Pointer.toComponent_eq, Pointer.toComponent_inj]

/-- Parameters of which one has a name with tildes and a slash, and another is called as the first
one is written in a pointer. -/
def tildeComponents : List (String × Json) :=
  [("parameters", .obj [("~01~1~00", .str "escaped"), ("~1/~0", .str "found"), ("//", .null)])]

/-- A reference to the name with tildes and a slash leads to the parameter of this name, and not to
the one that is called as the name is written. -/
theorem pointers_lead_to_components_tildes :
    Pointer.escapeString "~1/~0" = "~01~1~00" ∧
      Inline.component? tildeComponents "parameters" "~1/~0" = some (.str "found") ∧
      Inline.pointer? (.str "found") = none ∧
      Inline.resolve? tildeComponents "parameters" (.obj [("$ref",
        .str ("#/components/" ++ "parameters" ++ "/" ++ Pointer.escapeString "~1/~0"))]) =
          some (.str "found") := by
  have hcomponent : Inline.component? tildeComponents "parameters" "~1/~0" =
      some (.str "found") := by
    decide
  obtain ⟨-, -, -, hresolve, -⟩ := pointers_lead_to_components "~1/~0"
  exact ⟨by decide +kernel, hcomponent, rfl, hresolve tildeComponents "parameters" _ hcomponent rfl⟩

end OpenApiClient
