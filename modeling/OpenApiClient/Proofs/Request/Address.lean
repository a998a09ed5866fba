import OpenApiClient.Proofs.Request.Agreement

/-!
# The address of a request is its path

The address that is given to the call of a request is an expression, and it reads as the path of the
operation: a template literal if there is a placeholder whose name is not empty, else a text between
single quotes. The template has an expression exactly where the path has a pair of braces, an access
of the name between them, and all its other characters are those of the path (`address_mirrors`).

What a pair of braces is says `Mirrors`, without a word about cutting: an opening brace, the text up
to the next closing one, and that one. An opening brace that no closing one follows is a character
like all others.
-/

namespace OpenApiClient

theorem Text.not_mem_of_cutAt?_eq_none {sep : Char} {cs : List Char} (h : cutAt? sep cs = none) :
    sep ∉ cs := by
  intro hmem
  obtain ⟨before, after, rfl, hbefore⟩ := List.eq_append_cons_of_mem hmem
  simp [cutAt?_eq_some_iff.mpr ⟨rfl, hbefore⟩] at h

namespace Code

/-! ## Templates that mirror a text -/

/-- A template has the characters of a text and, for each pair of braces in it, an access of the
name between them. -/
inductive Mirrors (object : String) : List Char → List TemplateItem → Prop
  | nil : Mirrors object [] []
  | pair {name text rest : List Char} {items : List TemplateItem} (hname : '\x7d' ∉ name)
      (htext : accessedName? object text = some (String.ofList name))
      (h : Mirrors object rest items) :
      Mirrors object ('\x7b' :: name ++ '\x7d' :: rest) (.expression text :: items)
  | char {c : Char} {rest : List Char} {items : List TemplateItem}
      (hc : c = '\x7b' → '\x7d' ∉ rest) (h : Mirrors object rest items) :
      Mirrors object (c :: rest) (.char c :: items)

/-- The text of a template with its expressions put back between braces, if all of them are
accesses. -/
def putBack? (object : String) : List TemplateItem → Option (List Char)
  | [] => some []
  | .char c :: items => (putBack? object items).map (c :: ·)
  | .expression text :: items => do
    let name ← accessedName? object text
    return '\x7b' :: name.toList ++ '\x7d' :: (← putBack? object items)

/-- A template reads a property of an object whose name is not empty. -/
def ReadsName (object : String) (items : List TemplateItem) : Prop :=
  ∃ text, .expression text ∈ items ∧ ∃ name, accessedName? object text = some name ∧ name ≠ ""

section Mirrors

variable {object : String} {items : List TemplateItem}

theorem Mirrors.putBack? {text : List Char} (h : Mirrors object text items) :
    putBack? object items = some text := by
  induction h with
  | nil => rfl
  | pair _ htext _ ih => simp [Code.putBack?, htext, ih]
  | char _ _ ih => simp [Code.putBack?, ih]

/-- Without a closing brace every character stands for itself. -/
theorem mirrors_of_no_closing {text : List Char} (h : '\x7d' ∉ text) :
    Mirrors object text (text.map .char) := by
  induction text with
  | nil => exact .nil
  | cons c text ih =>
    obtain ⟨-, htext⟩ := List.ne_and_not_mem_of_not_mem_cons h
    exact .char (fun _ => htext) (ih htext)

/-- Without an opening brace every character stands for itself in front of the rest. -/
theorem Mirrors.append_fixed {before rest : List Char} (hbefore : '\x7b' ∉ before)
    (h : Mirrors object rest items) :
    Mirrors object (before ++ rest) (before.map .char ++ items) := by
  induction before with
  | nil => exact h
  | cons c before ih =>
    obtain ⟨hc, hrest⟩ := List.ne_and_not_mem_of_not_mem_cons hbefore
    exact .char (fun heq => absurd heq.symm hc) (ih hrest)

end Mirrors

end Code

/-! ## The template of a path -/

namespace PathPiece

/-- The cut of a path finds its pairs of braces. -/
theorem mirrors_cut (object : String) (path : List Char) :
    Code.Mirrors object path ((cut path).flatMap (items object)) := by
  -- the cut stops without an opening brace or at one that nothing closes, else it finds a pair
  fun_induction cut path with
  | case1 path h =>
    have hpath := Text.not_mem_of_cutAt?_eq_none h
    simpa [items] using Code.Mirrors.nil.append_fixed hpath
  | case2 path before after h h' =>
    obtain ⟨rfl, hbefore⟩ := Text.cutAt?_eq_some_iff.mp h
    have hafter := Text.not_mem_of_cutAt?_eq_none h'
    have hrest : Code.Mirrors object ('\x7b' :: after) (('\x7b' :: after).map .char) :=
      Code.mirrors_of_no_closing (by simp [hafter])
    simpa [items] using hrest.append_fixed hbefore
  | case3 path before after h name rest h' _ ih =>
    obtain ⟨rfl, hbefore⟩ := Text.cutAt?_eq_some_iff.mp h
    obtain ⟨rfl, hname⟩ := Text.cutAt?_eq_some_iff.mp h'
    have hpair := Code.Mirrors.pair hname
      (Code.accessedName?_propertyAccess object (String.ofList name)) ih
    simpa [items] using hpair.append_fixed hbefore

/-- The template of a path reads a name exactly if the path has a placeholder. -/
theorem readsName_iff (object path : String) :
    Code.ReadsName object ((cut path.toList).flatMap (items object)) ↔
      PathTemplate.placeholders path ≠ [] := by
  have hexpression (text : List Char) :
      Code.TemplateItem.expression text ∈ (cut path.toList).flatMap (items object) ↔
        ∃ name ∈ PathTemplate.namesBetween path,
          (Code.propertyAccess object name).toList = text := by
    have hitems := expressions_items object (cut path.toList)
    rw [PathTemplate.namesBetween, ← List.mem_map, ← hitems, List.mem_filterMap]
    constructor
    · intro hmem
      exact ⟨_, hmem, rfl⟩
    · rintro ⟨item, hmem, hitem⟩
      cases item with
      | char c => cases hitem
      | expression text' =>
        cases hitem
        exact hmem
  constructor
  · rintro ⟨text, hmem, name, hname, hne⟩
    obtain ⟨between, hbetween, rfl⟩ := (hexpression text).mp hmem
    rw [Code.accessedName?_propertyAccess, Option.some.injEq] at hname
    have hplaceholder := PathTemplate.mem_placeholders.mpr ⟨hbetween, hname ▸ hne⟩
    exact List.ne_nil_of_mem hplaceholder
  · intro hne
    obtain ⟨name, hmem⟩ := List.exists_mem_of_ne_nil _ hne
    obtain ⟨hbetween, hname⟩ := PathTemplate.mem_placeholders.mp hmem
    exact ⟨_, (hexpression _).mpr ⟨name, hbetween, rfl⟩, name,
      Code.accessedName?_propertyAccess object name, hname⟩

end PathPiece

namespace RequestShape

section Address

variable (c : TypeContext) (op : PlannedOperation)

theorem path_isEmpty_iff :
    (of c op).value.path.isEmpty = true ↔ PathTemplate.placeholders op.endpoint.path = [] := by
  rw [← map_name_path c op, List.isEmpty_iff, List.map_eq_nil_iff]

/-- **Addresses.** For every operation the call begins with the address, and there is a template
that mirrors the path: it has an access for each pair of braces and the other characters of the
path, in order, so that the path is found again by putting the names back. If the template reads a
name that is not empty, the address is a template literal that is read as this template up to its
last character; else it is a text between single quotes that is read as the path up to its last
character. -/
theorem address_mirrors :
    ∃ url items,
      ((of c op).value.call op.endpoint).head? = some ("url", .expression url) ∧
        Code.Mirrors argumentName op.endpoint.path.toList items ∧
        Code.putBack? argumentName items = some op.endpoint.path.toList ∧
        (Code.ReadsName argumentName items →
          ∃ rest, url.toList = '`' :: rest ∧ Code.readTemplate? rest = some items) ∧
        (¬Code.ReadsName argumentName items →
          ∃ rest, url.toList = '\'' :: rest ∧
            Code.readQuoted? rest = some op.endpoint.path.toList) := by
  have hmirrors := PathPiece.mirrors_cut argumentName op.endpoint.path.toList
  have hempty := path_isEmpty_iff c op
  refine ⟨_, _, rfl, hmirrors, hmirrors.putBack?, ?_, ?_⟩
  · intro hreads
    have hne := (PathPiece.readsName_iff argumentName op.endpoint.path).mp hreads
    rw [address, if_neg (mt hempty.mp hne)]
    exact PathTemplate.readTemplate?_address (by decide) op.endpoint.path
  · intro hreads
    have hnil := not_not.mp (mt (PathPiece.readsName_iff argumentName op.endpoint.path).mpr hreads)
    rw [address, if_pos (hempty.mpr hnil), Code.toList_singleQuoted]
    exact ⟨_, rfl, Code.readQuoted?_flatMap_guarded op.endpoint.path.toList⟩

end Address

end RequestShape

end OpenApiClient
