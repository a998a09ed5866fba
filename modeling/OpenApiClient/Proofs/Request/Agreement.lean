import OpenApiClient.Client.RequestShape
import OpenApiClient.Proofs.Code.Template
import OpenApiClient.Proofs.Noted

/-!
# Fields of a request and what the call reads

The type of a request and the call that is made from it come from one shape. The names of the fields
are told from the keys of the type (`fieldNames`), and what the call reads from its expressions
(`readNames`). Both lists have the fields of the query, the headers and the body; they differ in the
path. The type has a field for each placeholder, once and only if its name is not empty, while the
address reads every pair of braces. So the call reads all fields, and besides them at most one, the
one with the empty name (`call_reads_fields`).
-/

namespace OpenApiClient

namespace Code

/-- The properties of an object that an expression of a call reads: a text between single quotes
reads none, a template literal those of its expressions, and everything else must be an access. -/
def readsOf? (object text : String) : Option (List String) :=
  match text.toList with
  | '\'' :: rest => (readQuoted? rest).map fun _ => []
  | '`' :: rest =>
    (readTemplate? rest).bind fun items =>
      (items.filterMap TemplateItem.expression?).mapM (accessedName? object)
  | chars => (accessedName? object chars).map fun name => [name]

mutual

def Value.reads? (object : String) : Value → Option (List String)
  | .expression text => readsOf? object text
  | .object properties => propertyReads? object properties
termination_by structural v => v

def propertyReads? (object : String) : List (String × Value) → Option (List String)
  | [] => some []
  | (_, v) :: rest => do return (← v.reads? object) ++ (← propertyReads? object rest)
termination_by structural ps => ps

end

/-- Every property of an object literal is read from the property of the same name. -/
def Value.KeepsNames (object : String) : Value → Prop
  | .expression _ => True
  | .object properties =>
    ∀ p ∈ properties, ∃ name, keyName? p.1 = some name ∧ p.2.reads? object = some [name]

theorem readsOf?_singleQuoted (object s : String) : readsOf? object (singleQuoted s) = some [] := by
  rw [readsOf?, toList_singleQuoted]
  simp [readQuoted?_flatMap_guarded]

theorem reads?_ofText (object s : String) : (Value.ofText s).reads? object = some [] :=
  readsOf?_singleQuoted object s

theorem propertyReads?_append {object : String} {ps qs : List (String × Value)}
    {names more : List String} (hps : propertyReads? object ps = some names)
    (hqs : propertyReads? object qs = some more) :
    propertyReads? object (ps ++ qs) = some (names ++ more) := by
  induction ps generalizing names with
  | nil =>
    cases hps
    exact hqs
  | cons p ps ih =>
    obtain ⟨own, hown, hrest⟩ := Option.bind_eq_some_iff.mp hps
    obtain ⟨others, hothers, hnames⟩ := Option.bind_eq_some_iff.mp hrest
    cases hnames
    simp [propertyReads?, hown, ih hothers]

end Code

/-! ## The address -/

/-- The name between the braces of a placeholder, which may be empty. -/
def PathPiece.between? : PathPiece → Option String
  | fixed _ => none
  | placeholder name => some (String.ofList name)

/-- The names between the braces of a path, in order. -/
def PathTemplate.namesBetween (path : String) : List String :=
  (PathPiece.cut path.toList).filterMap PathPiece.between?

theorem PathPiece.name?_eq_some_iff {piece : PathPiece} {name : String} :
    piece.name? = some name ↔ piece.between? = some name ∧ name ≠ "" := by
  cases piece with
  | fixed text => simp [name?, between?]
  | placeholder chars =>
    cases chars with
    | nil => simp [name?, between?, eq_comm]
    | cons c chars =>
      simp only [name?, between?, Option.some.injEq, iff_self_and]
      rintro rfl h
      simpa using congrArg String.toList h

/-- The placeholders of a path are what is between its braces, without empty names. -/
theorem PathTemplate.mem_placeholders {path name : String} :
    name ∈ placeholders path ↔ name ∈ namesBetween path ∧ name ≠ "" := by
  simp only [placeholders, namesBetween, List.mem_eraseDups, List.mem_filterMap,
    PathPiece.name?_eq_some_iff, ← and_assoc, exists_and_right]

/-- The expressions of an address are accesses of what is between the braces. -/
theorem PathPiece.expressions_items (object : String) (pieces : List PathPiece) :
    (pieces.flatMap (items object)).filterMap Code.TemplateItem.expression? =
      (pieces.filterMap between?).map fun name => (Code.propertyAccess object name).toList := by
  induction pieces with
  | nil => rfl
  | cons piece pieces ih =>
    rw [List.flatMap_cons, List.filterMap_append, ih]
    cases piece with
    | fixed text =>
      have hnone : (items object (fixed text)).filterMap Code.TemplateItem.expression? = [] := by
        simp [items, Code.TemplateItem.expression?]
      rw [hnone]
      rfl
    | placeholder name => rfl

theorem Code.mapM_accessedName? (object : String) (names : List String) :
    (names.map fun name => (propertyAccess object name).toList).mapM (accessedName? object) =
      some names := by
  induction names with
  | nil => rfl
  | cons name names ih =>
    simp only [List.map_cons, List.mapM_cons, accessedName?_propertyAccess, ih,
      Option.bind_eq_bind, Option.bind_some]
    rfl

namespace RequestShape

theorem readsOf?_access (name : String) :
    Code.readsOf? argumentName (access name) = some [name] := by
  have hname := Code.accessedName?_propertyAccess argumentName name
  have hfirst : ∃ rest, (access name).toList = 'p' :: rest := by
    unfold access Code.propertyAccess argumentName
    split_ifs <;> simp
  obtain ⟨rest, hrest⟩ := hfirst
  rw [access] at hrest ⊢
  rw [Code.readsOf?, hrest]
  rw [hrest] at hname
  simp [hname]

theorem readsOf?_pathAddress (path : String) :
    Code.readsOf? argumentName (PathTemplate.address argumentName path) =
      some (PathTemplate.namesBetween path) := by
  have hobject : '\x7d' ∉ argumentName.toList := by decide
  obtain ⟨rest, hrest, hitems⟩ := PathTemplate.readTemplate?_address hobject path
  rw [Code.readsOf?, hrest]
  simp only [hitems, Option.bind_some, PathPiece.expressions_items, Code.mapM_accessedName?,
    PathTemplate.namesBetween]

end RequestShape

/-! ## Fields and reads of a shape -/

def BodyShape.names : BodyShape → List String
  | absent => []
  | fields fs => fs.map RequestField.name
  | whole _ _ => ["body"]

namespace RequestShape

variable (s : RequestShape) (e : Endpoint)

/-- The names of the fields besides those of the path. -/
def otherNames : List String :=
  s.query.map RequestField.name ++ (if s.headers.isEmpty then [] else ["headers"]) ++
    s.body.names

def fieldNames : List String :=
  s.path.map RequestField.name ++ s.otherNames

/-- The names of the fields that the call reads, in its order. -/
def readNames : List String :=
  (if s.path.isEmpty then [] else PathTemplate.namesBetween e.path) ++ s.otherNames

theorem map_keyName?_member (fields : List RequestField) :
    (fields.map RequestField.member).map (fun m => Code.keyName? m.key) =
      (fields.map RequestField.name).map some := by
  simp [RequestField.member, Code.keyName?_propertyKey]

theorem map_keyName?_headerMembers :
    s.headerMembers.map (fun m => Code.keyName? m.key) =
      (if s.headers.isEmpty then [] else ["headers"]).map some := by
  have hkey : Code.keyName? "headers" = some "headers" := by decide
  unfold headerMembers
  split_ifs
  · rfl
  · exact congrArg (· :: []) hkey

theorem map_keyName?_bodyMembers :
    s.bodyMembers.map (fun m => Code.keyName? m.key) = s.body.names.map some := by
  have hkey : Code.keyName? "body" = some "body" := by decide
  unfold bodyMembers
  cases s.body with
  | absent => rfl
  | fields fields => exact map_keyName?_member fields
  | whole type required => exact congrArg (· :: []) hkey

/-- The keys of the type of a request are those of its fields. -/
theorem map_keyName?_members :
    s.members.map (fun m => Code.keyName? m.key) = s.fieldNames.map some := by
  simp only [members, fieldNames, otherNames, List.map_append, map_keyName?_member,
    map_keyName?_headerMembers, map_keyName?_bodyMembers, List.append_assoc]

theorem reads?_passOn (fields : List RequestField) :
    (passOn fields).reads? argumentName = some (fields.map RequestField.name) := by
  rw [passOn, Code.Value.reads?]
  induction fields with
  | nil => rfl
  | cons f fields ih =>
    simp [Code.propertyReads?, Code.Value.reads?, readsOf?_access, ih]

theorem keepsNames_passOn (fields : List RequestField) :
    (passOn fields).KeepsNames argumentName := by
  rintro p hp
  obtain ⟨f, -, rfl⟩ := List.mem_map.mp hp
  exact ⟨f.name, Code.keyName?_propertyKey f.name, readsOf?_access f.name⟩

theorem reads?_address :
    Code.readsOf? argumentName (s.address e.path) =
      some (if s.path.isEmpty then [] else PathTemplate.namesBetween e.path) := by
  unfold address
  split_ifs
  · exact Code.readsOf?_singleQuoted argumentName e.path
  · exact readsOf?_pathAddress e.path

theorem propertyReads?_callBody :
    Code.propertyReads? argumentName s.callBody = some s.body.names := by
  unfold callBody
  cases s.body with
  | absent => rfl
  | fields fields => simp [Code.propertyReads?, reads?_passOn, BodyShape.names]
  | whole type required =>
    simp [Code.propertyReads?, Code.Value.reads?, readsOf?_access, BodyShape.names]

/-- The call reads what is between the braces of the path and all other fields. -/
theorem propertyReads?_call :
    Code.propertyReads? argumentName (s.call e) = some (s.readNames e) := by
  have hhead : Code.propertyReads? argumentName
      [("url", .expression (s.address e.path)), ("method", .ofText e.method.wireName)] =
        some (if s.path.isEmpty then [] else PathTemplate.namesBetween e.path) := by
    simp [Code.propertyReads?, Code.Value.reads?, reads?_address, Code.reads?_ofText]
  have hquery : Code.propertyReads? argumentName
      (if s.query.isEmpty then [] else [("params", passOn s.query)]) =
        some (s.query.map RequestField.name) := by
    split_ifs with hempty
    · simp [List.isEmpty_iff.mp hempty, Code.propertyReads?]
    · simp [Code.propertyReads?, reads?_passOn]
  have hheaders : Code.propertyReads? argumentName
      (if s.headers.isEmpty then [] else [("headers", .expression (access "headers"))]) =
        some (if s.headers.isEmpty then [] else ["headers"]) := by
    split_ifs
    · rfl
    · simp [Code.propertyReads?, Code.Value.reads?, readsOf?_access]
  have hall := Code.propertyReads?_append
    (Code.propertyReads?_append (Code.propertyReads?_append hhead hquery) hheaders)
    s.propertyReads?_callBody
  simpa only [call, readNames, otherNames, List.append_assoc] using hall

theorem keepsNames_call : ∀ p ∈ s.call e, p.2.KeepsNames argumentName := by
  intro p hp
  simp only [call, List.mem_append] at hp
  rcases hp with ((hp | hp) | hp) | hp
  · simp only [List.mem_cons, List.not_mem_nil, or_false] at hp
    rcases hp with rfl | rfl <;> trivial
  · split_ifs at hp
    · simp at hp
    · rw [List.mem_singleton.mp hp]
      exact keepsNames_passOn s.query
  · split_ifs at hp
    · simp at hp
    · rw [List.mem_singleton.mp hp]
      trivial
  · unfold callBody at hp
    cases hbody : s.body with
    | absent => simp [hbody] at hp
    | fields fields =>
      simp only [hbody, List.mem_singleton] at hp
      rw [hp]
      exact keepsNames_passOn fields
    | whole type required =>
      simp only [hbody, List.mem_singleton] at hp
      rw [hp]
      trivial

/-! ## Shapes of operations -/

theorem name_placeholderField (c : TypeContext) (location : String) (op : Operation)
    (name : String) : (placeholderField c location op name).value.name = name := by
  unfold placeholderField
  cases hfind : (op.parametersIn .path).find? fun p => p.name == name with
  | none => rfl
  | some p =>
    have hname := List.find?_some hfind
    exact eq_of_beq hname

/-- The fields of the path are its placeholders. -/
theorem map_name_path (c : TypeContext) (op : PlannedOperation) :
    (of c op).value.path.map RequestField.name =
      PathTemplate.placeholders op.endpoint.path := by
  have hpath : (of c op).value.path =
      (Noted.each (placeholderField c op.location op.operation)
        (PathTemplate.placeholders op.endpoint.path)).value := rfl
  rw [hpath, Noted.value_each, List.map_map]
  simp only [Function.comp_def, name_placeholderField, List.map_id']

section Operation

variable (c : TypeContext) (op : PlannedOperation) (name : String)

theorem mem_fieldNames :
    name ∈ (of c op).value.fieldNames ↔
      (name ∈ PathTemplate.namesBetween op.endpoint.path ∧ name ≠ "") ∨
        name ∈ (of c op).value.otherNames := by
  rw [fieldNames, List.mem_append, map_name_path, PathTemplate.mem_placeholders]

theorem mem_readNames :
    name ∈ (of c op).value.readNames op.endpoint ↔
      (PathTemplate.placeholders op.endpoint.path ≠ [] ∧
        name ∈ PathTemplate.namesBetween op.endpoint.path) ∨
          name ∈ (of c op).value.otherNames := by
  have hempty : (of c op).value.path.isEmpty = true ↔
      PathTemplate.placeholders op.endpoint.path = [] := by
    rw [← map_name_path c op, List.isEmpty_iff, List.map_eq_nil_iff]
  rw [readNames, List.mem_append]
  split_ifs with h
  · simp [hempty.mp h]
  · simp [mt hempty.mpr h]

/-- **Fields and reads.** For every operation the keys of the type of its request name the fields,
and the expressions of the call are accesses of fields; in the object literals of the call each
property is read from the field of its name. The call reads every field, and it reads no other one
but the one with the empty name. So the two agree exactly if there is a field of the empty name
whenever a path with placeholders has empty braces. -/
theorem call_reads_fields :
    ∃ fields reads : List String,
      (of c op).value.members.map (fun m => Code.keyName? m.key) = fields.map some ∧
        Code.propertyReads? argumentName ((of c op).value.call op.endpoint) = some reads ∧
        (∀ p ∈ (of c op).value.call op.endpoint, p.2.KeepsNames argumentName) ∧
        (∀ name ∈ fields, name ∈ reads) ∧
        (∀ name ∈ reads, name ∈ fields ∨ name = "") ∧
        ((∀ name, name ∈ reads ↔ name ∈ fields) ↔
          (PathTemplate.placeholders op.endpoint.path ≠ [] →
            "" ∈ PathTemplate.namesBetween op.endpoint.path → "" ∈ fields)) := by
  -- a field of the path has a name that is not empty, so there is a placeholder and it is read
  have hfield : ∀ name ∈ (of c op).value.fieldNames,
      name ∈ (of c op).value.readNames op.endpoint := by
    intro name hname
    rw [mem_readNames]
    rcases (mem_fieldNames c op name).mp hname with hpath | hother
    · have hmem := PathTemplate.mem_placeholders.mpr hpath
      exact Or.inl ⟨List.ne_nil_of_mem hmem, hpath.1⟩
    · exact Or.inr hother
  have hread : ∀ name ∈ (of c op).value.readNames op.endpoint,
      name ∈ (of c op).value.fieldNames ∨ name = "" := by
    intro name hname
    -- both sides read the braces alike but for the empty name
    by_cases hempty : name = ""
    · exact Or.inr hempty
    · rw [mem_fieldNames]
      rcases (mem_readNames c op name).mp hname with hpath | hother
      · exact Or.inl (Or.inl ⟨hpath.2, hempty⟩)
      · exact Or.inl (Or.inr hother)
  refine ⟨_, _, map_keyName?_members _, propertyReads?_call _ _, keepsNames_call _ _, hfield, hread,
    ?_⟩
  constructor
  · intro hagree hplaceholders hbraces
    exact (hagree "").mp ((mem_readNames c op "").mpr (Or.inl ⟨hplaceholders, hbraces⟩))
  · intro hcovered name
    refine ⟨fun hname => ?_, hfield name⟩
    rcases hread name hname with h | rfl
    · exact h
    · rcases (mem_readNames c op "").mp hname with ⟨hplaceholders, hbraces⟩ | hother
      · exact hcovered hplaceholders hbraces
      · exact (mem_fieldNames c op "").mpr (Or.inr hother)

/-- A request whose path has a placeholder and empty braces. -/
def emptyBraces : PlannedOperation where
  endpoint := ⟨"/a/\x7b\x7d/\x7bid\x7d", .get, default⟩
  names := Names.ofBase "get_a" .camel .pascal

/-- The type of such a request has one field, and the call reads two. -/
theorem call_reads_no_field :
    let document : Document := ⟨"3.0.0", ⟨"T", "1", none⟩, [], none, [], by decide⟩
    let shape := (of ⟨document, .pascal, false⟩ emptyBraces).value
    shape.members.map (fun m => Code.keyName? m.key) = [some "id"] ∧
      Code.propertyReads? argumentName (shape.call emptyBraces.endpoint) = some ["", "id"] := by
  decide +kernel

end Operation

end RequestShape

end OpenApiClient
