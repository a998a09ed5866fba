import OpenApiClient.Document.Read
import OpenApiClient.Document.Select
import OpenApiClient.Proofs.Document.Typed
import OpenApiClient.Proofs.Json.Keys
import OpenApiClient.Proofs.Repetitions

/-!
# Normal documents

What later parts of the program rely on is established by different passes: the rules are checked on
the raw value, and the fields that they are about are written as texts; schemas get their shape when
they are read; and the typed document is normalized. `isNormal_of_ofJson` puts it together: every
document that is read is normal, and selecting operations keeps it so (`IsNormal.select`).
`normalForm_of_ofJson` says what that means for all operations and at every depth of all schemas.
-/

namespace OpenApiClient

/-- Whether an operation has a tag, and an id unless none can be made. -/
structure Operation.IsNormal (op : Operation) : Prop where
  tags : op.tags ≠ []
  id : op.id = "" → makeId op.summary op.description = ""

structure PathItem.IsNormal (item : PathItem) : Prop where
  parameters : item.parameters = []
  operations : ∀ e ∈ item.operations, e.2.IsNormal

/-- Whether a document is as documents are that were read. -/
structure Document.IsNormal (d : Document) : Prop where
  version : (Document.versionBegins "3.0." d.version ||
    Document.versionBegins "3.1." d.version) = true
  title : Text.isBlank d.info.title = false
  release : Text.isBlank d.info.version = false
  paths : ∀ p ∈ d.paths, p.2.IsNormal
  tags : d.tags = [] → d.endpoints = []
  schemas : AllNormal d.allSchemas

/-! ## Normalization -/

theorem firstSeen_eq_eraseDups (names : List String) : firstSeen names = names.eraseDups := by
  induction names using List.reverseRecOn with
  | nil => rfl
  | append_singleton names name ih =>
    have hstep : firstSeen (names ++ [name]) =
        if (firstSeen names).contains name then firstSeen names
        else firstSeen names ++ [name] := by
      rw [firstSeen, List.foldl_append]
      rfl
    rw [hstep, ih, eraseDups_concat]
    simp only [List.contains_iff_mem, List.mem_eraseDups]

theorem firstSeen_eq_nil {names : List String} (h : firstSeen names = []) : names = [] := by
  rw [firstSeen_eq_eraseDups] at h
  refine List.eq_nil_iff_forall_not_mem.mpr fun name hname => ?_
  rw [← List.mem_eraseDups, h] at hname
  cases hname

theorem Parameter.mem_of_mem_merge {p : Parameter} : ∀ {shared own : List Parameter},
    p ∈ merge own shared → p ∈ own ∨ p ∈ shared
  | [], _, h => Or.inl h
  | q :: shared, own, h => by
    have hmerged : p ∈ merge (if own.any fun r => r.sameSlot q then own else own ++ [q]) shared := h
    rcases mem_of_mem_merge hmerged with hown | hshared
    · split_ifs at hown
      · exact Or.inl hown
      · rcases List.mem_append.mp hown with hp | hp
        · exact Or.inl hp
        · exact Or.inr (List.mem_singleton.mp hp ▸ List.mem_cons_self)
    · exact Or.inr (List.mem_cons_of_mem q hshared)

namespace Operation

theorem isNormal_normalize (shared : List Parameter) (op : Operation) :
    (op.normalize shared).IsNormal := by
  constructor
  case tags =>
    show (if op.tags.isEmpty then [defaultTag] else op.tags) ≠ []
    split_ifs with h
    · exact List.cons_ne_nil _ _
    · exact fun hnil => h (List.isEmpty_iff.mpr hnil)
  case id =>
    show (if op.id.isEmpty then makeId op.summary op.description else op.id) = "" → _
    split_ifs with h
    · exact fun hid => hid
    · exact fun hid => absurd (String.isEmpty_iff.mpr hid) h

theorem allNormal_normalize {shared : List Parameter} {op : Operation}
    (hshared : ∀ p ∈ shared, AllNormal p.allSchemas) (h : AllNormal op.allSchemas) :
    AllNormal (op.normalize shared).allSchemas := by
  obtain ⟨hparameters, hrest⟩ := allNormal_allSchemas.mp h
  refine allNormal_allSchemas.mpr ⟨fun p hp => ?_, hrest⟩
  rcases Parameter.mem_of_mem_merge hp with hown | hp
  · exact hparameters p hown
  · exact hshared p hp

/-- A normal operation that shares no parameters is left as it is. -/
theorem IsNormal.normalize {op : Operation} (h : op.IsNormal) : op.normalize [] = op := by
  have hid : (if op.id.isEmpty then makeId op.summary op.description else op.id) = op.id := by
    split_ifs with hempty
    · have hid := String.isEmpty_iff.mp hempty
      rw [hid, h.id hid]
    · rfl
  have htags : (if op.tags.isEmpty then [defaultTag] else op.tags) = op.tags :=
    if_neg fun hempty => h.tags (List.isEmpty_iff.mp hempty)
  show { op with parameters := op.parameters, id := _, tags := _ } = op
  rw [hid, htags]

end Operation

namespace PathItem

theorem isNormal_normalize (item : PathItem) : item.normalize.IsNormal := by
  constructor
  case parameters => rfl
  case operations =>
    intro e he
    obtain ⟨f, -, rfl⟩ := List.mem_map.mp he
    exact f.2.isNormal_normalize item.parameters

theorem allNormal_normalize {item : PathItem} (h : AllNormal item.allSchemas) :
    AllNormal item.normalize.allSchemas := by
  obtain ⟨hparameters, hoperations⟩ := allNormal_allSchemas.mp h
  refine allNormal_allSchemas.mpr ⟨nofun, fun e he => ?_⟩
  obtain ⟨f, hf, rfl⟩ := List.mem_map.mp he
  exact Operation.allNormal_normalize hparameters (hoperations f hf)

theorem IsNormal.normalize {item : PathItem} (h : item.IsNormal) : item.normalize = item := by
  refine PathItem.ext h.parameters.symm ?_
  refine (List.map_congr_left fun e he => ?_).trans (List.map_id item.operations)
  rw [h.parameters]
  exact congrArg (Prod.mk e.1) (h.operations e he).normalize

end PathItem

namespace Document

theorem declareTags_eq (d : Document) : ∃ tags, d.declareTags = { d with tags } := by
  unfold declareTags
  split_ifs
  · exact ⟨_, rfl⟩
  · exact ⟨d.tags, rfl⟩

/-- Tags are declared if an operation has one. -/
theorem endpoints_eq_nil_of_declareTags {d : Document}
    (h : ∀ e ∈ d.endpoints, e.operation.tags ≠ []) (htags : d.declareTags.tags = []) :
    d.endpoints = [] := by
  unfold declareTags at htags
  split_ifs at htags with hempty
  · have hnone := firstSeen_eq_nil (List.map_eq_nil_iff.mp htags)
    refine List.eq_nil_iff_forall_not_mem.mpr fun e he => ?_
    exact h e he (List.flatMap_eq_nil_iff.mp hnone e he)
  · exact absurd (List.isEmpty_iff.mpr htags) hempty

theorem isNormal_normalize {d : Document}
    (hversion : (versionBegins "3.0." d.version || versionBegins "3.1." d.version) = true)
    (htitle : Text.isBlank d.info.title = false) (hrelease : Text.isBlank d.info.version = false)
    (hschemas : AllNormal d.allSchemas) :
    d.normalize.IsNormal := by
  obtain ⟨hpaths, hcomponents⟩ := allNormal_allSchemas.mp hschemas
  have hnormal : ∀ p ∈ d.withNormalPaths.paths, p.2.IsNormal := by
    intro p hp
    obtain ⟨q, hq, rfl⟩ := List.mem_map.mp hp
    exact q.2.isNormal_normalize
  have hallNormal : AllNormal d.withNormalPaths.allSchemas := by
    refine allNormal_allSchemas.mpr ⟨fun p hp => ?_, hcomponents⟩
    obtain ⟨q, hq, rfl⟩ := List.mem_map.mp hp
    exact PathItem.allNormal_normalize (hpaths q hq)
  have htags : d.withNormalPaths.declareTags.tags = [] → d.withNormalPaths.endpoints = [] := by
    refine endpoints_eq_nil_of_declareTags fun e he => ?_
    obtain ⟨p, hp, -, hop⟩ := mem_endpoints he
    exact ((hnormal p hp).operations _ hop).tags
  obtain ⟨tags, heq⟩ := declareTags_eq d.withNormalPaths
  rw [heq] at htags
  rw [normalize, heq]
  exact ⟨hversion, htitle, hrelease, hnormal, htags, hallNormal⟩

/-- A normal document is left as it is. -/
theorem IsNormal.normalize {d : Document} (h : d.IsNormal) : d.normalize = d := by
  have hpaths : (d.paths.map fun p => (p.1, p.2.normalize)) = d.paths := by
    refine (List.map_congr_left fun p hp => ?_).trans (List.map_id d.paths)
    exact congrArg (Prod.mk p.1) (h.paths p hp).normalize
  have hsame : d.withNormalPaths = d := Document.ext rfl rfl hpaths rfl rfl
  rw [Document.normalize, hsame, declareTags]
  split_ifs with hempty
  · have htags := List.isEmpty_iff.mp hempty
    have hnone : d.operationTags = [] := by
      rw [operationTags, h.tags htags]
      rfl
    rw [hnone, List.map_nil, ← htags]
  · rfl

theorem IsNormal.select {d : Document} (h : d.IsNormal) (s : Selection) :
    (d.select s).IsNormal := by
  have hpath {p : String × PathItem} (hp : p ∈ (d.select s).paths) :
      ∃ q ∈ d.paths, p = (q.1, q.2.restrict s.keeps) := by
    obtain ⟨q, hq, rfl⟩ := List.mem_map.mp (List.mem_of_mem_filter hp)
    exact ⟨q, hq, rfl⟩
  obtain ⟨hschemas, hcomponents⟩ := allNormal_allSchemas.mp h.schemas
  constructor
  case version => exact h.version
  case title => exact h.title
  case release => exact h.release
  case paths =>
    intro p hp
    obtain ⟨q, hq, rfl⟩ := hpath hp
    exact ⟨rfl, fun e he => (h.paths q hq).operations e (List.mem_of_mem_filter he)⟩
  case tags =>
    intro htags
    refine List.eq_nil_iff_forall_not_mem.mpr fun e he => ?_
    obtain ⟨p, hp, -, hop⟩ := mem_endpoints he
    obtain ⟨q, hq, rfl⟩ := hpath hp
    have hmem : Endpoint.mk q.1 e.method e.operation ∈ d.endpoints :=
      List.mem_flatMap.mpr ⟨q, hq, List.mem_map_of_mem (List.mem_of_mem_filter hop)⟩
    rw [h.tags htags] at hmem
    cases hmem
  case schemas =>
    refine allNormal_allSchemas.mpr ⟨fun p hp => ?_, hcomponents⟩
    obtain ⟨q, hq, rfl⟩ := hpath hp
    obtain ⟨-, hoperations⟩ := PathItem.allNormal_allSchemas.mp (hschemas q hq)
    exact PathItem.allNormal_allSchemas.mpr
      ⟨nofun, fun e he => hoperations e (List.mem_of_mem_filter he)⟩

end Document

/-! ## Fields of the rules -/

section Fields

variable {entries : List (String × Json)} {text : String}

theorem Info.gives_enter_title (key : String) (v : Json) (d : Draft) (hkey : key ≠ "title") :
    Gives (fun e => e.title = d.title) (enter key v d) := by
  unfold enter
  split
  case h_1 => exact absurd rfl hkey
  case h_4 => exact Gives.ok rfl
  all_goals exact Gives.bind_any fun _ => Gives.ok rfl

theorem Info.gives_read_title (hnodup : (Entries.keys entries).Nodup)
    (h : Entries.get? "title" entries = some (.str text)) :
    Gives (fun i => i.title = text) (read (.obj entries)) := by
  refine Json.gives_required_field (Q := (· = text)) gives_enter_title (fun d => ?_) (fun d => ?_)
    hnodup h
  · show Gives _ (Except.ok { d with title := some text })
    exact Gives.ok fun _ htitle => (Option.some.inj htitle).symm
  · exact (Json.gives_require _ _).bind fun _ htitle => Gives.bind_any fun _ => Gives.ok htitle

theorem Info.gives_enter_version (key : String) (v : Json) (d : Draft) (hkey : key ≠ "version") :
    Gives (fun e => e.version = d.version) (enter key v d) := by
  unfold enter
  split
  case h_2 => exact absurd rfl hkey
  case h_4 => exact Gives.ok rfl
  all_goals exact Gives.bind_any fun _ => Gives.ok rfl

theorem Info.gives_read_version (hnodup : (Entries.keys entries).Nodup)
    (h : Entries.get? "version" entries = some (.str text)) :
    Gives (fun i => i.version = text) (read (.obj entries)) := by
  refine Json.gives_required_field (Q := (· = text)) gives_enter_version (fun d => ?_)
    (fun d => ?_) hnodup h
  · show Gives _ (Except.ok { d with version := some text })
    exact Gives.ok fun _ hversion => (Option.some.inj hversion).symm
  · exact Gives.bind_any fun _ => (Json.gives_require _ _).bind fun _ hversion => Gives.ok hversion

theorem Document.gives_enter_version (key : String) (v : Json) (d : Draft)
    (hkey : key ≠ "openapi") : Gives (fun e => e.version = d.version) (enter key v d) := by
  unfold enter
  split
  case h_1 => exact absurd rfl hkey
  case h_6 => exact Gives.ok rfl
  all_goals exact Gives.bind_any fun _ => Gives.ok rfl

theorem Document.gives_readTyped_version (hnodup : (Entries.keys entries).Nodup)
    (h : Entries.get? "openapi" entries = some (.str text)) :
    Gives (fun d => d.version = text) (readTyped (.obj entries)) := by
  refine Json.gives_required_field (Q := (· = text)) gives_enter_version (fun d => ?_)
    (fun d => ?_) hnodup h
  · show Gives _ (Except.ok { d with version := some text })
    exact Gives.ok fun _ hversion => (Option.some.inj hversion).symm
  · exact (Json.gives_require _ _).bind fun _ hversion => Gives.bind_any fun _ => Gives.ok hversion

theorem Document.gives_enter_info (key : String) (v : Json) (d : Draft) (hkey : key ≠ "info") :
    Gives (fun e => e.info = d.info) (enter key v d) := by
  unfold enter
  split
  case h_2 => exact absurd rfl hkey
  case h_6 => exact Gives.ok rfl
  all_goals exact Gives.bind_any fun _ => Gives.ok rfl

theorem Document.gives_readTyped_info {v : Json} (hnodup : (Entries.keys entries).Nodup)
    (h : Entries.get? "info" entries = some v) :
    Gives (fun d => Info.read v = .ok d.info) (readTyped (.obj entries)) := by
  refine Json.gives_required_field (Q := fun i => Info.read v = .ok i) gives_enter_info
    (fun d => ?_) (fun d => ?_) hnodup h
  · refine (Gives.self (Info.read v)).bind fun i hi => Gives.ok ?_
    rintro _ ⟨⟩
    exact hi
  · exact Gives.bind_any fun _ => (Json.gives_require _ _).bind fun _ hinfo => Gives.ok hinfo

end Fields

/-! ## Rules -/

namespace Document

theorem checkVersion_eq_ok {root : List (String × Json)} (h : checkVersion root = .ok ()) :
    ∃ v, Entries.get? "openapi" root = some v ∧
      (versionBegins "3.0." v.scalarText || versionBegins "3.1." v.scalarText) = true := by
  unfold checkVersion at h
  split at h
  next => cases h
  next v hv =>
    dsimp only at h
    split_ifs at h with hmajor hminor
    rw [Bool.not_eq_true, Bool.not_eq_false'] at hminor
    exact ⟨v, hv, hminor⟩

theorem checkInfoField_eq_ok {fields : List (String × Json)} {field : String}
    (h : checkInfoField fields field = .ok ()) :
    ∃ v, Entries.get? field fields = some v ∧ Text.isBlank v.scalarText = false := by
  unfold checkInfoField at h
  split at h
  next v hv =>
    split_ifs at h with hblank
    exact ⟨v, hv, by simpa using hblank⟩
  next => cases h

/-- Only an object has entries. -/
theorem eq_obj_of_bind_entries? {o : Option Json} {entries : List (String × Json)}
    (h : o.bind Json.entries? = some entries) : o = some (.obj entries) := by
  obtain ⟨v, rfl, hentries⟩ := Option.bind_eq_some_iff.mp h
  cases v with
  | obj entries =>
    cases hentries
    rfl
  | _ => cases hentries

theorem checkInfo_eq_ok {root : List (String × Json)} (h : checkInfo root = .ok ()) :
    ∃ fields, Entries.get? "info" root = some (.obj fields) ∧
      checkInfoField fields "title" = .ok () ∧ checkInfoField fields "version" = .ok () := by
  unfold checkInfo at h
  split at h
  next => cases h
  next fields hfields =>
    obtain ⟨⟨⟩, htitle, hversion⟩ := exists_of_bind_eq_ok h
    exact ⟨fields, eq_obj_of_bind_entries? hfields, htitle, hversion⟩

theorem check_eq_ok {v : Json} (h : check v = .ok ()) :
    ∃ root, v = .obj root ∧ checkVersion root = .ok () ∧ checkInfo root = .ok () := by
  cases v with
  | obj root =>
    obtain ⟨⟨⟩, hversion, h⟩ := exists_of_bind_eq_ok h
    obtain ⟨⟨⟩, hinfo, -⟩ := exists_of_bind_eq_ok h
    exact ⟨root, rfl, hversion, hinfo⟩
  | _ => cases h

/-- What is said about the document, with the fields of the rules written as texts. -/
def textInfo (fields : List (String × Json)) : List (String × Json) :=
  Entries.modify "version" (fun v => .str v.scalarText)
    (Entries.modify "title" (fun v => .str v.scalarText) fields)

section TextInfo

variable (fields : List (String × Json))

theorem keys_textInfo : Entries.keys (textInfo fields) = Entries.keys fields := by
  rw [textInfo, Entries.keys_modify, Entries.keys_modify]

theorem get?_title_textInfo : Entries.get? "title" (textInfo fields) =
    (Entries.get? "title" fields).map fun v => .str v.scalarText := by
  rw [textInfo, Entries.get?_modify, if_neg (by decide), Entries.get?_modify, if_pos rfl]

theorem get?_version_textInfo : Entries.get? "version" (textInfo fields) =
    (Entries.get? "version" fields).map fun v => .str v.scalarText := by
  rw [textInfo, Entries.get?_modify, if_pos rfl, Entries.get?_modify, if_neg (by decide)]

end TextInfo

theorem inline_textFields {root fields : List (String × Json)}
    (hinfo : Entries.get? "info" root = some (.obj fields)) :
    ∃ entries, Inline.document (textFields (.obj root)) = .obj entries ∧
      Entries.keys entries = Entries.keys root ∧
      Entries.get? "openapi" entries =
        (Entries.get? "openapi" root).map (fun v => .str v.scalarText) ∧
      Entries.get? "info" entries = some (.obj (textInfo fields)) := by
  refine ⟨_, rfl, ?_, ?_, ?_⟩
  · rw [Entries.keys_modify, Entries.keys_modify, Entries.keys_modify]
  · rw [Entries.get?_modify, if_neg (by decide), Entries.get?_modify, if_neg (by decide),
      Entries.get?_modify, if_pos rfl]
  · rw [Entries.get?_modify, if_neg (by decide), Entries.get?_modify, if_pos rfl,
      Entries.get?_modify, if_neg (by decide), hinfo]
    rfl

/-- Every document that is read is normal. -/
theorem isNormal_of_ofJson {v : Json.Keyed} {d : Document} (h : ofJson v.json = .ok d) :
    d.IsNormal := by
  obtain ⟨v, hdistinct⟩ := v
  dsimp only at h
  unfold ofJson at h
  split at h
  next => cases h
  next hcheck =>
  split at h
  next => cases h
  next e he =>
  cases h
  obtain ⟨root, rfl, hversion, hinfo⟩ := check_eq_ok hcheck
  obtain ⟨version, hopenapi, hbegins⟩ := checkVersion_eq_ok hversion
  obtain ⟨fields, hfields, htitle, hrelease⟩ := checkInfo_eq_ok hinfo
  obtain ⟨title, hgetTitle, htitle⟩ := checkInfoField_eq_ok htitle
  obtain ⟨release, hgetRelease, hrelease⟩ := checkInfoField_eq_ok hrelease
  -- The fields that the rules are about reach the typed document as the texts that were checked.
  have hschemas := gives_readTyped _ e he
  obtain ⟨entries, heq, hkeys, hgetOpenapi, hgetInfo⟩ := inline_textFields hfields
  rw [heq] at he
  obtain ⟨hroot, hvalues⟩ := (Json.hasDistinctKeys_obj root).mp hdistinct
  have hnodup : (Entries.keys entries).Nodup := hkeys ▸ hroot
  have hnodupInfo : (Entries.keys (textInfo fields)).Nodup := by
    have hinfo := hvalues _ (Entries.mem_of_get? hfields)
    rw [keys_textInfo]
    exact ((Json.hasDistinctKeys_obj fields).mp hinfo).1
  have hasVersion : e.version = version.scalarText :=
    gives_readTyped_version hnodup (by rw [hgetOpenapi, hopenapi]; rfl) e he
  have hasInfo : Info.read (.obj (textInfo fields)) = .ok e.info :=
    gives_readTyped_info hnodup hgetInfo e he
  have hasTitle : e.info.title = title.scalarText := by
    refine Info.gives_read_title hnodupInfo ?_ e.info hasInfo
    rw [get?_title_textInfo, hgetTitle]
    rfl
  have hasRelease : e.info.version = release.scalarText := by
    refine Info.gives_read_version hnodupInfo ?_ e.info hasInfo
    rw [get?_version_textInfo, hgetRelease]
    rfl
  exact isNormal_normalize (hasVersion ▸ hbegins) (hasTitle ▸ htitle) (hasRelease ▸ hrelease)
    hschemas

theorem isNormal_of_parse {text : String} {d : Document} (h : parse text = .ok d) :
    d.IsNormal := by
  unfold parse at h
  split at h
  next => cases h
  next v hv => exact isNormal_of_ofJson (v := Source.keyed hv) h

/-! ## Plain terms -/

theorem isPrefix_of_versionBegins {head version : String}
    (h : versionBegins head version = true) : head.toList <+: version.toList := by
  obtain ⟨rest, hrest⟩ := Option.isSome_iff_exists.mp h
  exact ⟨rest, (Text.afterHead?_eq_some_iff.mp hrest).symm⟩

/-- What clients are generated from: a supported version, a document with a name and a release, no
shared parameters, operations with tags and ids, declared tags, and schemas that are complete at
every depth. -/
structure NormalForm (d : Document) : Prop where
  version : "3.0.".toList <+: d.version.toList ∨ "3.1.".toList <+: d.version.toList
  title : Text.isBlank d.info.title = false
  release : Text.isBlank d.info.version = false
  parameters : ∀ p ∈ d.paths, p.2.parameters = []
  operationTags : ∀ e ∈ d.endpoints, e.operation.tags ≠ []
  operationIds : ∀ e ∈ d.endpoints, e.operation.id = "" →
    makeId e.operation.summary e.operation.description = ""
  declaredTags : d.tags = [] → d.endpoints = []
  schemas : ∀ s ∈ d.allSchemas, ∀ t ∈ s.nodes, t.IsComplete

/-- **Normal form.** Every document that is read is in normal form. -/
theorem normalForm_of_ofJson {v : Json.Keyed} {d : Document} (h : ofJson v.json = .ok d) :
    d.NormalForm := by
  have hnormal := isNormal_of_ofJson h
  have hoperation : ∀ e ∈ d.endpoints, e.operation.IsNormal := by
    intro e he
    obtain ⟨p, hp, -, hop⟩ := mem_endpoints he
    exact (hnormal.paths p hp).operations _ hop
  constructor
  case version =>
    rcases Bool.or_eq_true_iff.mp hnormal.version with hbegins | hbegins
    · exact Or.inl (isPrefix_of_versionBegins hbegins)
    · exact Or.inr (isPrefix_of_versionBegins hbegins)
  case title => exact hnormal.title
  case release => exact hnormal.release
  case parameters => exact fun p hp => (hnormal.paths p hp).parameters
  case operationTags => exact fun e he => (hoperation e he).tags
  case operationIds => exact fun e he => (hoperation e he).id
  case declaredTags => exact hnormal.tags
  case schemas =>
    intro s hs t ht
    exact ((hnormal.schemas s hs).of_mem_nodes t ht).isComplete

/-- A raw document that makes use of what is normalized: the release is a number, parameters are
shared and referred to, the operation has neither an id nor a tag, and a required name stands
twice. -/
def petStore : Json :=
  .obj [("openapi", .str "3.0.3"),
    ("info", .obj [("title", .str "Pets"), ("version", .num (.int 2))]),
    ("paths", .obj [("/pets/\x7bid\x7d", .obj [
      ("parameters", .arr [.obj [("name", .str "id"), ("in", .str "path")]]),
      ("get", .obj [("summary", .str "One pet"),
        ("parameters", .arr [.obj [("$ref", .str "#/components/parameters/Kind")]])])])]),
    ("components", .obj [
      ("schemas", .obj [("Pet", .obj [
        ("properties", .obj [("name", .obj [("type", .str "string")])]),
        ("required", .arr [.str "name", .str "name"])])]),
      ("parameters", .obj [("Kind", .obj [("name", .str "kind"), ("in", .str "query"),
        ("schema", .obj [("enum", .arr [.str "cat", .str "dog"])])])])])]

def pets : Document where
  version := "3.0.3"
  info := ⟨"Pets", "2", none⟩
  paths := [("/pets/\x7bid\x7d", ⟨[], [(.get,
    { description := "", id := "one_pet"
      parameters := [
        ⟨"kind", .query, false, some (.enumeration .none none [.str "cat", .str "dog"]), none⟩,
        ⟨"id", .path, false, none, none⟩]
      requestBody := none, responses := [], summary := "One pet", tags := ["default"]
      deprecated := false })], by decide⟩)]
  components := some
    { schemas := [("Pet", .object .none [("name", .primitive .none .string)] ["name"] none)]
      parameters := [("Kind",
        ⟨"kind", .query, false, some (.enumeration .none none [.str "cat", .str "dog"]), none⟩)]
      requestBodies := [], responses := [] }
  tags := [⟨"default", none⟩]

theorem ofJson_petStore : ofJson petStore = .ok pets :=
  eq_ok_of_toOption (by decide +kernel)

theorem normalForm_pets : ofJson petStore = .ok pets ∧ pets.NormalForm :=
  ⟨ofJson_petStore, normalForm_of_ofJson (v := ⟨petStore, by decide⟩) ofJson_petStore⟩

end Document

end OpenApiClient
