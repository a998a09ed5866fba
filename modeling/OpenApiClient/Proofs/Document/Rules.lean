import OpenApiClient.Proofs.Document.Normal
import OpenApiClient.Proofs.Json.Failures
import OpenApiClient.Proofs.Json.Lookup

/-!
# Rules and readings

The rules are checked on the raw value, where anything may stand for a text, and the typed reading
has demands of its own. `rules` lists the rules in their order, each as a condition on the raw value
with the violation that it reports, and `check` is a search for the first broken one
(`check_eq_firstBroken`). If no rule is broken, the reading finds every field that the rules are
about, and finds it well typed: it can only fail further inside (`Beyond`), whatever was written for
these fields (`rules_agree_with_reading`).
-/

namespace OpenApiClient

namespace Document

open Json (Step)

/-- What a raw value must keep, and what is reported if it does not. -/
structure Rule where
  keeps : Json → Bool
  violation : Json → Violation

def hasObject (key : String) (v : Json) : Bool :=
  ((v.get? key).bind Json.entries?).isSome

/-- The text of the version of a raw document; none is the empty text. -/
def versionText (v : Json) : String :=
  ((v.get? "openapi").map Json.scalarText).getD ""

/-- The text of a field about the document; none is the empty text. -/
def infoText (field : String) (v : Json) : String :=
  (((v.get? "info").bind (Json.get? field)).map Json.scalarText).getD ""

def versionHas (head : String) (v : Json) : Bool :=
  head.toList.isPrefixOf (versionText v).toList

/-- The rules about the version: it is there, it is of the third major version, and its minor version
is supported. -/
def versionRules : List Rule :=
  [⟨fun v => (v.get? "openapi").isSome, fun _ => .missingVersion⟩,
   ⟨versionHas "3.", fun v => .unsupportedMajor (versionText v)⟩,
   ⟨fun v => versionHas "3.0." v || versionHas "3.1." v, fun v => .unsupportedMinor (versionText v)⟩]

def infoRule (field : String) : Rule :=
  ⟨fun v => !Text.isBlank (infoText field v), fun _ => .blankInfo field⟩

/-- The rules about the document itself: it is described by an object, with a title and a version. -/
def infoRules : List Rule :=
  [⟨hasObject "info", fun _ => .missingInfo⟩, infoRule "title", infoRule "version"]

def pathsRule : Rule :=
  ⟨hasObject "paths", fun _ => .missingPaths⟩

/-- All rules in their order; the first one is that the document is an object. -/
def rules : List Rule :=
  ⟨fun v => v.entries?.isSome, fun _ => .notObject⟩ :: (versionRules ++ (infoRules ++ [pathsRule]))

def firstBroken (v : Json) (rs : List Rule) : Except Violation Unit :=
  match rs.find? fun r => !r.keeps v with
  | none => .ok ()
  | some r => .error (r.violation v)

/-! ## The check is a search -/

section Search

variable {v : Json}

theorem firstBroken_cons (r : Rule) (rs : List Rule) : firstBroken v (r :: rs) =
    bif r.keeps v then firstBroken v rs else .error (r.violation v) := by
  unfold firstBroken
  cases hkeeps : r.keeps v with
  | true => rw [List.find?_cons_of_neg (by simp [hkeeps]), cond_true]
  | false => rw [List.find?_cons_of_pos (by simp [hkeeps]), cond_false]

theorem firstBroken_append (rs more : List Rule) :
    firstBroken v (rs ++ more) = (do firstBroken v rs; firstBroken v more) := by
  induction rs with
  | nil => rfl
  | cons r rs ih =>
    rw [List.cons_append, firstBroken_cons, firstBroken_cons, ih]
    cases r.keeps v with
    | true => rfl
    | false => rfl

theorem firstBroken_eq_error_iff {rs : List Rule} {e : Violation} :
    firstBroken v rs = .error e ↔
      ∃ r, rs.find? (fun r => !r.keeps v) = some r ∧ r.violation v = e := by
  unfold firstBroken
  cases rs.find? fun r => !r.keeps v with
  | none => simp
  | some r => simp

theorem firstBroken_eq_ok_iff {rs : List Rule} :
    firstBroken v rs = .ok () ↔ ∀ r ∈ rs, r.keeps v = true := by
  induction rs with
  | nil => simp [firstBroken]
  | cons r rs ih =>
    rw [firstBroken_cons, List.forall_mem_cons, ← ih]
    cases r.keeps v with
    | true => simp
    | false => simp

end Search

theorem versionBegins_eq (head version : String) :
    versionBegins head version = head.toList.isPrefixOf version.toList := by
  rw [Bool.eq_iff_iff, List.isPrefixOf_iff_prefix]
  constructor
  · exact isPrefix_of_versionBegins
  · rintro ⟨rest, hrest⟩
    rw [versionBegins, Text.afterHead?_eq_some_iff.mpr hrest.symm]
    rfl

section Root

variable {root fields : List (String × Json)}

theorem get?_obj (key : String) : (Json.obj root).get? key = Entries.get? key root := rfl

theorem checkVersion_eq : checkVersion root = firstBroken (.obj root) versionRules := by
  have hhas {v : Json} (hversion : Entries.get? "openapi" root = some v) (head : String) :
      versionHas head (.obj root) = versionBegins head v.scalarText := by
    rw [versionHas, versionText, get?_obj, hversion, versionBegins_eq]
    rfl
  rw [versionRules, firstBroken_cons, firstBroken_cons, firstBroken_cons]
  unfold checkVersion
  cases hversion : Entries.get? "openapi" root with
  | none => simp [get?_obj, hversion]
  | some v =>
    simp only [get?_obj, hversion, hhas hversion, versionText]
    cases versionBegins "3." v.scalarText with
    | false => rfl
    | true =>
      cases versionBegins "3.0." v.scalarText || versionBegins "3.1." v.scalarText with
      | false => rfl
      | true => rfl

theorem checkInfoField_eq (hinfo : Entries.get? "info" root = some (.obj fields))
    (field : String) : checkInfoField fields field = firstBroken (.obj root) [infoRule field] := by
  have htext : infoText field (.obj root) =
      ((Entries.get? field fields).map Json.scalarText).getD "" := by
    rw [infoText, get?_obj, hinfo]
    rfl
  rw [firstBroken_cons, infoRule]
  unfold checkInfoField
  dsimp only
  rw [htext]
  cases Entries.get? field fields with
  | none => rfl
  | some v =>
    dsimp only [Option.map_some, Option.getD_some]
    cases Text.isBlank v.scalarText with
    | true => rfl
    | false => rfl

theorem checkInfo_eq : checkInfo root = firstBroken (.obj root) infoRules := by
  rw [infoRules, firstBroken_cons]
  unfold checkInfo hasObject
  dsimp only
  rw [get?_obj]
  cases hinfo : (Entries.get? "info" root).bind Json.entries? with
  | none => rfl
  | some fields =>
    have hget := eq_obj_of_bind_entries? hinfo
    show (do checkInfoField fields "title"; checkInfoField fields "version") =
      firstBroken (.obj root) ([infoRule "title"] ++ [infoRule "version"])
    rw [firstBroken_append, checkInfoField_eq hget, checkInfoField_eq hget]

theorem checkPaths_eq : checkPaths root = firstBroken (.obj root) [pathsRule] := by
  rw [firstBroken_cons, pathsRule]
  unfold checkPaths hasObject
  dsimp only
  rw [get?_obj]
  cases (Entries.get? "paths" root).bind Json.entries? with
  | none => rfl
  | some items => rfl

end Root

theorem check_eq_firstBroken (v : Json) : check v = firstBroken v rules := by
  rw [rules, firstBroken_cons]
  cases v with
  | obj root =>
    show (do checkVersion root; checkInfo root; checkPaths root) = firstBroken (.obj root) _
    rw [firstBroken_append, firstBroken_append, checkVersion_eq, checkInfo_eq, checkPaths_eq]
  | _ => rfl

/-! ## What reaches the typed reading -/

/-- What the typed reading finds of the fields of the rules: the version is a text, what is said about
the document is an object in which the title and the version are texts, and the paths are an
object. -/
structure Prepared (entries : List (String × Json)) : Prop where
  nodup : (Entries.keys entries).Nodup
  version : ∃ text, Entries.get? "openapi" entries = some (.str text)
  info : ∃ fields, Entries.get? "info" entries = some (.obj fields) ∧
    (Entries.keys fields).Nodup ∧
    (∃ text, Entries.get? "title" fields = some (.str text)) ∧
    ∃ text, Entries.get? "version" fields = some (.str text)
  paths : ∃ items, Entries.get? "paths" entries = some (.obj items)

theorem get?_paths_inline {root items : List (String × Json)}
    (h : Entries.get? "paths" root = some (.obj items)) :
    ∃ read, (Inline.document (textFields (.obj root))).get? "paths" = some (.obj read) := by
  obtain ⟨entries, hentries, hpaths⟩ : ∃ entries, textFields (.obj root) = .obj entries ∧
      Entries.get? "paths" entries = some (.obj items) := by
    refine ⟨_, rfl, ?_⟩
    rw [Entries.get?_modify, if_neg (by decide), Entries.get?_modify, if_neg (by decide), h]
  rw [hentries]
  show ∃ read, Entries.get? "paths" (Entries.modify "paths" _ entries) = some (Json.obj read)
  rw [Entries.get?_modify, if_pos rfl, hpaths]
  exact ⟨_, rfl⟩

/-- What passes the check is prepared for the reading. -/
theorem prepared_of_check {v : Json} (hv : v.hasDistinctKeys = true) (h : check v = .ok ()) :
    ∃ entries, Inline.document (textFields v) = .obj entries ∧ Prepared entries := by
  obtain ⟨root, rfl, hversion, hinfo⟩ := check_eq_ok h
  obtain ⟨version, hopenapi, -⟩ := checkVersion_eq_ok hversion
  obtain ⟨fields, hfields, htitle, hrelease⟩ := checkInfo_eq_ok hinfo
  obtain ⟨title, hgetTitle, -⟩ := checkInfoField_eq_ok htitle
  obtain ⟨release, hgetRelease, -⟩ := checkInfoField_eq_ok hrelease
  have hpaths : ∃ items, Entries.get? "paths" root = some (.obj items) := by
    rw [check_eq_firstBroken, firstBroken_eq_ok_iff] at h
    have hobject : hasObject "paths" (.obj root) = true := h pathsRule (by simp [rules])
    obtain ⟨items, hitems⟩ := Option.isSome_iff_exists.mp hobject
    exact ⟨items, eq_obj_of_bind_entries? hitems⟩
  obtain ⟨hroot, hvalues⟩ := (Json.hasDistinctKeys_obj root).mp hv
  obtain ⟨entries, heq, hkeys, hgetOpenapi, hgetInfo⟩ := inline_textFields hfields
  refine ⟨entries, heq, ?_⟩
  constructor
  case nodup => exact hkeys ▸ hroot
  case version => exact ⟨version.scalarText, by rw [hgetOpenapi, hopenapi]; rfl⟩
  case info =>
    -- both are there and become texts, whatever they were
    refine ⟨_, hgetInfo, ?_, ⟨title.scalarText, ?_⟩, release.scalarText, ?_⟩
    · have hdistinct := hvalues _ (Entries.mem_of_get? hfields)
      rw [keys_textInfo]
      exact ((Json.hasDistinctKeys_obj fields).mp hdistinct).1
    · rw [get?_title_textInfo, hgetTitle]
      rfl
    · rw [get?_version_textInfo, hgetRelease]
      rfl
  case paths =>
    obtain ⟨items, hitems⟩ := hpaths
    obtain ⟨read, hread⟩ := get?_paths_inline hitems
    rw [heq] at hread
    exact ⟨read, hread⟩

/-! ## Where a reading can still fail -/

/-- Whether a way leads past the fields of the rules: to the description of the document, into one of
the paths, or to a field that no rule is about. -/
inductive Beyond : List Step → Prop where
  | description (rest : List Step) : Beyond (.key "info" :: .key "description" :: rest)
  | path (name : String) (rest : List Step) : Beyond (.key "paths" :: .key name :: rest)
  | components (rest : List Step) : Beyond (.key "components" :: rest)
  | tags (rest : List Step) : Beyond (.key "tags" :: rest)

/-- Where it is reported that a field of the rules is missing or has the wrong type: at the field, or
at the object that lacks it. -/
def rulePlaces : List (List Step) :=
  [[], [.key "openapi"], [.key "info"], [.key "info", .key "title"], [.key "info", .key "version"],
    [.key "paths"]]

theorem Beyond.not_mem_rulePlaces {path : List Step} (h : Beyond path) : path ∉ rulePlaces := by
  cases h with
  | description rest => simp [rulePlaces]
  | path name rest => simp [rulePlaces]
  | components rest => simp [rulePlaces]
  | tags rest => simp [rulePlaces]

end Document

section Reading

variable {entries : List (String × Json)}

theorem Info.failsAt_read {title version : String} (hnodup : (Entries.keys entries).Nodup)
    (htitle : Entries.get? "title" entries = some (.str title))
    (hversion : Entries.get? "version" entries = some (.str version)) :
    Json.FailsAt (Json.Into "description") (read (.obj entries)) := by
  have hentries : Json.FailsAt (Json.Into "description")
      (Json.asRecord wireRecord enter ⟨none, none, none⟩ (.obj entries)) := by
    refine Json.failsAt_readEntries fun k v d hmem => ?_
    have hget := (Entries.get?_eq_some_iff hnodup).mpr hmem
    unfold enter
    split
    next =>
      cases htitle.symm.trans hget
      exact FailsOnly.ok _
    next =>
      cases hversion.symm.trans hget
      exact FailsOnly.ok _
    next => exact fun e _ => ⟨e.path, rfl⟩
    next => exact FailsOnly.ok _
  refine hentries.bind fun d hd => ?_
  have hasTitle : d.title.isSome = true := by
    refine Json.gives_readEntries_field (Q := (·.isSome = true)) gives_enter_title (fun d => ?_)
      hnodup htitle d hd
    exact Gives.ok rfl
  have hasVersion : d.version.isSome = true := by
    refine Json.gives_readEntries_field (Q := (·.isSome = true)) gives_enter_version
      (fun d => ?_) hnodup hversion d hd
    exact Gives.ok rfl
  refine (Json.failsAt_require hasTitle).bind fun _ _ => ?_
  exact (Json.failsAt_require hasVersion).bind fun _ _ => FailsOnly.ok _

/-- A prepared object lacks nothing, so it can only fail in one of its entries, and in those of the
rules only further inside. -/
theorem Document.Prepared.failsAt_readTyped (h : Prepared entries) :
    Json.FailsAt Beyond (readTyped (.obj entries)) := by
  obtain ⟨version, hversion⟩ := h.version
  obtain ⟨fields, hinfo, hfields, ⟨title, htitle⟩, release, hrelease⟩ := h.info
  obtain ⟨items, hpaths⟩ := h.paths
  have hentries : Json.FailsAt Beyond
      (Json.asRecord wireRecord enter ⟨none, none, [], none, []⟩ (.obj entries)) := by
    refine Json.failsAt_readEntries fun k v d hmem => ?_
    have hget := (Entries.get?_eq_some_iff h.nodup).mpr hmem
    unfold enter
    split
    next =>
      cases hversion.symm.trans hget
      exact FailsOnly.ok _
    next =>
      cases hinfo.symm.trans hget
      refine FailsOnly.bind (fun e he => ?_) fun _ _ => FailsOnly.ok _
      obtain ⟨rest, hrest⟩ := Info.failsAt_read hfields htitle hrelease e he
      rw [hrest]
      exact Beyond.description rest
    next =>
      cases hpaths.symm.trans hget
      refine FailsOnly.bind (fun e he => ?_) fun _ _ => FailsOnly.ok _
      obtain ⟨name, rest, hrest⟩ := Json.failsAt_asMap items e he
      rw [hrest]
      exact Beyond.path name rest
    next => exact fun e _ => Beyond.components e.path
    next => exact fun e _ => Beyond.tags e.path
    next => exact FailsOnly.ok _
  refine hentries.bind fun d hd => ?_
  have hasVersion : d.version.isSome = true := by
    refine Json.gives_readEntries_field (Q := (·.isSome = true)) gives_enter_version
      (fun d => ?_) h.nodup hversion d hd
    exact Gives.ok rfl
  have hasInfo : d.info.isSome = true := by
    refine Json.gives_readEntries_field (Q := (·.isSome = true)) gives_enter_info
      (fun d => ?_) h.nodup hinfo d hd
    exact Gives.bind_any fun _ => Gives.ok rfl
  refine (Json.failsAt_require hasVersion).bind fun _ _ => ?_
  exact (Json.failsAt_require hasInfo).bind fun _ _ => FailsOnly.ok _

end Reading

namespace Document

/-! ## Agreement -/

theorem ofJson_eq_violation_iff {v : Json} {e : Violation} :
    ofJson v = .error (.violation e) ↔ check v = .error e := by
  unfold ofJson
  cases check v with
  | error e' => simp
  | ok =>
    dsimp only
    cases readTyped (Inline.document (textFields v)) with
    | error e' => simp
    | ok d => simp

/-- What passes the check and is no document fails beyond the fields of the rules. -/
theorem beyond_of_ofJson {v : Json.Keyed} {e : DocumentError} (hcheck : check v.json = .ok ())
    (h : ofJson v.json = .error e) : ∃ cause, e = .malformed cause ∧ Beyond cause.path := by
  obtain ⟨entries, heq, hprepared⟩ := prepared_of_check v.distinct hcheck
  unfold ofJson at h
  rw [hcheck, heq] at h
  dsimp only at h
  split at h
  next cause hcause =>
    cases h
    exact ⟨cause, rfl, hprepared.failsAt_readTyped cause hcause⟩
  next => cases h

/-- **Rules and readings agree.** A raw value breaks a rule exactly if it is reported as a violation,
and then as one of the first rule that it breaks. One that breaks no rule fails, if at all, beyond the
fields of the rules: it is malformed there, and neither is a field of the rules missing nor has one
the wrong type. -/
theorem rules_agree_with_reading :
    (∀ v e, ofJson v = .error (.violation e) ↔
      ∃ r, rules.find? (fun r => !r.keeps v) = some r ∧ r.violation v = e) ∧
    (∀ v, (∃ e, ofJson v = .error (.violation e)) ↔ ∃ r ∈ rules, r.keeps v = false) ∧
    ∀ v : Json.Keyed, (∀ r ∈ rules, r.keeps v.json = true) →
      ∀ e, ofJson v.json = .error e →
        ∃ cause, e = .malformed cause ∧ cause.path ∉ rulePlaces ∧ Beyond cause.path := by
  have hfirst (v : Json) (e : Violation) : ofJson v = .error (.violation e) ↔
      ∃ r, rules.find? (fun r => !r.keeps v) = some r ∧ r.violation v = e := by
    rw [ofJson_eq_violation_iff, check_eq_firstBroken, firstBroken_eq_error_iff]
  refine ⟨hfirst, fun v => ?_, ?_⟩
  · constructor
    · rintro ⟨e, he⟩
      obtain ⟨r, hr, -⟩ := (hfirst v e).mp he
      exact ⟨r, List.mem_of_find?_eq_some hr, by simpa using List.find?_some hr⟩
    · rintro ⟨r, hr, hbroken⟩
      cases hfind : rules.find? fun r => !r.keeps v with
      | none =>
        have hkeeps := List.find?_eq_none.mp hfind r hr
        simp [hbroken] at hkeeps
      | some first => exact ⟨_, (hfirst v _).mpr ⟨first, hfind, rfl⟩⟩
  · intro v hkept e he
    have hcheck : check v.json = .ok () := by
      rw [check_eq_firstBroken]
      exact firstBroken_eq_ok_iff.mpr hkept
    obtain ⟨cause, rfl, hbeyond⟩ := beyond_of_ofJson hcheck he
    exact ⟨cause, rfl, hbeyond.not_mem_rulePlaces, hbeyond⟩

/-- A raw document in which the title is an array and the release a truth value. What is wrong with
it is the tag of an operation, which is no text. -/
def oddFields : Json :=
  .obj [("openapi", .str "3.1.0"),
    ("info", .obj [("title", .arr [.num (.int 1), .null]), ("version", .bool false)]),
    ("paths", .obj [("/a", .obj [("get", .obj [("tags", .arr [.bool true])])])])]

def oddTag : Json.ReadError where
  path := [.key "paths", .key "/a", .key "get", .key "tags", .item 0]
  cause := .wrongType (.bool true) "a string"

theorem ofJson_oddFields : ofJson oddFields = .error (.malformed oddTag) :=
  eq_error_of_match (by decide +kernel)

theorem rules_agree_with_reading_oddFields :
    (∀ r ∈ rules, r.keeps oddFields = true) ∧ ofJson oddFields = .error (.malformed oddTag) ∧
    ∃ cause, DocumentError.malformed oddTag = .malformed cause ∧ cause.path ∉ rulePlaces ∧
      Beyond cause.path := by
  have hkept : ∀ r ∈ rules, r.keeps oddFields = true := by decide +kernel
  refine ⟨hkept, ofJson_oddFields, ?_⟩
  exact rules_agree_with_reading.2.2 ⟨oddFields, by decide⟩ hkept _ ofJson_oddFields

end Document

end OpenApiClient
