import OpenApiClient.Document.Read
import OpenApiClient.Proofs.Document.Chains
import OpenApiClient.Proofs.Document.Uses

/-!
# References by way of aliases

A component of a document may get an alias: one more entry of its section that is a reference to it.
References to the component, in the same section or where it is used in the paths, may then be
redirected to the alias (`DocumentAliased`). In the raw document every use still stands for what it
stood for (`ComponentsAliased.agree`), so the paths are the same once references are replaced,
unless a chain of references has become too long (`exists_related_document`).

The components themselves are read as they are written, references among them included. A request
body or a response may be read from a reference, since none of their fields is required, and so
documents with an alias for one of them are read as the same document with other components
(`ofJson_aliased`).
-/

namespace OpenApiClient

open Entries (Related Among)
open Json (FieldsRelated)

namespace Inline

variable {components components' : List (String × Json)} {v v' : Json}

variable (sectionName name «alias» : String)

/-- A section with an alias for one of its components. The alias is new, and references may have
been redirected to it. -/
inductive SectionAliased : Json → Json → Prop
  | intro {named named' : List (String × Json)}
      (related : Related (fun _ => Redirected sectionName name «alias») named named')
      (name_mem : name ∈ Entries.keys named) (not_mem : «alias» ∉ Entries.keys named)
      (fresh : ∀ e ∈ named, refersTo? sectionName e.2 ≠ some «alias») :
      SectionAliased (.obj named) (.obj (named' ++ [(«alias», reference sectionName name)]))

/-- Components with an alias in one section. -/
inductive ComponentsAliased : Json → Json → Prop
  | intro {sections sections' : List (String × Json)}
      (related : Related (Among [sectionName] fun _ => SectionAliased sectionName name «alias»)
        sections sections')
      (section_mem : sectionName ∈ Entries.keys sections) :
      ComponentsAliased (.obj sections) (.obj sections')

/-- A use of a component, which may have been redirected to the alias. It did not refer to the alias
before, and if it stood for something, its chain is not too long now. -/
structure UseAliased (components components' : List (String × Json)) (v v' : Json) : Prop where
  redirected : Redirected sectionName name «alias» v v'
  fresh : refersTo? sectionName v ≠ some «alias»
  short : resolve? components sectionName v ≠ none →
    ∀ names t, Leads components' sectionName names v' t → «alias» ∈ names →
      names.length < chainLimit

/-- Uses of one section, which may have been redirected; those of other sections are the same. -/
def usesAliased (components components' : List (String × Json)) (used : String) :
    Json → Json → Prop :=
  if used = sectionName then UseAliased sectionName name «alias» components components'
  else fun v v' => v' = v

/-- How the values of a document with an alias are related to those without it. -/
def partAliased (components components' : List (String × Json)) (key : String) :
    Json → Json → Prop :=
  if key = "paths" then
    FieldsRelated fun _ =>
      PathRelated (usesAliased sectionName name «alias» components components')
  else ComponentsAliased sectionName name «alias»

/-- A document with an alias for a component, to which references in the same section and uses in
the paths may have been redirected. -/
inductive DocumentAliased : Json → Json → Prop
  | intro {root root' : List (String × Json)}
      (related : Related (Among ["paths", "components"]
        (partAliased sectionName name «alias» (componentsOf (.obj root))
        (componentsOf (.obj root')))) root root')
      (components_mem : "components" ∈ Entries.keys root) :
      DocumentAliased (.obj root) (.obj root')

variable {sectionName name «alias»}

theorem SectionAliased.aliased (h : SectionAliased sectionName name «alias» v v')
    (hv : Entries.get? sectionName components = some v)
    (hv' : Entries.get? sectionName components' = some v') :
    Aliased sectionName name «alias» components components' := by
  have hold : ∀ key, component? components sectionName key = v.get? key := by
    intro key
    rw [component?, hv]
    rfl
  have hnew : ∀ key, component? components' sectionName key = v'.get? key := by
    intro key
    rw [component?, hv']
    rfl
  cases h with
  | @intro named named' related name_mem not_mem fresh =>
    have hget : ∀ key, (Json.obj named).get? key = Entries.get? key named := fun _ => rfl
    have hget' : ∀ key, (Json.obj (named' ++ [(«alias», reference sectionName name)])).get? key =
        (Entries.get? key named').or
          (if «alias» = key then reference sectionName name else none) := by
      intro key
      exact Entries.get?_append key named' _
    have habsent : Entries.get? «alias» named = none := Entries.get?_eq_none_iff.mpr not_mem
    constructor
    case named =>
      rw [hold, hget, Ne, Entries.get?_eq_none_iff, not_not]
      exact name_mem
    case absent => rw [hold, hget, habsent]
    case reference =>
      have hkeys := related.keys_eq
      rw [← hkeys] at not_mem
      rw [hnew, hget', Entries.get?_eq_none_iff.mpr not_mem, if_pos rfl]
      rfl
    case known =>
      intro key w hw
      rw [hold, hget] at hw
      rcases related.get? key with ⟨hnone, -⟩ | ⟨x, w', hx, hw', hredirected⟩
      · rw [hw] at hnone
        cases hnone
      · obtain rfl := Option.some.inj (hw.symm.trans hx)
        refine ⟨w', ?_, hredirected⟩
        rw [hnew, hget', hw']
        rfl
    case fresh =>
      intro key w hw
      rw [hold, hget] at hw
      exact fresh _ (Entries.mem_of_get? hw)
    case unknown =>
      intro key hne hnone
      rw [hold, hget] at hnone
      rcases related.get? key with ⟨-, hnone'⟩ | ⟨x, w', hx, -⟩
      · rw [hnew, hget', hnone', if_neg (Ne.symm hne)]
        rfl
      · rw [hnone] at hx
        cases hx

/-- With an alias, uses stand for what they stood for. -/
theorem ComponentsAliased.agree
    (h : ComponentsAliased sectionName name «alias» (.obj components) (.obj components')) :
    Agree (usesAliased sectionName name «alias» components components') components components' := by
  cases h with
  | intro related section_mem =>
    intro used w w' hw
    by_cases hused : used = sectionName
    · subst hused
      rcases related.get? used with ⟨hnone, -⟩ | ⟨v, v', hv, hv', hsection⟩
      · exact absurd section_mem (Entries.get?_eq_none_iff.mp hnone)
      · rw [Among, if_pos List.mem_cons_self] at hsection
        rw [usesAliased, if_pos rfl] at hw
        exact (hsection.aliased hv hv').resolve?_eq hw.redirected hw.fresh hw.short
    · rw [usesAliased, if_neg hused] at hw
      rw [hw]
      exact resolve?_congr (related.get?_eq (by simpa using hused)) w

/-! ## Paths -/

theorem document_obj (root : List (String × Json)) :
    document (.obj root) =
      .obj (Entries.modify "paths" (paths (componentsOf (.obj root))) root) :=
  rfl

theorem agree_componentsOf {root root' : List (String × Json)}
    (h : Related (Among ["paths", "components"]
      (partAliased sectionName name «alias» (componentsOf (.obj root))
        (componentsOf (.obj root')))) root root')
    (hmem : "components" ∈ Entries.keys root) :
    Agree (usesAliased sectionName name «alias» (componentsOf (.obj root))
        (componentsOf (.obj root'))) (componentsOf (.obj root)) (componentsOf (.obj root')) := by
  rcases h.get? "components" with ⟨hnone, -⟩ | ⟨v, v', hv, hv', hcomponents⟩
  · exact absurd hmem (Entries.get?_eq_none_iff.mp hnone)
  · have haliased : ComponentsAliased sectionName name «alias» v v' := hcomponents
    have hof (entries : List (String × Json)) :
        componentsOf (.obj entries) =
          ((Entries.get? "components" entries).bind Json.entries?).getD [] := rfl
    rw [hof root, hof root', hv, hv']
    cases haliased with
    | intro related section_mem => exact (ComponentsAliased.intro related section_mem).agree

theorem componentsOf_modify (f g : Json → Json) (root : List (String × Json)) :
    componentsOf (.obj (Entries.modify "info" f (Entries.modify "openapi" g root))) =
      componentsOf (.obj root) := by
  have hof (entries : List (String × Json)) :
      componentsOf (.obj entries) =
        ((Entries.get? "components" entries).bind Json.entries?).getD [] := rfl
  rw [hof, hof, Entries.get?_modify, if_neg (by decide), Entries.get?_modify,
    if_neg (by decide)]

/-- What is done to both documents before they are read makes their paths the same. -/
theorem related_modify_paths {root root' : List (String × Json)}
    (h : Related (Among ["paths", "components"]
      (partAliased sectionName name «alias» (componentsOf (.obj root))
        (componentsOf (.obj root')))) root root')
    (hmem : "components" ∈ Entries.keys root) (hkeys : (Json.obj root).hasDistinctKeys = true)
    (f g : Json → Json) :
    Related (Among ["components"] fun _ => ComponentsAliased sectionName name «alias»)
      (Entries.modify "paths" (paths (componentsOf (.obj root)))
        (Entries.modify "info" f (Entries.modify "openapi" g root)))
      (Entries.modify "paths" (paths (componentsOf (.obj root')))
        (Entries.modify "info" f (Entries.modify "openapi" g root'))) := by
  have hagree := agree_componentsOf h hmem
  obtain ⟨hnodup, hvalues⟩ := (Json.hasDistinctKeys_obj root).mp hkeys
  have hparts : Related (Among ["paths", "components"] fun key v v' =>
      partAliased sectionName name «alias» (componentsOf (.obj root))
        (componentsOf (.obj root')) key v v' ∧
        v.hasDistinctKeys = true) root root' := h.among_and hvalues
  have hpaths : ∀ v v', partAliased sectionName name «alias» (componentsOf (.obj root))
      (componentsOf (.obj root')) "paths" v v' ∧ v.hasDistinctKeys = true →
        paths (componentsOf (.obj root')) v' = paths (componentsOf (.obj root)) v :=
    fun _ _ hv => paths_eq hagree hv.1 hv.2
  have hopenapi : "openapi" ∉ ["paths", "components"] := by decide
  have hinfo : "info" ∉ ["paths", "components"] := by decide
  have htexts := (hparts.modify_other hopenapi g).modify_other hinfo f
  have hequal := htexts.modify (by rwa [Entries.keys_modify, Entries.keys_modify]) (by decide)
    hpaths
  refine hequal.mono fun e _ v' hR => ?_
  unfold Among at hR ⊢
  split_ifs with hkey
  · rw [if_pos hkey, List.mem_singleton.mp hkey] at hR
    exact hR.1
  · rwa [if_neg hkey] at hR

/-- Once references are replaced, documents differ in their components only. -/
theorem exists_related_document {root root' : List (String × Json)}
    (h : Related (Among ["paths", "components"]
      (partAliased sectionName name «alias» (componentsOf (.obj root))
        (componentsOf (.obj root')))) root root')
    (hmem : "components" ∈ Entries.keys root) (hkeys : (Json.obj root).hasDistinctKeys = true) :
    ∃ entries entries', document (Document.textFields (.obj root)) = .obj entries ∧
      document (Document.textFields (.obj root')) = .obj entries' ∧
      Related (Among ["components"] fun _ => ComponentsAliased sectionName name «alias»)
        entries entries' := by
  -- the components by which references are replaced are those of the value as it was given
  refine ⟨_, _, document_obj _, document_obj _, ?_⟩
  rw [componentsOf_modify, componentsOf_modify]
  exact related_modify_paths h hmem hkeys _ _

/-! ## Readings -/

section Readings

variable {α σ : Type}

/-- Where references are passed over, it does not matter where they lead. -/
theorem Redirected.asRecord_eq {r : Json.Record} {enter : String → Json → σ → Json.Typed σ}
    {draft t : σ} (hskip : ∀ v s, enter "$ref" v s = .ok s)
    (h : Redirected sectionName name «alias» v v') (hread : Json.asRecord r enter draft v = .ok t) :
    Json.asRecord r enter draft v' = .ok t := by
  cases h with
  | same => exact hread
  | redirected =>
    have henter : ∀ key w w' s s' u, Among ["$ref"] (fun _ _ _ => True) key w w' → s = s' →
        enter key w s = .ok u → ∃ u', enter key w' s' = .ok u' ∧ u = u' := by
      rintro key w w' s s' u hR rfl hu
      unfold Among at hR
      split_ifs at hR with hkey
      · rw [List.mem_singleton.mp hkey, hskip] at hu ⊢
        exact ⟨u, hu, rfl⟩
      · rw [hR]
        exact ⟨u, hu, rfl⟩
    obtain ⟨u, hu, rfl⟩ := Json.readEntries_related henter (Entries.related_modify "$ref" _ _) rfl
      hread
    exact hu

theorem SectionAliased.exists_asMap {read : Json → Json.Typed α}
    (h : SectionAliased sectionName name «alias» v v')
    (hredirected : ∀ w w' a, Redirected sectionName name «alias» w w' → read w = .ok a →
      read w' = .ok a)
    (hreference : ∃ a, read (reference sectionName name) = .ok a)
    (hread : ∃ parts, Json.asMap read v = .ok parts) :
    ∃ parts, Json.asMap read v' = .ok parts := by
  cases h with
  | intro related =>
    have hnamed := Json.exists_readNamed_iff.mp hread
    refine Json.exists_readNamed_iff.mpr fun e' he' => ?_
    rcases List.mem_append.mp he' with he' | he'
    · obtain ⟨e, he, hR⟩ := related.exists_of_mem he'
      obtain ⟨a, ha⟩ := hnamed e he
      exact ⟨a, hredirected _ _ a hR ha⟩
    · rw [List.mem_singleton.mp he']
      exact hreference

end Readings

end Inline

/-! ## Documents that are read -/

variable {sectionName name «alias» : String} {v v' : Json}

theorem RequestBody.read_redirected {b : RequestBody}
    (h : Inline.Redirected sectionName name «alias» v v') (hread : read v = .ok b) :
    read v' = .ok b :=
  h.asRecord_eq (fun _ _ => rfl) hread

theorem Response.read_redirected {r : Response}
    (h : Inline.Redirected sectionName name «alias» v v') (hread : read v = .ok r) :
    read v' = .ok r :=
  h.asRecord_eq (fun _ _ => rfl) hread

namespace Components

/-- Whether a value can be entered does not depend on what was entered before. -/
theorem exists_enter {key : String} {c t : Components} (h : enter key v c = .ok t)
    (c' : Components) : ∃ t', enter key v c' = .ok t' := by
  unfold enter at h ⊢
  split at h
  · obtain ⟨a, ha, -⟩ := exists_of_bind_eq_ok h
    exact ⟨_, bind_of_eq_ok ha _⟩
  · obtain ⟨a, ha, -⟩ := exists_of_bind_eq_ok h
    exact ⟨_, bind_of_eq_ok ha _⟩
  · obtain ⟨a, ha, -⟩ := exists_of_bind_eq_ok h
    exact ⟨_, bind_of_eq_ok ha _⟩
  · obtain ⟨a, ha, -⟩ := exists_of_bind_eq_ok h
    exact ⟨_, bind_of_eq_ok ha _⟩
  · exact ⟨c', rfl⟩

/-- Request bodies and responses have no field that a reference lacks. -/
theorem exists_enter_aliased (hsection : sectionName = "requestBodies" ∨ sectionName = "responses")
    (h : Inline.SectionAliased sectionName name «alias» v v') {c t : Components}
    (hread : enter sectionName v c = .ok t) (c' : Components) :
    ∃ t', enter sectionName v' c' = .ok t' := by
  rcases hsection with rfl | rfl
  · obtain ⟨parts, hparts, -⟩ := exists_of_bind_eq_ok hread
    obtain ⟨parts', hparts'⟩ := h.exists_asMap (fun _ _ _ => RequestBody.read_redirected)
      ⟨_, rfl⟩ ⟨parts, hparts⟩
    exact ⟨_, bind_of_eq_ok hparts' _⟩
  · obtain ⟨parts, hparts, -⟩ := exists_of_bind_eq_ok hread
    obtain ⟨parts', hparts'⟩ := h.exists_asMap (fun _ _ _ => Response.read_redirected)
      ⟨_, rfl⟩ ⟨parts, hparts⟩
    exact ⟨_, bind_of_eq_ok hparts' _⟩

theorem exists_read_aliased (hsection : sectionName = "requestBodies" ∨ sectionName = "responses")
    (h : Inline.ComponentsAliased sectionName name «alias» v v') {c : Components}
    (hread : read v = .ok c) : ∃ c', read v' = .ok c' := by
  cases h with
  | intro related =>
    have henter : ∀ key w w' (c c' t : Components),
        Among [sectionName] (fun _ => Inline.SectionAliased sectionName name «alias») key w w' →
          True → enter key w c = .ok t → ∃ t', enter key w' c' = .ok t' ∧ True := by
      intro key w w' c c' t hR _ ht
      unfold Among at hR
      split_ifs at hR with hkey
      · obtain rfl := List.mem_singleton.mp hkey
        obtain ⟨t', ht'⟩ := exists_enter_aliased hsection hR ht c'
        exact ⟨t', ht', trivial⟩
      · obtain ⟨t', ht'⟩ := exists_enter ht c'
        exact ⟨t', hR ▸ ht', trivial⟩
    obtain ⟨c', hc', -⟩ := Json.readEntries_related henter related trivial hread
    exact ⟨c', hc'⟩

end Components

namespace Document

theorem enter_components {key : String} {s t : Draft} (hkey : key ≠ "components")
    (h : enter key v s = .ok t) (components : Option Components) :
    enter key v { s with components } = .ok { t with components } := by
  unfold enter at h ⊢
  split at h
  · obtain ⟨a, ha, ht⟩ := exists_of_bind_eq_ok h
    cases ht
    exact bind_of_eq_ok ha _
  · obtain ⟨a, ha, ht⟩ := exists_of_bind_eq_ok h
    cases ht
    exact bind_of_eq_ok ha _
  · obtain ⟨a, ha, ht⟩ := exists_of_bind_eq_ok h
    cases ht
    exact bind_of_eq_ok ha _
  · exact absurd rfl hkey
  · obtain ⟨a, ha, ht⟩ := exists_of_bind_eq_ok h
    cases ht
    exact bind_of_eq_ok ha _
  · cases h
    rfl

theorem enter_aliased (hsection : sectionName = "requestBodies" ∨ sectionName = "responses")
    {key : String} {s t : Draft}
    (h : Among ["components"] (fun _ => Inline.ComponentsAliased sectionName name «alias») key v v')
    (hread : enter key v s = .ok t) (old : Option Components) :
    ∃ components, enter key v' { s with components := old } = .ok { t with components } := by
  unfold Among at h
  split_ifs at h with hkey
  · obtain rfl := List.mem_singleton.mp hkey
    obtain ⟨o, ho, ht⟩ := exists_of_bind_eq_ok hread
    cases ht
    cases h with
    | intro related section_mem =>
      obtain ⟨c, hc, -⟩ := exists_of_bind_eq_ok ho
      have haliased := Inline.ComponentsAliased.intro related section_mem
      obtain ⟨c', hc'⟩ := Components.exists_read_aliased hsection haliased hc
      have hoptional := bind_of_eq_ok hc' fun c => .ok (some c)
      exact ⟨some c', bind_of_eq_ok hoptional _⟩
  · exact ⟨old, h ▸ enter_components (by simpa using hkey) hread old⟩

theorem readTyped_aliased (hsection : sectionName = "requestBodies" ∨ sectionName = "responses")
    {entries entries' : List (String × Json)}
    (h : Related (Among ["components"] fun _ => Inline.ComponentsAliased sectionName name «alias»)
      entries entries') {d : Document} (hread : readTyped (.obj entries) = .ok d) :
    ∃ components, readTyped (.obj entries') = .ok { d with components } := by
  -- at every field, what was read so far differs in the components only
  have henter : ∀ key w w' s s' t,
      Among ["components"] (fun _ => Inline.ComponentsAliased sectionName name «alias») key w w' →
        (∃ components, s' = { s with components }) → enter key w s = .ok t →
          ∃ t', enter key w' s' = .ok t' ∧ ∃ components, t' = { t with components } := by
    rintro key w w' s s' t hR ⟨old, rfl⟩ ht
    obtain ⟨components, hcomponents⟩ := enter_aliased hsection hR ht old
    exact ⟨_, hcomponents, components, rfl⟩
  obtain ⟨t, ht, hread⟩ := exists_of_bind_eq_ok hread
  obtain ⟨version, hversion, hread⟩ := exists_of_bind_eq_ok hread
  obtain ⟨info, hinfo, hread⟩ := exists_of_bind_eq_ok hread
  cases hread
  obtain ⟨t', ht', components, rfl⟩ := Json.readEntries_related henter h ⟨none, rfl⟩ ht
  refine ⟨components, (bind_of_eq_ok ht' _).trans ?_⟩
  exact (bind_of_eq_ok hversion _).trans (bind_of_eq_ok hinfo _)

/-- Nothing is normalized in the components, nor by means of them. -/
theorem normalize_components (d : Document) (components : Option Components) :
    { d with components }.normalize = { d.normalize with components } := by
  have htags : ∀ e : Document, { e with components }.declareTags =
      { e.declareTags with components } := by
    intro e
    unfold declareTags
    split_ifs <;> rfl
  exact htags d.withNormalPaths

/-- The rules do not look into components, and into paths only as far as to see that they are
there. -/
theorem check_aliased {root root' components components' : List (String × Json)}
    (h : Related (Among ["paths", "components"]
      (Inline.partAliased sectionName name «alias» components components')) root root') :
    check (.obj root') = check (.obj root) := by
  have hversion : checkVersion root' = checkVersion root := by
    rw [checkVersion, checkVersion, h.get?_eq (by decide)]
  have hinfo : checkInfo root' = checkInfo root := by
    rw [checkInfo, checkInfo, h.get?_eq (by decide)]
  have hpaths : checkPaths root' = checkPaths root := by
    rw [checkPaths, checkPaths]
    rcases h.get? "paths" with ⟨hnone, hnone'⟩ | ⟨v, v', hv, hv', hpaths⟩
    · rw [hnone, hnone']
    · have hfields : FieldsRelated (fun _ => Inline.PathRelated
          (Inline.usesAliased sectionName name «alias» components components')) v v' := hpaths
      rw [hv, hv']
      cases hfields with
      | fields => rfl
      | other => rfl
  rw [check, check, hversion, hinfo, hpaths]

/-- References by way of an alias have the same effect as those to what it stands for. -/
theorem ofJson_aliased {v : Json.Keyed}
    (h : Inline.DocumentAliased sectionName name «alias» v.json v') :
    (Inline.document (textFields v')).get? "paths" =
        (Inline.document (textFields v.json)).get? "paths" ∧
      (sectionName = "requestBodies" ∨ sectionName = "responses" →
        ∀ d, ofJson v.json = .ok d → ∃ components, ofJson v' = .ok { d with components }) := by
  obtain ⟨v, hkeys⟩ := v
  dsimp only at h ⊢
  cases h with
  | @intro root root' related components_mem =>
    obtain ⟨entries, entries', hdocument, hdocument', hentries⟩ :=
      Inline.exists_related_document related components_mem hkeys
    rw [hdocument, hdocument']
    refine ⟨hentries.get?_eq (by decide), fun hsection d hd => ?_⟩
    unfold ofJson at hd ⊢
    rw [check_aliased related]
    split at hd
    next => cases hd
    next hcheck =>
      split at hd
      next => cases hd
      next e he =>
        cases hd
        rw [hdocument] at he
        obtain ⟨components, he'⟩ := readTyped_aliased hsection hentries he
        refine ⟨components, ?_⟩
        rw [hdocument', he', ← normalize_components]

/-! ## Documents with one operation -/

open Inline

def single (operation : Json) (sectionName : String) (named : List (String × Json)) : Json :=
  .obj [("openapi", .str "3.0.0"), ("info", .obj [("title", .str "T"), ("version", .str "1")]),
    ("paths", .obj [("/a", .obj [("get", operation)])]),
    ("components", .obj [(sectionName, .obj named)])]

/-- An operation with two responses, one of which may be referred to by different names. -/
def twoResponses (name : String) : Json :=
  .obj [("responses", .obj [("200", reference "responses" name),
    ("404", reference "responses" "Other")])]

/-- A response, and another one that is the same. -/
def twoNames (name : String) : List (String × Json) :=
  [("Found", .obj [("description", .str "found")]), ("Other", reference "responses" name)]

/-- A document with both responses. -/
def direct : Json :=
  single (twoResponses "Found") "responses" (twoNames "Found")

/-- The same document with an alias for the first of them. -/
def indirect : Json :=
  single (twoResponses "Known") "responses"
    (twoNames "Known" ++ [("Known", reference "responses" "Found")])

theorem leads_known : Leads (componentsOf indirect) "responses" ["Known", "Found"]
    (reference "responses" "Known") (.obj [("description", .str "found")]) := by
  have hknown : component? (componentsOf indirect) "responses" "Known" =
      some (reference "responses" "Found") := rfl
  have hfound : component? (componentsOf indirect) "responses" "Found" =
      some (.obj [("description", .str "found")]) := rfl
  have hlast := Leads.next (refersTo?_reference "responses" "Found") hfound (Leads.here rfl)
  exact Leads.next (refersTo?_reference "responses" "Known") hknown hlast

theorem leads_other : Leads (componentsOf indirect) "responses" ["Other", "Known", "Found"]
    (reference "responses" "Other") (.obj [("description", .str "found")]) :=
  Leads.next (refersTo?_reference "responses" "Other") rfl leads_known

theorem documentAliased_direct :
    DocumentAliased "responses" "Found" "Known" direct indirect := by
  have hredirected := redirected_reference "responses" "Found" "Known"
  have hknown : UseAliased "responses" "Found" "Known" (componentsOf direct) (componentsOf indirect)
      (reference "responses" "Found") (reference "responses" "Known") :=
    ⟨hredirected, by decide +kernel, fun _ _ _ h _ => leads_known.length_lt (by decide) h⟩
  have hother : UseAliased "responses" "Found" "Known" (componentsOf direct) (componentsOf indirect)
      (reference "responses" "Other") (reference "responses" "Other") :=
    ⟨Redirected.same _, by decide +kernel, fun _ _ _ h _ => leads_other.length_lt (by decide) h⟩
  have hresponses : OperationRelated
      (usesAliased "responses" "Found" "Known" (componentsOf direct) (componentsOf indirect))
      (twoResponses "Found") (twoResponses "Known") :=
    .fields (Related.of_value (Among.of_mem (by decide)
      (FieldsRelated.fields (.cons ⟨rfl, hknown⟩ (.cons ⟨rfl, hother⟩ .nil)))))
  have hpath : PathRelated
      (usesAliased "responses" "Found" "Known" (componentsOf direct) (componentsOf indirect))
      (.obj [("get", twoResponses "Found")]) (.obj [("get", twoResponses "Known")]) :=
    .fields (Related.of_value (Among.of_mem (by decide) hresponses))
  have hsection : SectionAliased "responses" "Found" "Known" (.obj (twoNames "Found"))
      (.obj (twoNames "Known" ++ [("Known", reference "responses" "Found")])) :=
    .intro (.cons ⟨rfl, .same _⟩ (.cons ⟨rfl, hredirected⟩ .nil)) (by decide) (by decide)
      (by decide +kernel)
  have hcomponents := ComponentsAliased.intro
    (Related.of_value (Among.of_mem List.mem_cons_self hsection)) List.mem_cons_self
  refine .intro (.cons ⟨rfl, rfl⟩ (.cons ⟨rfl, rfl⟩ (.cons ⟨rfl, ?_⟩ (.cons ⟨rfl, ?_⟩ .nil))))
    (by decide)
  · exact Among.of_mem (by decide) (FieldsRelated.fields (Related.of_value hpath))
  · exact Among.of_mem (by decide) hcomponents

theorem ofJson_indirect :
    DocumentAliased "responses" "Found" "Known" direct indirect ∧
      (Inline.document (textFields indirect)).get? "paths" =
        (Inline.document (textFields direct)).get? "paths" ∧
      ∃ d components, ofJson direct = .ok d ∧
        d.endpoints.map (fun e => Entries.keys e.operation.responses) = [["200", "404"]] ∧
        ofJson indirect = .ok { d with components } := by
  have hsome : ((ofJson direct).toOption.map fun d =>
      d.endpoints.map fun e => Entries.keys e.operation.responses) = some [["200", "404"]] := by
    decide +kernel
  obtain ⟨d, hd, hresponses⟩ := Option.map_eq_some_iff.mp hsome
  have hkeys : direct.hasDistinctKeys = true := by decide +kernel
  obtain ⟨hpaths, hread⟩ := ofJson_aliased (v := ⟨direct, hkeys⟩) documentAliased_direct
  obtain ⟨components, hindirect⟩ := hread (Or.inr rfl) d (eq_ok_of_toOption hd)
  exact ⟨documentAliased_direct, hpaths, d, components, eq_ok_of_toOption hd, hresponses,
    hindirect⟩

/-- Responses each of which but the first is a reference to the one before. -/
def chained (n : Nat) : List (String × Json) :=
  ("0", .obj [("description", .str "found")]) ::
    (List.range n).map fun i => (toString (i + 1), reference "responses" (toString i))

def usingResponse (name : String) (named : List (String × Json)) : Json :=
  single (.obj [("responses", .obj [("200", reference "responses" name)])]) "responses" named

def usingParameter (name : String) (named : List (String × Json)) : Json :=
  single (.obj [("parameters", .arr [reference "parameters" name])]) "parameters" named

def page : String × Json :=
  ("Page", .obj [("name", .str "page"), ("in", .str "query")])

/-- With an alias, a chain of references may become too long; and a declared parameter must not be a
reference. -/
theorem ofJson_not_aliased :
    (∃ d d', ofJson (usingResponse "14" (chained 14)) = .ok d ∧
      ofJson (usingResponse "A" (chained 14 ++ [("A", reference "responses" "14")])) = .ok d' ∧
      d'.paths ≠ d.paths) ∧
    (∃ d, ofJson (usingParameter "Page" [page]) = .ok d) ∧
      ¬∃ d, ofJson (usingParameter "A" [page, ("A", reference "parameters" "Page")]) = .ok d := by
  have hchain : ((ofJson (usingResponse "14" (chained 14))).toOption.bind fun d =>
      (ofJson (usingResponse "A" (chained 14 ++ [("A", reference "responses" "14")]))).toOption.map
        fun d' => decide (d'.paths = d.paths)) = some false := by
    decide +kernel
  have hpage : (ofJson (usingParameter "Page" [page])).toOption.isSome = true := by decide +kernel
  have hnone : (ofJson (usingParameter "A" [page, ("A", reference "parameters" "Page")])).toOption =
      none := by
    decide +kernel
  refine ⟨?_, ?_, ?_⟩
  · obtain ⟨d, hd, hmap⟩ := Option.bind_eq_some_iff.mp hchain
    obtain ⟨d', hd', hpaths⟩ := Option.map_eq_some_iff.mp hmap
    exact ⟨d, d', eq_ok_of_toOption hd, eq_ok_of_toOption hd', of_decide_eq_false hpaths⟩
  · obtain ⟨d, hd⟩ := Option.isSome_iff_exists.mp hpage
    exact ⟨d, eq_ok_of_toOption hd⟩
  · rintro ⟨d, hd⟩
    rw [hd] at hnone
    cases hnone

end Document

end OpenApiClient
