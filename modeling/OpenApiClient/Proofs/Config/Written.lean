import OpenApiClient.Config.Read
import OpenApiClient.Proofs.Config.Layers
import OpenApiClient.Proofs.Json.Direct

/-!
# Written settings

Settings and configurations are written in the same way: a field has one key and one form in which
its value is written. A `Form` carries what makes reading right, that null leaves a choice open and
that a written value is read back. With one such form for every field, reading an object of entries
of different fields restores the settings that it was written from, in whatever order the entries
stand and whether open fields are left out or are null (`read_written`).
-/

namespace OpenApiClient

/-- How values of a type are written and read. -/
structure Form (α : Type) where
  write : α → Json
  read : Json.Direct (Option α)
  readsAs_null : Json.Direct.ReadsAs read .null none
  readsAs_write : ∀ a, Json.Direct.ReadsAs read (write a) (some a)

namespace Form

open Json Json.Direct

variable {α : Type}

def choice (names : List (String × α)) (name : α → String)
    (h : ∀ a, names.lookup (name a) = some a) : Form α where
  write a := .str (name a)
  read := settingReader.choice names ()
  readsAs_null := readsAs_optional_null
  readsAs_write a := readsAs_optional trivial (by simp [kind]) (readsAs_name (h a))

def text : Form String where
  write := .str
  read := settingReader.text ()
  readsAs_null := readsAs_optional_null
  readsAs_write s := readsAs_optional trivial (by simp [kind]) (readsAs_text _ s)

def flag : Form Bool where
  write := .bool
  read := settingReader.flag ()
  readsAs_null := readsAs_optional_null
  readsAs_write b := readsAs_optional trivial (by simp [kind]) (readsAs_flag b)

theorem hasFiniteNumbers_texts (texts : List String) :
    ∀ v ∈ texts.map Json.str, v.HasFiniteNumbers := by
  intro v hv
  obtain ⟨s, -, rfl⟩ := List.mem_map.mp hv
  trivial

theorem readsAs_texts (texts : List String) :
    ReadsAs (list (Direct.text "a string")) (Settings.textsToJson texts) texts := by
  apply readsAs_list _ (hasFiniteNumbers_texts texts)
  rw [List.forall₂_map_left_iff, List.forall₂_same]
  intro s _
  exact readsAs_text _ s

def texts : Form (List String) where
  write := Settings.textsToJson
  read := settingReader.texts ()
  readsAs_null := readsAs_optional_null
  readsAs_write texts := by
    have hfinite : (Settings.textsToJson texts).HasFiniteNumbers :=
      (itemsHaveFiniteNumbers_iff _).mpr (hasFiniteNumbers_texts texts)
    exact readsAs_optional hfinite (by simp [Settings.textsToJson, kind]) (readsAs_texts texts)

end Form

/-! ## Fields -/

theorem Language.lookup_name (l : Language) : names.lookup l.name = some l := by
  cases l <;> rfl

theorem ExportStyle.lookup_name (s : ExportStyle) : names.lookup s.name = some s := by
  cases s <;> rfl

theorem NameStyle.lookup_name (s : NameStyle) : names.lookup s.name = some s := by
  cases s <;> rfl

namespace Config.Field

def key : Field → String
  | .language => "codeLanguage"
  | .outputTags => "outputTags"
  | .excludeTags => "excludeTags"
  | .functionNaming => "functionNaming"
  | .typeNaming => "typeNaming"
  | .generateIndex => "generateIndex"
  | .generateUtils => "generateUtils"
  | .separateTypes => "separateTypes"
  | .useAsync => "useAsync"
  | .includeComments => "includeComments"
  | .exportStyle => "exportStyle"
  | .importTemplate => "importTemplate"
  | .requestUtilPath => "requestUtilPath"

def form : (f : Field) → Form f.Value
  | .language => .choice Language.names Language.name Language.lookup_name
  | .outputTags => .texts
  | .excludeTags => .texts
  | .functionNaming => .choice NameStyle.names NameStyle.name NameStyle.lookup_name
  | .typeNaming => .choice NameStyle.names NameStyle.name NameStyle.lookup_name
  | .generateIndex => .flag
  | .generateUtils => .flag
  | .separateTypes => .flag
  | .useAsync => .flag
  | .includeComments => .flag
  | .exportStyle => .choice ExportStyle.names ExportStyle.name ExportStyle.lookup_name
  | .importTemplate => .text
  | .requestUtilPath => .text

def choose : (f : Field) → Option f.Value → Settings → Settings
  | .language, v, s => { s with language := v }
  | .outputTags, v, s => { s with outputTags := v }
  | .excludeTags, v, s => { s with excludeTags := v }
  | .functionNaming, v, s => { s with functionNaming := v }
  | .typeNaming, v, s => { s with typeNaming := v }
  | .generateIndex, v, s => { s with generateIndex := v }
  | .generateUtils, v, s => { s with generateUtils := v }
  | .separateTypes, v, s => { s with separateTypes := v }
  | .useAsync, v, s => { s with useAsync := v }
  | .includeComments, v, s => { s with includeComments := v }
  | .exportStyle, v, s => { s with exportStyle := v }
  | .importTemplate, v, s => { s with importTemplate := v }
  | .requestUtilPath, v, s => { s with requestUtilPath := v }

theorem choice_choose (f : Field) (v : Option f.Value) (s : Settings) :
    f.choice (f.choose v s) = v := by
  cases f <;> rfl

theorem choice_choose_of_ne {f g : Field} (h : g ≠ f) (v : Option f.Value) (s : Settings) :
    g.choice (f.choose v s) = g.choice s := by
  cases f <;> cases g <;> first | rfl | exact absurd rfl h

def all : List Field :=
  [.language, .outputTags, .excludeTags, .functionNaming, .typeNaming, .generateIndex,
    .generateUtils, .separateTypes, .useAsync, .includeComments, .exportStyle, .importTemplate,
    .requestUtilPath]

theorem mem_all (f : Field) : f ∈ all := by
  cases f <;> decide

theorem nodup_all : all.Nodup := by
  decide

theorem map_key_all : all.map key = Settings.wireRecord.fields :=
  rfl

theorem key_mem (f : Field) : f.key ∈ Settings.wireRecord.fields := by
  rw [← map_key_all]
  exact List.mem_map_of_mem f.mem_all

theorem key_injective : Function.Injective key := by
  have hnodup : (all.map key).Nodup := by decide
  intro f g h
  exact List.inj_on_of_nodup_map hnodup f.mem_all g.mem_all h

/-- Entering a field is choosing what its form reads. -/
theorem enter_key (f : Field) (s : Settings) : s.enter Json.settingReader f.key () =
    (do return f.choose (← f.form.read) s) := by
  cases f <;> rfl

/-- What is written for a field of settings; an open choice is null. -/
def entry (f : Field) (s : Settings) : String × Json :=
  (f.key, ((f.choice s).map f.form.write).getD .null)

/-- The entry of a field is read as the choice that settings make for the field. -/
theorem readsAs_entry (f : Field) (s : Settings) :
    Json.Direct.ReadsAs f.form.read (f.entry s).2 (f.choice s) := by
  unfold entry
  cases f.choice s with
  | none => exact f.form.readsAs_null
  | some v => exact f.form.readsAs_write v

end Config.Field

/-! ## Settings -/

namespace Settings

open Json Json.Direct

variable (s : Settings)

def written (fields : List Config.Field) : Json :=
  .obj (fields.map fun f => f.entry s)

/-- **Step.** Entering the entry of a field makes the choice that the settings make for it. -/
theorem readsAs_enter (f : Config.Field) (draft : Settings) :
    ReadsAs (draft.enter settingReader f.key ()) (f.entry s).2 (f.choose (f.choice s) draft) := by
  intro sp depth blanks rest hblanks
  rw [f.enter_key, bind_ok (f.readsAs_entry s sp depth blanks rest hblanks)]
  rfl

/-- **Run.** Entering the entries of some fields makes the choices of the settings for these fields
and leaves the other ones. -/
theorem exists_enters (fields : List Config.Field) (draft : Settings) :
    ∃ result : Settings,
      Enters (fun key draft => draft.enter settingReader key ()) draft
        (fields.map fun f => f.entry s) result ∧
      ∀ g : Config.Field, g.choice result = if g ∈ fields then g.choice s else g.choice draft := by
  induction fields generalizing draft with
  | nil => exact ⟨draft, .nil draft, by simp⟩
  | cons f fields ih =>
    obtain ⟨result, henters, hchoice⟩ := ih (f.choose (f.choice s) draft)
    refine ⟨result, .cons (s.readsAs_enter f draft) henters, ?_⟩
    intro g
    rw [hchoice]
    by_cases hg : g = f
    · subst hg
      simp [g.choice_choose]
    · simp [hg, Config.Field.choice_choose_of_ne hg]

/-- Reading entries of different fields, among which all chosen ones are, restores the settings. -/
theorem readsAs_written {fields : List Config.Field} (hnodup : fields.Nodup)
    (hchosen : ∀ f : Config.Field, f ∈ fields ∨ f.choice s = none) :
    ReadsAs direct (s.written fields) s := by
  obtain ⟨result, henters, hchoice⟩ := s.exists_enters fields {}
  have heq : result = s := by
    apply eq_of_choices
    intro f
    rw [hchoice, f.choice_empty]
    split
    · rfl
    · rename_i hf
      exact ((hchosen f).resolve_left hf).symm
  rw [heq] at henters
  apply readsAs_record henters
  · intro e he
    obtain ⟨f, -, rfl⟩ := List.mem_map.mp he
    exact f.key_mem
  · rw [List.map_map]
    exact hnodup.map Config.Field.key_injective

theorem flatMap_entryOf (fields : List Config.Field) :
    (fields.flatMap fun f => entryOf f.key f.form.write (f.choice s)) =
      (fields.filter fun f => (f.choice s).isSome).map fun f => f.entry s := by
  induction fields with
  | nil => rfl
  | cons f fields ih =>
    rw [List.flatMap_cons, ih, List.filter_cons]
    cases hchoice : f.choice s with
    | none => simp [entryOf]
    | some v => simp [entryOf, Config.Field.entry, hchoice]

/-- Settings are written with an entry for every field that is chosen. -/
theorem toJson_eq_written :
    s.toJson = s.written (Config.Field.all.filter fun f => (f.choice s).isSome) := by
  rw [written, ← flatMap_entryOf, toJson]
  simp only [Config.Field.all, List.flatMap_cons, List.flatMap_nil, List.append_assoc,
    List.append_nil]
  rfl

theorem readsAs_toJson : ReadsAs direct s.toJson s := by
  rw [toJson_eq_written]
  apply s.readsAs_written (Config.Field.nodup_all.filter _)
  intro f
  cases hchoice : f.choice s with
  | none => exact .inr rfl
  | some v => exact .inl (List.mem_filter.mpr ⟨f.mem_all, by rw [hchoice]; rfl⟩)

/-- A text of a value that is read as settings gives these settings. -/
theorem read_document {v : Json} (h : ReadsAs direct v s) (sp : Spacing) :
    Settings.read .json (sp.document v) = .ok s := by
  have hdirect : readDirect direct ([] ++ (sp.text 0 v ++ [])) = .ok s :=
    readDirect_text h sp 0 (by simp) (by simp)
  rw [List.nil_append, List.append_nil] at hdirect
  simp only [Settings.read, Spacing.document, String.toList_ofList, hdirect]

end Settings

/-! ## Configurations -/

namespace Config

/-- The settings that choose everything as a configuration has it. -/
def settings (c : Config) : Settings where
  language := c.language
  outputTags := c.outputTags
  excludeTags := c.excludeTags
  functionNaming := c.functionNaming
  typeNaming := c.typeNaming
  generateIndex := c.generateIndex
  generateUtils := c.generateUtils
  separateTypes := c.separateTypes
  useAsync := c.useAsync
  includeComments := c.includeComments
  exportStyle := c.exportStyle
  importTemplate := c.importTemplate
  requestUtilPath := c.requestUtilPath

theorem ofSettings_settings (c : Config) : ofSettings c.settings = c :=
  rfl

/-- A configuration is written as the settings are that choose all of it. -/
theorem toJson_settings (c : Config) : c.settings.toJson = c.toJson :=
  rfl

end Config

/-- **Written settings.** The text of a configuration, compact or indented, is read as settings that
give the configuration again. The text of settings is read as these settings: a choice that was left
open is open again. So is one that is null in the text, whatever the order of the entries and the
spaces between them. -/
theorem Settings.read_written :
    (∀ c : Config, ∃ s : Settings, Settings.read .json c.toJson.compact = .ok s ∧
      Settings.read .json (c.toJson.pretty 0) = .ok s ∧ Config.ofSettings s = c) ∧
    (∀ s : Settings, Settings.read .json s.toJson.compact = .ok s ∧
      Settings.read .json (s.toJson.pretty 0) = .ok s) ∧
    ∀ (s : Settings) (sp : Json.Spacing) (fields : List Config.Field), fields.Nodup →
      (∀ f : Config.Field, f ∈ fields ∨ f.choice s = none) →
        Settings.read .json (sp.document (s.written fields)) = .ok s := by
  have hread : ∀ s : Settings, Settings.read .json s.toJson.compact = .ok s ∧
      Settings.read .json (s.toJson.pretty 0) = .ok s := by
    intro s
    rw [← Json.document_none, ← Json.document_indented]
    exact ⟨s.read_document s.readsAs_toJson .none, s.read_document s.readsAs_toJson .indented⟩
  refine ⟨?_, hread, ?_⟩
  · intro c
    have hsettings := hread c.settings
    rw [c.toJson_settings] at hsettings
    exact ⟨c.settings, hsettings.left, hsettings.right, c.ofSettings_settings⟩
  · intro s sp fields hnodup hchosen
    exact s.read_document (s.readsAs_written hnodup hchosen) sp

/-- Settings with a quote in a text and most choices open. -/
def Settings.sparse : Settings where
  outputTags := some ["say \"hi\"", ""]
  functionNaming := some .snake

theorem Settings.read_written_sparse :
    Json.Spacing.none.document (Settings.sparse.written [.useAsync, .functionNaming, .outputTags]) =
        "\x7b\"useAsync\":null,\"functionNaming\":\"snake_case\"," ++
          "\"outputTags\":[\"say \\\"hi\\\"\",\"\"]\x7d" ∧
      Settings.read .json (Json.Spacing.none.document
        (Settings.sparse.written [.useAsync, .functionNaming, .outputTags])) = .ok sparse := by
  constructor
  · rfl
  · apply Settings.read_written.right.right
    · decide
    · intro f
      cases f <;> first | exact .inr rfl | exact .inl (by decide)

end OpenApiClient
