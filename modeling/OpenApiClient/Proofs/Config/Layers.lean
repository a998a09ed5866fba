import Mathlib.Data.List.Induction
import OpenApiClient.Config.Basic

/-!
# Layers of settings

Settings can be stacked first and then applied to the default configuration, or be merged into it
one after another. Both give the same configuration, in which every field has the last value that
was chosen for it, or the default if there is none (`layers_agree`).

Settings and configurations have the same fields. All of them go by one rule each for stacking and
merging (`choice_layer`, `value_merge`), and settings and configurations are determined by their
fields; so the laws of layers are laws of a single optional value.
-/

namespace OpenApiClient

/-- The fields of a configuration, each of which settings may leave open. -/
inductive Config.Field where
  | language
  | outputTags
  | excludeTags
  | functionNaming
  | typeNaming
  | generateIndex
  | generateUtils
  | separateTypes
  | useAsync
  | includeComments
  | exportStyle
  | importTemplate
  | requestUtilPath
  deriving DecidableEq

namespace Config.Field

def Value : Field → Type
  | .language => Language
  | .outputTags | .excludeTags => List String
  | .functionNaming | .typeNaming => NameStyle
  | .generateIndex | .generateUtils | .separateTypes | .useAsync | .includeComments => Bool
  | .exportStyle => ExportStyle
  | .importTemplate | .requestUtilPath => String

def value : (f : Field) → Config → f.Value
  | .language => Config.language
  | .outputTags => Config.outputTags
  | .excludeTags => Config.excludeTags
  | .functionNaming => Config.functionNaming
  | .typeNaming => Config.typeNaming
  | .generateIndex => Config.generateIndex
  | .generateUtils => Config.generateUtils
  | .separateTypes => Config.separateTypes
  | .useAsync => Config.useAsync
  | .includeComments => Config.includeComments
  | .exportStyle => Config.exportStyle
  | .importTemplate => Config.importTemplate
  | .requestUtilPath => Config.requestUtilPath

def choice : (f : Field) → Settings → Option f.Value
  | .language => Settings.language
  | .outputTags => Settings.outputTags
  | .excludeTags => Settings.excludeTags
  | .functionNaming => Settings.functionNaming
  | .typeNaming => Settings.typeNaming
  | .generateIndex => Settings.generateIndex
  | .generateUtils => Settings.generateUtils
  | .separateTypes => Settings.separateTypes
  | .useAsync => Settings.useAsync
  | .includeComments => Settings.includeComments
  | .exportStyle => Settings.exportStyle
  | .importTemplate => Settings.importTemplate
  | .requestUtilPath => Settings.requestUtilPath

theorem value_merge (f : Field) (c : Config) (s : Settings) :
    f.value (c.merge s) = (f.choice s).getD (f.value c) := by
  cases f <;> rfl

theorem choice_layer (f : Field) (below above : Settings) :
    f.choice (below.layer above) = (f.choice above).or (f.choice below) := by
  cases f <;> rfl

theorem choice_empty (f : Field) : f.choice {} = none := by
  cases f <;> rfl

end Config.Field

/-- A configuration has no more to it than the values of its fields. -/
theorem Config.eq_of_values {c c' : Config} (h : ∀ f : Field, f.value c = f.value c') :
    c = c' := by
  cases c
  cases c'
  congr 1
  exacts [h .language, h .outputTags, h .excludeTags, h .functionNaming, h .typeNaming,
    h .generateIndex, h .generateUtils, h .separateTypes, h .useAsync, h .includeComments,
    h .exportStyle, h .importTemplate, h .requestUtilPath]

/-- Settings have no more to them than the choices for fields. -/
theorem Settings.eq_of_choices {s s' : Settings}
    (h : ∀ f : Config.Field, f.choice s = f.choice s') : s = s' := by
  cases s
  cases s'
  congr 1
  exacts [h .language, h .outputTags, h .excludeTags, h .functionNaming, h .typeNaming,
    h .generateIndex, h .generateUtils, h .separateTypes, h .useAsync, h .includeComments,
    h .exportStyle, h .importTemplate, h .requestUtilPath]

/-! ## Layers -/

namespace Settings

theorem layer_assoc (a b c : Settings) : (a.layer b).layer c = a.layer (b.layer c) := by
  apply eq_of_choices
  intro f
  rw [f.choice_layer, f.choice_layer, f.choice_layer, f.choice_layer, Option.or_assoc]

theorem empty_layer (s : Settings) : layer {} s = s := by
  apply eq_of_choices
  intro f
  rw [f.choice_layer, f.choice_empty, Option.or_none]

theorem layer_empty (s : Settings) : s.layer {} = s := by
  apply eq_of_choices
  intro f
  rw [f.choice_layer, f.choice_empty, Option.none_or]

/-- Settings stacked in order, the last ones on top. -/
def stacked (layers : List Settings) : Settings :=
  layers.foldl layer {}

/-- On top of a stack one sees the last choice that was made. -/
theorem choice_stacked (f : Config.Field) (layers : List Settings) :
    f.choice (stacked layers) = (layers.filterMap f.choice).getLast? := by
  unfold stacked
  induction layers using List.reverseRecOn with
  | nil => exact f.choice_empty
  | append_singleton layers s ih =>
    rw [List.foldl_append, List.foldl_cons, List.foldl_nil, f.choice_layer, ih,
      List.filterMap_append, List.getLast?_append]
    cases hchoice : f.choice s with
    | none => simp [hchoice]
    | some v => simp [hchoice]

end Settings

namespace Config

theorem merge_layer (c : Config) (below above : Settings) :
    c.merge (below.layer above) = (c.merge below).merge above := by
  apply eq_of_values
  intro f
  rw [f.value_merge, f.value_merge, f.value_merge, f.choice_layer]
  cases f.choice above <;> rfl

theorem merge_empty (c : Config) : c.merge {} = c := by
  apply eq_of_values
  intro f
  rw [f.value_merge, f.choice_empty, Option.getD_none]

theorem merge_foldl_layer (c : Config) (s : Settings) (layers : List Settings) :
    c.merge (layers.foldl Settings.layer s) = layers.foldl merge (c.merge s) := by
  induction layers generalizing s with
  | nil => rfl
  | cons above layers ih => rw [List.foldl_cons, List.foldl_cons, ih, merge_layer]

/-- **Layers.** Settings that are stacked and then applied give the configuration that they give
when they are merged into the default one after another. It does not matter in which order settings
are put together as long as they keep their places, and empty settings change nothing above or below
others. In the end every field has the last value that was chosen for it, or the default. -/
theorem layers_agree (layers : List Settings) :
    ofSettings (Settings.stacked layers) = layers.foldl merge standard ∧
      (∀ a b c : Settings, (a.layer b).layer c = a.layer (b.layer c)) ∧
      (∀ s : Settings, Settings.layer {} s = s ∧ s.layer {} = s) ∧
      ∀ f : Field, f.value (ofSettings (Settings.stacked layers)) =
        ((layers.filterMap f.choice).getLast?).getD (f.value standard) := by
  refine ⟨?_, Settings.layer_assoc, ?_, ?_⟩
  · rw [ofSettings, Settings.stacked, merge_foldl_layer, merge_empty]
  · intro s
    exact ⟨s.empty_layer, s.layer_empty⟩
  · intro f
    rw [ofSettings, f.value_merge, Settings.choice_stacked]

end Config

end OpenApiClient
