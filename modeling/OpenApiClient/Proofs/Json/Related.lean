import Mathlib.Data.List.Forall2
import OpenApiClient.Proofs.Json.Lookup
import OpenApiClient.Proofs.Json.Readings

/-!
# Related values

Two objects are compared entry by entry: they have the same keys in the same order, and under each
key the values are related (`Entries.Related`). What is done to both objects under one key keeps
them related (`Related.modify`, `Related.swapRemove`); if it makes the values under that key equal,
one key less is left at which the objects may differ (`Entries.Among`). If entering related values
into a record gives related records, so does reading the objects (`readEntries_related`).
-/

namespace OpenApiClient

namespace Entries

variable {α : Type} {R R' : String → α → α → Prop} {entries entries' : List (String × α)}
  {key : String}

/-- Whether two lists of entries have the same keys in the same order, with related values. -/
def Related (R : String → α → α → Prop) (entries entries' : List (String × α)) : Prop :=
  List.Forall₂ (fun e e' => e.1 = e'.1 ∧ R e.1 e.2 e'.2) entries entries'

/-- Values that are related under some keys and equal under the others. -/
def Among (among : List String) (R : String → α → α → Prop) : String → α → α → Prop :=
  fun key v v' => if key ∈ among then R key v v' else v' = v

theorem Among.of_mem {among : List String} {v v' : α} (hkey : key ∈ among) (h : R key v v') :
    Among among R key v v' := by
  rwa [Among, if_pos hkey]

theorem Among.refl {among : List String} (hR : ∀ key v, R key v v) (key : String) (v : α) :
    Among among R key v v := by
  unfold Among
  split_ifs
  · exact hR key v
  · rfl

namespace Related

theorem refl (hR : ∀ key v, R key v v) (entries : List (String × α)) : Related R entries entries :=
  List.forall₂_same.mpr fun e _ => ⟨rfl, hR e.1 e.2⟩

theorem of_value {v v' : α} (h : R key v v') : Related R [(key, v)] [(key, v')] :=
  List.Forall₂.cons ⟨rfl, h⟩ List.Forall₂.nil

theorem keys_eq (h : Related R entries entries') : keys entries' = keys entries := by
  induction h with
  | nil => rfl
  | cons he _ ih =>
    rw [keys, keys, List.map_cons, List.map_cons, he.1]
    exact congrArg _ ih

theorem mono (h : Related R entries entries')
    (hR : ∀ e ∈ entries, ∀ v', R e.1 e.2 v' → R' e.1 e.2 v') : Related R' entries entries' := by
  induction h with
  | nil => exact List.Forall₂.nil
  | cons he _ ih =>
    obtain ⟨hhead, hrest⟩ := List.forall_mem_cons.mp hR
    exact List.Forall₂.cons ⟨he.1, hhead _ he.2⟩ (ih hrest)

theorem exists_of_mem (h : Related R entries entries') {e' : String × α} (he' : e' ∈ entries') :
    ∃ e ∈ entries, R e.1 e.2 e'.2 := by
  induction h with
  | nil => exact absurd he' List.not_mem_nil
  | @cons e _ _ _ he _ ih =>
    rcases List.mem_cons.mp he' with rfl | he'
    · exact ⟨e, List.mem_cons_self, he.2⟩
    · obtain ⟨x, hx, hR⟩ := ih he'
      exact ⟨x, List.mem_cons_of_mem e hx, hR⟩

theorem eq (h : Related R entries entries') (hR : ∀ key v v', R key v v' → v' = v) :
    entries' = entries := by
  induction h with
  | nil => rfl
  | cons he _ ih => rw [ih, Prod.ext he.1.symm (hR _ _ _ he.2)]

/-- Under one key there is something in both or in neither. -/
theorem get? (h : Related R entries entries') (key : String) :
    Entries.get? key entries = none ∧ Entries.get? key entries' = none ∨
      ∃ v v', Entries.get? key entries = some v ∧ Entries.get? key entries' = some v' ∧
        R key v v' := by
  induction h with
  | nil => exact Or.inl ⟨rfl, rfl⟩
  | @cons e e' rest rest' he _ ih =>
    obtain ⟨k, v⟩ := e
    obtain ⟨k', v'⟩ := e'
    obtain ⟨rfl, hR⟩ := he
    rw [Entries.get?, Entries.get?]
    by_cases hk : k = key
    · subst hk
      rw [if_pos rfl, if_pos rfl]
      exact Or.inr ⟨v, v', rfl, rfl, hR⟩
    · rw [if_neg hk, if_neg hk]
      exact ih

/-- Under other keys there are the same values. -/
theorem get?_eq {among : List String} (h : Related (Among among R) entries entries')
    (hkey : key ∉ among) : Entries.get? key entries' = Entries.get? key entries := by
  rcases h.get? key with ⟨hnone, hnone'⟩ | ⟨v, v', hv, hv', hR⟩
  · rw [hnone, hnone']
  · rw [Among, if_neg hkey] at hR
    rw [hv, hv', hR]

theorem among_and {among : List String} {P : α → Prop}
    (h : Related (Among among R) entries entries') (hP : ∀ e ∈ entries, P e.2) :
    Related (Among among fun key v v' => R key v v' ∧ P v) entries entries' := by
  refine h.mono fun e he v' hR => ?_
  unfold Among at hR ⊢
  split_ifs with hkey
  · rw [if_pos hkey] at hR
    exact ⟨hR, hP e he⟩
  · rwa [if_neg hkey] at hR

/-- What is done under a key makes the values under it equal. -/
theorem modify {among : List String} {f f' : α → α}
    (h : Related (Among (key :: among) R) entries entries') (hnodup : (keys entries).Nodup)
    (hkey : key ∉ among) (hf : ∀ v v', R key v v' → f' v' = f v) :
    Related (Among among R) (Entries.modify key f entries) (Entries.modify key f' entries') := by
  induction h with
  | nil => exact List.Forall₂.nil
  | @cons e e' rest rest' he hrest ih =>
    obtain ⟨k, v⟩ := e
    obtain ⟨k', v'⟩ := e'
    obtain ⟨rfl, hR⟩ := he
    obtain ⟨habsent, hnodup⟩ := List.nodup_cons.mp hnodup
    rw [Entries.modify, Entries.modify]
    by_cases hk : k = key
    · subst hk
      rw [if_pos rfl, if_pos rfl]
      have hvalue : f' v' = f v := by
        rw [Among, if_pos List.mem_cons_self] at hR
        exact hf v v' hR
      refine List.Forall₂.cons ⟨rfl, ?_⟩ (mono hrest fun x hx w' hw => ?_)
      · rw [Among, if_neg hkey]
        exact hvalue
      · have hmem : x.1 ∈ keys rest := List.mem_map_of_mem hx
        have hne : x.1 ≠ k := fun heq => habsent (heq ▸ hmem)
        simpa [Among, hne] using hw
    · rw [if_neg hk, if_neg hk]
      refine List.Forall₂.cons ⟨rfl, ?_⟩ (ih hnodup)
      simpa [Among, hk] using hR

/-- What is done under another key changes equal values in the same way. -/
theorem modify_other {among : List String} (h : Related (Among among R) entries entries')
    (hkey : key ∉ among) (f : α → α) :
    Related (Among among R) (Entries.modify key f entries) (Entries.modify key f entries') := by
  induction h with
  | nil => exact List.Forall₂.nil
  | @cons e e' rest rest' he hrest ih =>
    obtain ⟨k, v⟩ := e
    obtain ⟨k', v'⟩ := e'
    obtain ⟨rfl, hR⟩ := he
    rw [Entries.modify, Entries.modify]
    split_ifs with hk
    · subst hk
      rw [Among, if_neg hkey] at hR
      refine List.Forall₂.cons ⟨rfl, ?_⟩ hrest
      rw [Among, if_neg hkey]
      exact congrArg f hR
    · exact List.Forall₂.cons ⟨rfl, hR⟩ ih

theorem closeGap (h : Related R entries entries') :
    Related R (Entries.closeGap entries) (Entries.closeGap entries') := by
  rcases List.eq_nil_or_concat' entries' with rfl | ⟨front', last', rfl⟩
  · rw [List.forall₂_nil_right_iff.mp h]
    exact List.Forall₂.nil
  · have hfront := List.forall₂_take_append _ _ _ h
    have hlast := List.forall₂_drop_append _ _ _ h
    obtain ⟨last, tail, hR, htail, hdrop⟩ := List.forall₂_cons_right_iff.mp hlast
    rw [List.forall₂_nil_right_iff.mp htail] at hdrop
    have hentries : entries = entries.take front'.length ++ [last] := by
      rw [← hdrop, List.take_append_drop]
    generalize entries.take front'.length = front at hfront hentries
    subst hentries
    rw [Entries.closeGap, Entries.closeGap, List.getLast?_concat, List.getLast?_concat]
    dsimp only
    rw [List.dropLast_concat, List.dropLast_concat]
    exact List.Forall₂.cons hR hfront

theorem swapRemove (h : Related R entries entries') (key : String) :
    Related R (Entries.swapRemove key entries) (Entries.swapRemove key entries') := by
  induction h with
  | nil => exact List.Forall₂.nil
  | @cons e e' rest rest' he hrest ih =>
    obtain ⟨k, v⟩ := e
    obtain ⟨k', v'⟩ := e'
    obtain ⟨rfl, hR⟩ := he
    rw [Entries.swapRemove, Entries.swapRemove]
    split_ifs
    · exact closeGap hrest
    · exact List.Forall₂.cons ⟨rfl, hR⟩ ih

end Related

/-- A removed key is one less at which entries may differ. -/
theorem Related.swapRemove_among {among : List String}
    (h : Related (Among (key :: among) R) entries entries') (hnodup : (keys entries).Nodup) :
    Related (Among among R) (Entries.swapRemove key entries)
      (Entries.swapRemove key entries') := by
  refine (h.swapRemove key).mono fun x hx v' hR => ?_
  have hmem : x.1 ∈ keys (Entries.swapRemove key entries) := List.mem_map_of_mem hx
  have hne : x.1 ≠ key := fun heq => not_mem_keys_swapRemove hnodup key (heq ▸ hmem)
  simpa [Among, hne] using hR

/-- The values under one key may have been changed. -/
theorem related_modify (key : String) (f : α → α) (entries : List (String × α)) :
    Related (Among [key] fun _ _ _ => True) entries (modify key f entries) := by
  have hrefl : ∀ k v, Among [key] (fun _ (_ _ : α) => True) k v v :=
    Among.refl fun _ _ => trivial
  induction entries with
  | nil => exact List.Forall₂.nil
  | cons e rest ih =>
    obtain ⟨k, v⟩ := e
    rw [modify]
    split_ifs with hk
    · refine List.Forall₂.cons ⟨rfl, ?_⟩ (Related.refl hrefl rest)
      exact Among.of_mem (List.mem_singleton.mpr hk) trivial
    · exact List.Forall₂.cons ⟨rfl, hrefl k v⟩ ih

end Entries

namespace Json

variable {α σ : Type} {R : String → Json → Json → Prop}

/-- Whether two values are lists of related items, or one value that is no list. -/
inductive ItemsRelated (R : Json → Json → Prop) : Json → Json → Prop
  | items {items items' : List Json} (h : List.Forall₂ R items items') :
      ItemsRelated R (.arr items) (.arr items')
  | other {v : Json} (h : v.items? = none) : ItemsRelated R v v

/-- Whether two values are objects with related entries, or one value that is no object. -/
inductive FieldsRelated (R : String → Json → Json → Prop) : Json → Json → Prop
  | fields {entries entries' : List (String × Json)} (h : Entries.Related R entries entries') :
      FieldsRelated R (.obj entries) (.obj entries')
  | other {v : Json} (h : v.entries? = none) : FieldsRelated R v v

/-! ## Readings -/

theorem within_eq_ok {step : Step} {r : Typed α} {a : α} : within step r = .ok a ↔ r = .ok a := by
  cases r with
  | error e => exact ⟨nofun, nofun⟩
  | ok b => exact Iff.rfl

/-- Named values can be read if each of them can. -/
theorem exists_readNamed_iff {read : Json → Typed α} {entries : List (String × Json)} :
    (∃ parts, readNamed read entries = .ok parts) ↔ ∀ e ∈ entries, ∃ a, read e.2 = .ok a := by
  induction entries with
  | nil => exact ⟨fun _ => nofun, fun _ => ⟨[], rfl⟩⟩
  | cons e rest ih =>
    obtain ⟨k, v⟩ := e
    rw [List.forall_mem_cons, ← ih]
    constructor
    · rintro ⟨parts, hparts⟩
      obtain ⟨a, ha, hparts⟩ := exists_of_bind_eq_ok hparts
      obtain ⟨as, has, -⟩ := exists_of_bind_eq_ok hparts
      exact ⟨⟨a, within_eq_ok.mp ha⟩, as, has⟩
    · rintro ⟨⟨a, ha⟩, as, has⟩
      refine ⟨(k, a) :: as, ?_⟩
      rw [readNamed, within_eq_ok.mpr ha, has]
      rfl

/-- Entering related values one after another gives related records. -/
theorem readEntries_related {enter : String → Json → σ → Typed σ} {Q : σ → σ → Prop}
    (henter : ∀ key v v' s s' t, R key v v' → Q s s' → enter key v s = .ok t →
      ∃ t', enter key v' s' = .ok t' ∧ Q t t')
    {entries entries' : List (String × Json)} (h : Entries.Related R entries entries')
    {s s' t : σ} (hs : Q s s') (hread : readEntries enter entries s = .ok t) :
    ∃ t', readEntries enter entries' s' = .ok t' ∧ Q t t' := by
  induction h generalizing s s' with
  | nil =>
    cases hread
    exact ⟨s', rfl, hs⟩
  | @cons e e' rest rest' he _ ih =>
    obtain ⟨k, v⟩ := e
    obtain ⟨k', v'⟩ := e'
    obtain ⟨rfl, hR⟩ := he
    obtain ⟨u, hu, hread⟩ := exists_of_bind_eq_ok hread
    obtain ⟨u', hu', hQ⟩ := henter k v v' s s' u hR hs (within_eq_ok.mp hu)
    obtain ⟨t', ht', hQ⟩ := ih hQ hread
    refine ⟨t', ?_, hQ⟩
    rw [readEntries_cons hu', ht']

end Json

end OpenApiClient
