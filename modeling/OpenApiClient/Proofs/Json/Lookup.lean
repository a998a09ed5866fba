import OpenApiClient.Proofs.Json.Keys

/-!
# What is found under a key

An object is looked at as a map from keys to values. If no key occurs twice, a value is found under
a key exactly if the two are an entry (`Entries.get?_eq_some_iff`), and removing a key takes away
what is found under it and nothing else (`Entries.get?_swapRemove`), although the entries change
their places.
-/

namespace OpenApiClient

namespace Entries

variable {α : Type} {entries : List (String × α)} {key : String} {value : α}

theorem get?_eq_none_iff : get? key entries = none ↔ key ∉ keys entries := by
  induction entries with
  | nil => simp [get?, keys]
  | cons e rest ih =>
    obtain ⟨k, v⟩ := e
    rw [get?]
    split_ifs with hk
    · simp [keys, hk]
    · rw [ih]
      simp [keys, Ne.symm hk]

theorem get?_append (key : String) (entries more : List (String × α)) :
    get? key (entries ++ more) = (get? key entries).or (get? key more) := by
  induction entries with
  | nil => rfl
  | cons e rest ih =>
    obtain ⟨k, v⟩ := e
    rw [List.cons_append, get?, get?]
    split_ifs
    · rfl
    · exact ih

theorem get?_eq_some_iff (hnodup : (keys entries).Nodup) :
    get? key entries = some value ↔ (key, value) ∈ entries := by
  refine ⟨mem_of_get?, fun hmem => ?_⟩
  induction entries with
  | nil => exact absurd hmem List.not_mem_nil
  | cons e rest ih =>
    obtain ⟨k, w⟩ := e
    obtain ⟨habsent, hnodup⟩ := List.nodup_cons.mp hnodup
    rw [get?]
    rcases List.mem_cons.mp hmem with heq | hmem
    · cases heq
      rw [if_pos rfl]
    · have hne : k ≠ key := by
        rintro rfl
        have hkey : k ∈ keys rest := List.mem_map_of_mem hmem
        exact habsent hkey
      rw [if_neg hne]
      exact ih hnodup hmem

/-! ## Removed keys -/

theorem perm_closeGap (entries : List (String × α)) : (closeGap entries).Perm entries := by
  rcases List.eq_nil_or_concat' entries with rfl | ⟨front, last, rfl⟩
  · exact List.Perm.refl _
  · rw [closeGap, List.getLast?_concat]
    dsimp only
    rw [List.dropLast_concat]
    exact (List.perm_append_singleton last front).symm

theorem perm_keys_swapRemove (key : String) (entries : List (String × α)) :
    (keys (swapRemove key entries)).Perm ((keys entries).erase key) := by
  induction entries with
  | nil => exact List.Perm.refl _
  | cons e rest ih =>
    obtain ⟨k, v⟩ := e
    rw [swapRemove, keys, keys, List.map_cons]
    by_cases hk : k = key
    · subst hk
      rw [if_pos rfl, List.erase_cons_head]
      exact (perm_closeGap rest).map Prod.fst
    · rw [if_neg hk, List.erase_cons_tail (by simpa using hk)]
      exact ih.cons k

theorem nodup_keys_swapRemove (h : (keys entries).Nodup) (key : String) :
    (keys (swapRemove key entries)).Nodup :=
  (perm_keys_swapRemove key entries).nodup_iff.mpr (h.erase key)

theorem not_mem_keys_swapRemove (h : (keys entries).Nodup) (key : String) :
    key ∉ keys (swapRemove key entries) := by
  rw [(perm_keys_swapRemove key entries).mem_iff]
  exact h.not_mem_erase

theorem mem_swapRemove (hnodup : (keys entries).Nodup) {e : String × α} :
    e ∈ swapRemove key entries ↔ e ∈ entries ∧ e.1 ≠ key := by
  induction entries with
  | nil => simp [swapRemove]
  | cons first rest ih =>
    obtain ⟨k, w⟩ := first
    obtain ⟨habsent, hnodup⟩ := List.nodup_cons.mp hnodup
    rw [swapRemove]
    split_ifs with hk
    · -- the key stood first, so it stands nowhere in the rest
      subst hk
      rw [(perm_closeGap rest).mem_iff]
      constructor
      · intro he
        refine ⟨List.mem_cons_of_mem _ he, ?_⟩
        intro heq
        have hkey : e.1 ∈ keys rest := List.mem_map_of_mem he
        rw [heq] at hkey
        exact habsent hkey
      · rintro ⟨he, hne⟩
        rcases List.mem_cons.mp he with rfl | he
        · exact absurd rfl hne
        · exact he
    · rw [List.mem_cons, List.mem_cons, ih hnodup]
      constructor
      · rintro (rfl | ⟨he, hne⟩)
        · exact ⟨Or.inl rfl, hk⟩
        · exact ⟨Or.inr he, hne⟩
      · rintro ⟨rfl | he, hne⟩
        · exact Or.inl rfl
        · exact Or.inr ⟨he, hne⟩

/-- A removed key is gone, and every other key has the value it had. -/
theorem get?_swapRemove (hnodup : (keys entries).Nodup) (key k : String) :
    get? k (swapRemove key entries) = if key = k then none else get? k entries := by
  ext v
  rw [get?_eq_some_iff (nodup_keys_swapRemove hnodup key), mem_swapRemove hnodup]
  split_ifs with hk
  · simp [hk]
  · rw [get?_eq_some_iff hnodup]
    simp [Ne.symm hk]

theorem sublist_keys_filterMap (f : α → Option α) (entries : List (String × α)) :
    (keys (entries.filterMap fun (key, v) => (f v).map fun t => (key, t))).Sublist
      (keys entries) := by
  induction entries with
  | nil => exact List.Sublist.slnil
  | cons e rest ih =>
    obtain ⟨key, v⟩ := e
    cases hf : f v with
    | none => simpa [keys, hf] using ih.cons key
    | some t => simpa [keys, hf] using ih.cons_cons key

end Entries

/-! ## Objects -/

namespace Json

theorem hasDistinctKeys_of_get? {v w : Json} {key : String} (hv : v.hasDistinctKeys = true)
    (h : v.get? key = some w) : w.hasDistinctKeys = true := by
  cases v with
  | obj entries =>
    exact ((hasDistinctKeys_obj entries).mp hv).2 _ (Entries.mem_of_get? h)
  | _ => cases h

theorem hasDistinctKeys_modify {entries : List (String × Json)} {key : String} {f : Json → Json}
    (h : (Json.obj entries).hasDistinctKeys = true)
    (hf : ∀ v, v.hasDistinctKeys = true → (f v).hasDistinctKeys = true) :
    (Json.obj (Entries.modify key f entries)).hasDistinctKeys = true := by
  rw [hasDistinctKeys_obj] at h ⊢
  refine ⟨by rw [Entries.keys_modify]; exact h.1, ?_⟩
  have hvalues := h.2
  clear h
  induction entries with
  | nil => exact hvalues
  | cons e rest ih =>
    obtain ⟨k, w⟩ := e
    obtain ⟨hw, hrest⟩ := List.forall_mem_cons.mp hvalues
    rw [Entries.modify]
    split_ifs
    · exact List.forall_mem_cons.mpr ⟨hf w hw, hrest⟩
    · exact List.forall_mem_cons.mpr ⟨hw, ih hrest⟩

end Json

end OpenApiClient
