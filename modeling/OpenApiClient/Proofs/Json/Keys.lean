import Mathlib.Data.List.Nodup
import Mathlib.Data.List.Induction
import OpenApiClient.Document.Source
import OpenApiClient.Proofs.Gives

/-!
# Distinct keys

The type of raw values leaves it open whether an object has a key twice; in a value that is `Keyed`
none has. Every value that is read from a text is one, in either format (`Source.keyed`), because
the readers enter keys one after another, and a key that is there already is not entered again.
-/

namespace OpenApiClient

namespace Entries

variable {α : Type}

theorem forall_mem_insert {P : α → Prop} {entries : List (String × α)}
    (h : ∀ e ∈ entries, P e.2) (key : String) {value : α} (hvalue : P value) :
    ∀ e ∈ insert key value entries, P e.2 := by
  induction entries with
  | nil => simpa [insert] using hvalue
  | cons e rest ih =>
    obtain ⟨k, v⟩ := e
    rw [List.forall_mem_cons] at h
    by_cases hk : k = key
    · rw [insert, if_pos hk, List.forall_mem_cons]
      exact ⟨hvalue, h.2⟩
    · rw [insert, if_neg hk, List.forall_mem_cons]
      exact ⟨h.1, ih h.2⟩

theorem ofList_concat (entries : List (String × α)) (key : String) (value : α) :
    ofList (entries ++ [(key, value)]) = insert key value (ofList entries) :=
  List.foldl_concat ..

theorem forall_mem_ofList {P : α → Prop} {entries : List (String × α)}
    (h : ∀ e ∈ entries, P e.2) : ∀ e ∈ ofList entries, P e.2 := by
  induction entries using List.reverseRecOn with
  | nil => exact List.forall_mem_nil _
  | append_singleton entries e ih =>
    obtain ⟨hentries, he⟩ := List.forall_mem_append.mp h
    rw [ofList_concat]
    exact forall_mem_insert (ih hentries) e.1 (he e (List.mem_singleton_self e))

theorem insert_of_not_mem {key : String} {entries : List (String × α)}
    (h : key ∉ keys entries) (value : α) :
    insert key value entries = entries ++ [(key, value)] := by
  induction entries with
  | nil => rfl
  | cons e rest ih =>
    obtain ⟨hne, hrest⟩ := List.ne_and_not_mem_of_not_mem_cons h
    rw [insert, if_neg (Ne.symm hne), ih hrest, List.cons_append]

/-- Entries without a repeated key are entered as they stand. -/
theorem ofList_of_nodup {entries : List (String × α)} (h : (keys entries).Nodup) :
    ofList entries = entries := by
  induction entries using List.reverseRecOn with
  | nil => rfl
  | append_singleton entries e ih =>
    rw [keys, List.map_append, List.nodup_append] at h
    obtain ⟨hentries, -, hnew⟩ := h
    have habsent : e.1 ∉ keys entries := fun he => hnew e.1 he e.1 (List.mem_singleton_self _) rfl
    rw [ofList_concat, ih hentries, insert_of_not_mem habsent]

end Entries

/-! ## Values -/

namespace Json

mutual

/-- Whether no object in a value has a key twice. -/
def hasDistinctKeys : Json → Bool
  | .arr items => itemsHaveDistinctKeys items
  | .obj entries => decide (Entries.keys entries).Nodup && entriesHaveDistinctKeys entries
  | _ => true

def itemsHaveDistinctKeys : List Json → Bool
  | [] => true
  | v :: rest => v.hasDistinctKeys && itemsHaveDistinctKeys rest

def entriesHaveDistinctKeys : List (String × Json) → Bool
  | [] => true
  | (_, v) :: rest => v.hasDistinctKeys && entriesHaveDistinctKeys rest

end

/-- A value in which no object has a key twice. -/
structure Keyed where
  json : Json
  distinct : json.hasDistinctKeys = true := by decide

theorem itemsHaveDistinctKeys_iff (items : List Json) :
    itemsHaveDistinctKeys items = true ↔ ∀ v ∈ items, v.hasDistinctKeys = true := by
  induction items with
  | nil => simp [itemsHaveDistinctKeys]
  | cons v rest ih => rw [itemsHaveDistinctKeys, Bool.and_eq_true, ih, List.forall_mem_cons]

theorem entriesHaveDistinctKeys_iff (entries : List (String × Json)) :
    entriesHaveDistinctKeys entries = true ↔ ∀ e ∈ entries, e.2.hasDistinctKeys = true := by
  induction entries with
  | nil => simp [entriesHaveDistinctKeys]
  | cons e rest ih => rw [entriesHaveDistinctKeys, Bool.and_eq_true, ih, List.forall_mem_cons]

theorem hasDistinctKeys_arr (items : List Json) :
    (Json.arr items).hasDistinctKeys = true ↔ ∀ v ∈ items, v.hasDistinctKeys = true := by
  rw [hasDistinctKeys, itemsHaveDistinctKeys_iff]

theorem hasDistinctKeys_obj (entries : List (String × Json)) :
    (Json.obj entries).hasDistinctKeys = true ↔
      (Entries.keys entries).Nodup ∧ ∀ e ∈ entries, e.2.hasDistinctKeys = true := by
  rw [hasDistinctKeys, Bool.and_eq_true, decide_eq_true_eq, entriesHaveDistinctKeys_iff]

theorem hasDistinctKeys_insert {entries : List (String × Json)} {v : Json}
    (h : (Json.obj entries).hasDistinctKeys = true) (key : String)
    (hv : v.hasDistinctKeys = true) :
    (Json.obj (Entries.insert key v entries)).hasDistinctKeys = true := by
  rw [hasDistinctKeys_obj] at h ⊢
  exact ⟨Entries.nodup_keys_insert h.1 key v,
    Entries.forall_mem_insert (P := fun v : Json => v.hasDistinctKeys = true) h.2 key hv⟩

theorem hasDistinctKeys_ofList {entries : List (String × Json)}
    (h : ∀ e ∈ entries, e.2.hasDistinctKeys = true) :
    (Json.obj (Entries.ofList entries)).hasDistinctKeys = true :=
  (hasDistinctKeys_obj _).mpr ⟨Entries.nodup_keys_ofList entries,
    Entries.forall_mem_ofList (P := fun v : Json => v.hasDistinctKeys = true) h⟩

/-! ## JSON texts -/

theorem gives_wordRest {v : Json} (h : v.hasDistinctKeys = true) : ∀ word cs : List Char,
    Gives (fun p => p.1.hasDistinctKeys = true) (wordRest v word cs)
  | [], cs => Gives.ok h
  | _ :: _, [] => Gives.error
  | w :: word, c :: cs => by
    rw [wordRest]
    split
    · exact gives_wordRest h word cs
    · exact Gives.error

mutual

/-- One case for each kind of value; only lists and objects have something inside. -/
theorem gives_value : ∀ (fuel depth : Nat) (cs : List Char),
    Gives (fun p => p.1.hasDistinctKeys = true) (value fuel depth cs)
  | 0, _, _ => Gives.error
  | fuel + 1, depth, cs => by
    rw [value]
    split
    case h_1 => exact Gives.error
    case h_2 => exact gives_wordRest rfl _ _
    case h_3 => exact gives_wordRest rfl _ _
    case h_4 => exact gives_wordRest rfl _ _
    case h_5 => exact Gives.bind_any fun _ => Gives.ok rfl
    case h_6 => exact Gives.bind_any fun _ => Gives.ok rfl
    case h_7 =>
      split_ifs
      · exact Gives.error
      · split
        · exact Gives.error
        · exact Gives.ok rfl
        · exact (gives_items fuel (depth - 1) _).bind fun p hp =>
            Gives.ok ((hasDistinctKeys_arr p.1).mpr hp)
    case h_8 =>
      -- Entries are read as they stand, and `Entries.ofList` leaves each key once.
      split_ifs
      · exact Gives.error
      · refine Gives.bind_any fun first => ?_
        show Gives _ (if first.1 = true then _ else _)
        split_ifs
        · exact (gives_entries fuel (depth - 1) _).bind fun p hp =>
            Gives.ok (hasDistinctKeys_ofList hp)
        · exact Gives.ok rfl
    case h_9 =>
      split_ifs
      · exact Gives.bind_any fun _ => Gives.ok rfl
      · exact Gives.error

theorem gives_items : ∀ (fuel depth : Nat) (cs : List Char),
    Gives (fun p => ∀ v ∈ p.1, v.hasDistinctKeys = true) (items fuel depth cs)
  | 0, _, _ => Gives.error
  | fuel + 1, depth, cs => by
    rw [items]
    refine (gives_value fuel depth cs).bind fun p hp => Gives.bind_any fun next => ?_
    show Gives _ (if next.1 = true then _ else _)
    split_ifs
    · exact (gives_items fuel depth next.2).bind fun q hq =>
        Gives.ok (List.forall_mem_cons.mpr ⟨hp, hq⟩)
    · exact Gives.ok (List.forall_mem_singleton.mpr hp)

theorem gives_entries : ∀ (fuel depth : Nat) (cs : List Char),
    Gives (fun p => ∀ e ∈ p.1, e.2.hasDistinctKeys = true) (entries fuel depth cs)
  | 0, _, _ => Gives.error
  | fuel + 1, depth, cs => by
    rw [entries]
    refine Gives.bind_any fun key => Gives.bind_any fun rest => ?_
    refine (gives_value fuel depth rest).bind fun p hp => Gives.bind_any fun next => ?_
    show Gives _ (if next.1 = true then _ else _)
    split_ifs
    · exact (gives_entries fuel depth next.2).bind fun q hq =>
        Gives.ok (List.forall_mem_cons.mpr ⟨hp, hq⟩)
    · exact Gives.ok (List.forall_mem_singleton.mpr hp)

end

theorem hasDistinctKeys_read {cs : List Char} {v : Json} (h : read cs = .ok v) :
    v.hasDistinctKeys = true := by
  have hfinish : Gives (fun v => v.hasDistinctKeys = true)
      (value (fuelFor cs) depthLimit cs >>= finish) := by
    refine (gives_value _ _ _).bind fun p hp => ?_
    rw [finish]
    split
    · exact Gives.ok hp
    · exact Gives.error
  unfold read at h
  split at h
  next w hw =>
    cases h
    exact hfinish v hw
  next => cases h

end Json

/-! ## YAML texts -/

namespace Yaml.Value

mutual

theorem hasDistinctKeys_toJson : ∀ v : Value, v.toJson.hasDistinctKeys = true
  | .null | .bool _ | .int _ | .str _ => rfl
  | .double d => by
    rw [toJson]
    split_ifs <;> rfl
  | .sequence items => by
    rw [toJson, Json.hasDistinctKeys_arr]
    exact hasDistinctKeys_itemsToJson items
  | .mapping entries => hasDistinctKeys_entriesToJson entries rfl
  | .tagged _ v => hasDistinctKeys_toJson v

theorem hasDistinctKeys_itemsToJson : ∀ items : List Value,
    ∀ v ∈ itemsToJson items, v.hasDistinctKeys = true
  | [] => nofun
  | v :: rest => List.forall_mem_cons.mpr
      ⟨hasDistinctKeys_toJson v, hasDistinctKeys_itemsToJson rest⟩

theorem hasDistinctKeys_entriesToJson : ∀ (entries : List (Value × Value))
    {entered : List (String × Json)}, (Json.obj entered).hasDistinctKeys = true →
      (Json.obj (entriesToJson entered entries)).hasDistinctKeys = true
  | [], _, h => h
  | (k, v) :: rest, _, h => hasDistinctKeys_entriesToJson rest
      (Json.hasDistinctKeys_insert h (keyText k) (hasDistinctKeys_toJson v))

end

end Yaml.Value

/-- **Keys.** In a value that is read from a text, no object has a key twice. -/
theorem Source.hasDistinctKeys_read {text : String} {v : Json} (h : Source.read text = .ok v) :
    v.hasDistinctKeys = true := by
  have hyaml {cs : List Char} {v : Json} (h : readYaml? cs = some v) :
      v.hasDistinctKeys = true := by
    obtain ⟨w, -, rfl⟩ := Option.map_eq_some_iff.mp h
    exact w.hasDistinctKeys_toJson
  unfold Source.read at h
  dsimp only at h
  split at h
  next w hjson _ =>
    cases h
    exact Json.hasDistinctKeys_read hjson
  next w hjson _ =>
    cases h
    cases hread : readYaml? (strip text.toList) with
    | none => exact Json.hasDistinctKeys_read hjson
    | some v => exact hyaml hread
  next =>
    split at h
    next w hread =>
      cases h
      exact hyaml hread
    next => cases h

def Source.keyed {text : String} {v : Json} (h : Source.read text = .ok v) : Json.Keyed :=
  ⟨v, hasDistinctKeys_read h⟩

end OpenApiClient
