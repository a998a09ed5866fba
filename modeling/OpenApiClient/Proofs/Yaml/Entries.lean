import OpenApiClient.Proofs.Json.Lookup
import OpenApiClient.Proofs.Repetitions
import OpenApiClient.Proofs.Yaml.Keys

/-!
# What is left of the entries of a mapping

The entries of a mapping are entered one after another under the texts of their keys. What comes out
has each text once, at its first place and with its last value (`Entries.ofList_eq_lastOfEach`). So
all entries of a value are left exactly if at every depth no two keys of a mapping are written alike
(`Yaml.Value.toJson_entries`).
-/

namespace OpenApiClient

namespace Entries

variable {α : Type} {entries more : List (String × α)}

/-- What is left of entries if each key keeps its first place and its last value. -/
def lastOfEach (entries : List (String × α)) : List (String × α) :=
  (keys entries).eraseDups.filterMap fun key =>
    (get? key entries.reverse).map fun value => (key, value)

theorem keys_ofList (entries : List (String × α)) :
    keys (ofList entries) = (keys entries).eraseDups := by
  induction entries using List.reverseRecOn with
  | nil => rfl
  | append_singleton entries e ih =>
    have hkeys : keys (entries ++ [e]) = keys entries ++ [e.1] := List.map_append
    rw [ofList_concat, keys_insert, ih, hkeys, eraseDups_concat]
    simp only [List.mem_eraseDups]

theorem get?_ofList (entries : List (String × α)) (key : String) :
    get? key (ofList entries) = get? key entries.reverse := by
  induction entries using List.reverseRecOn with
  | nil => rfl
  | append_singleton entries e ih =>
    rw [ofList_concat, get?_insert, ih, List.reverse_concat, get?]

/-- Entries without a repeated key are found again from their keys. -/
theorem filterMap_get?_keys (h : (keys entries).Nodup) :
    (keys entries).filterMap (fun key => (get? key entries).map fun value => (key, value)) =
      entries := by
  induction entries with
  | nil => rfl
  | cons e rest ih =>
    obtain ⟨key, value⟩ := e
    obtain ⟨habsent, hrest⟩ := List.nodup_cons.mp h
    have hfound : ∀ k ∈ keys rest, get? k ((key, value) :: rest) = get? k rest := by
      intro k hk
      rw [get?, if_neg]
      rintro rfl
      exact habsent hk
    have hhead : get? key ((key, value) :: rest) = some value := if_pos rfl
    have htail : (keys rest).filterMap (fun k =>
        (get? k ((key, value) :: rest)).map fun v => (k, v)) = rest :=
      (List.filterMap_congr fun k hk => by rw [hfound k hk]).trans (ih hrest)
    rw [keys, List.map_cons, List.filterMap_cons, hhead]
    exact congrArg ((key, value) :: ·) htail

theorem ofList_eq_lastOfEach (entries : List (String × α)) :
    ofList entries = lastOfEach entries := by
  have h := filterMap_get?_keys (nodup_keys_ofList entries)
  simp only [get?_ofList, keys_ofList] at h
  exact h.symm

theorem lastOfEach_of_nodup (h : (keys entries).Nodup) : lastOfEach entries = entries := by
  have hget : ∀ key, get? key entries.reverse = get? key entries := by
    intro key
    have hreverse : (keys entries.reverse).Nodup := by
      rw [keys, List.map_reverse]
      exact List.nodup_reverse.mpr h
    ext value
    rw [get?_eq_some_iff hreverse, get?_eq_some_iff h, List.mem_reverse]
  rw [lastOfEach, eraseDups_of_nodup h]
  simp only [hget]
  exact filterMap_get?_keys h

/-- All entries are left exactly if no key is repeated. -/
theorem lastOfEach_eq_iff (hkeys : keys more = keys entries) :
    lastOfEach entries = more ↔ (keys entries).Nodup ∧ entries = more := by
  constructor
  · intro h
    have hnodup : (keys entries).Nodup := by
      rw [← hkeys, ← h, ← ofList_eq_lastOfEach, keys_ofList]
      exact nodup_eraseDups _
    exact ⟨hnodup, (lastOfEach_of_nodup hnodup).symm.trans h⟩
  · rintro ⟨hnodup, rfl⟩
    exact lastOfEach_of_nodup hnodup

end Entries

namespace Yaml.Value

/-! ## Entries of mappings -/

mutual

/-- The raw value of a value if a choice is made among the entries of every mapping, each of them
being the text of a key and the raw value of its value. -/
def rawWith (choose : List (String × Json) → List (String × Json)) : Value → Json
  | .null => .null
  | .bool b => .bool b
  | .int n => .num (.int n)
  | .double d => if d.isFinite then .num (.double d) else .null
  | .str s => .str s
  | .sequence items => .arr (rawItemsWith choose items)
  | .mapping entries => .obj (choose (rawEntriesWith choose entries))
  | .tagged _ v => rawWith choose v

def rawItemsWith (choose : List (String × Json) → List (String × Json)) : List Value → List Json
  | [] => []
  | v :: rest => rawWith choose v :: rawItemsWith choose rest

def rawEntriesWith (choose : List (String × Json) → List (String × Json)) :
    List (Value × Value) → List (String × Json)
  | [] => []
  | (k, v) :: rest => (keyText k, rawWith choose v) :: rawEntriesWith choose rest

end

mutual

/-- Whether no two keys of a mapping are written alike, at every depth. -/
def hasDistinctTexts : Value → Bool
  | .sequence items => itemsHaveDistinctTexts items
  | .mapping entries =>
    decide (entries.map fun (k, _) => keyText k).Nodup && entriesHaveDistinctTexts entries
  | .tagged _ v => hasDistinctTexts v
  | _ => true

def itemsHaveDistinctTexts : List Value → Bool
  | [] => true
  | v :: rest => hasDistinctTexts v && itemsHaveDistinctTexts rest

def entriesHaveDistinctTexts : List (Value × Value) → Bool
  | [] => true
  | (_, v) :: rest => hasDistinctTexts v && entriesHaveDistinctTexts rest

end

theorem entriesToJson_eq_foldl (choose : List (String × Json) → List (String × Json))
    (entries : List (Value × Value)) (entered : List (String × Json))
    (h : ∀ e ∈ entries, toJson e.2 = rawWith choose e.2) :
    entriesToJson entered entries =
      (rawEntriesWith choose entries).foldl (fun map (k, v) => Entries.insert k v map) entered := by
  induction entries generalizing entered with
  | nil => rfl
  | cons e rest ih =>
    obtain ⟨hv, hrest⟩ := List.forall_mem_cons.mp h
    rw [entriesToJson, rawEntriesWith, List.foldl_cons, ← hv]
    exact ih _ hrest

mutual

/-- Of equal texts the last value stands at the first place. -/
theorem toJson_eq_rawWith : ∀ v : Value, toJson v = rawWith Entries.lastOfEach v
  | .null | .bool _ | .int _ | .double _ | .str _ => rfl
  | .sequence items => by rw [toJson, rawWith, itemsToJson_eq_rawItemsWith items]
  | .mapping entries => by
    rw [toJson, rawWith, entriesToJson_eq_foldl _ entries [] (toJson_eq_rawWith_of_mem entries),
      ← Entries.ofList_eq_lastOfEach, Entries.ofList]
  | .tagged _ v => by rw [toJson, rawWith, toJson_eq_rawWith v]

theorem itemsToJson_eq_rawItemsWith : ∀ items : List Value,
    itemsToJson items = rawItemsWith Entries.lastOfEach items
  | [] => rfl
  | v :: rest => by
    rw [itemsToJson, rawItemsWith, toJson_eq_rawWith v, itemsToJson_eq_rawItemsWith rest]

theorem toJson_eq_rawWith_of_mem : ∀ entries : List (Value × Value),
    ∀ e ∈ entries, toJson e.2 = rawWith Entries.lastOfEach e.2
  | [] => List.forall_mem_nil _
  | (_, v) :: rest =>
    List.forall_mem_cons.mpr ⟨toJson_eq_rawWith v, toJson_eq_rawWith_of_mem rest⟩

end

theorem keys_rawEntriesWith (choose : List (String × Json) → List (String × Json))
    (entries : List (Value × Value)) :
    Entries.keys (rawEntriesWith choose entries) = entries.map fun (k, _) => keyText k := by
  induction entries with
  | nil => rfl
  | cons e rest ih =>
    rw [List.map_cons, ← ih]
    rfl

mutual

/-- No entry is lost exactly if no two keys of a mapping are written alike. -/
theorem rawWith_lastOfEach_eq_iff : ∀ v : Value,
    rawWith Entries.lastOfEach v = rawWith id v ↔ v.hasDistinctTexts = true
  | .null | .bool _ | .int _ | .double _ | .str _ => iff_of_true rfl rfl
  | .sequence items => by
    rw [rawWith, rawWith, Json.arr.injEq, hasDistinctTexts]
    exact rawItemsWith_lastOfEach_eq_iff items
  | .mapping entries => by
    have hkeys : Entries.keys (rawEntriesWith id entries) =
        Entries.keys (rawEntriesWith Entries.lastOfEach entries) := by
      rw [keys_rawEntriesWith, keys_rawEntriesWith]
    rw [rawWith, rawWith, Json.obj.injEq, id_eq, Entries.lastOfEach_eq_iff hkeys,
      keys_rawEntriesWith, hasDistinctTexts, Bool.and_eq_true, decide_eq_true_eq,
      rawEntriesWith_lastOfEach_eq_iff entries]
  | .tagged _ v => by
    rw [rawWith, rawWith, hasDistinctTexts]
    exact rawWith_lastOfEach_eq_iff v

theorem rawItemsWith_lastOfEach_eq_iff : ∀ items : List Value,
    rawItemsWith Entries.lastOfEach items = rawItemsWith id items ↔
      itemsHaveDistinctTexts items = true
  | [] => iff_of_true rfl rfl
  | v :: rest => by
    rw [rawItemsWith, rawItemsWith, List.cons.injEq, itemsHaveDistinctTexts, Bool.and_eq_true,
      rawWith_lastOfEach_eq_iff v, rawItemsWith_lastOfEach_eq_iff rest]

theorem rawEntriesWith_lastOfEach_eq_iff : ∀ entries : List (Value × Value),
    rawEntriesWith Entries.lastOfEach entries = rawEntriesWith id entries ↔
      entriesHaveDistinctTexts entries = true
  | [] => iff_of_true rfl rfl
  | (_, v) :: rest => by
    rw [rawEntriesWith, rawEntriesWith, List.cons.injEq, Prod.mk.injEq, eq_self, true_and,
      entriesHaveDistinctTexts, Bool.and_eq_true, rawWith_lastOfEach_eq_iff v,
      rawEntriesWith_lastOfEach_eq_iff rest]

end

/-- **Entries.** A mapping becomes an object with one entry for each text that its keys are written
as, so all entries are left exactly if no two keys are written alike. Two keys are written alike
only if they have the same raw value, or one is read as the string that the other is written as, and
exactly then if neither is a double without a tag; two different scalars without a tag are written
alike exactly if one is a string and is the text of the other. -/
theorem toJson_entries (v k l : Value) :
    toJson v = rawWith Entries.lastOfEach v ∧
      (toJson v = rawWith id v ↔ v.hasDistinctTexts = true) ∧
      (keyText k = keyText l → Meet k l) ∧
      ((∀ d, k ≠ .double d) → (∀ d, l ≠ .double d) → Meet k l → keyText k = keyText l) ∧
      (k.isScalar = true → l.isScalar = true → k.same (depthLimit + 1) l = false →
        (keyText k = keyText l ↔ k = .str (keyText l) ∨ l = .str (keyText k))) := by
  refine ⟨toJson_eq_rawWith v, ?_, meet_of_keyText_eq, keyText_eq_of_meet,
    keyText_eq_iff_of_isScalar⟩
  rw [toJson_eq_rawWith]
  exact rawWith_lastOfEach_eq_iff v

/-- The number and the string of a status code are two keys and one text. -/
theorem toJson_entries_statusCode :
    keyText (.int 200) = keyText (.str "200") ∧
      (Value.int 200).same (depthLimit + 1) (.str "200") = false ∧
      toJson (.mapping [(.int 200, .str "a"), (.str "200", .str "b")]) =
        .obj [("200", .str "b")] := by
  have hsame : (Value.int 200).same (depthLimit + 1) (.str "200") = false := rfl
  obtain ⟨hentries, -, -, -, hscalars⟩ := toJson_entries
    (.mapping [(.int 200, .str "a"), (.str "200", .str "b")]) (.int 200) (.str "200")
  refine ⟨(hscalars rfl rfl hsame).mpr (Or.inr ?_), hsame, ?_⟩
  · rfl
  · rw [hentries]
    decide +kernel

/-- Entries are lost: a number and a string of one text are different keys for a YAML document. -/
theorem entry_lost :
    ¬∀ text : String, (read? text.toList).map toJson = (read? text.toList).map (rawWith id) := by
  intro h
  have hlost := h "1: a\n\"1\": b\n"
  revert hlost
  decide +kernel

end Yaml.Value

end OpenApiClient
