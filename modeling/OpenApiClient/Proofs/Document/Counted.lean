import Mathlib.Algebra.BigOperators.Group.List.Lemmas
import Mathlib.Data.Set.Card
import OpenApiClient.Command.Report
import OpenApiClient.Document.Read
import OpenApiClient.Proofs.Document.Places
import OpenApiClient.Proofs.Gives
import OpenApiClient.Proofs.Repetitions

/-!
# Counted operations

A tally is a list of keys with their numbers of occurrences, in the order in which the keys come
first (`tally_eq`). For the counts of a document this means that its operations are counted place by
place, and that the counts of the methods sum to the number of operations. The count of a tag is the
number of times that operations name it (`count_of_tag`), which is the number of operations that
carry it exactly if none of them names it twice (`counts_operations`).
-/

namespace OpenApiClient

section Tally

variable {α : Type} [DecidableEq α]

/-- One more occurrence of a key: a key that is there keeps its place, and a new one comes last. -/
theorem countOne_map (key : α) (f : α → Nat) : ∀ {keys : List α}, keys.Nodup →
    countOne key (keys.map fun k => (k, f k)) =
      if key ∈ keys then keys.map fun k => (k, if k = key then f k + 1 else f k)
      else (keys.map fun k => (k, f k)) ++ [(key, 1)]
  | [], _ => rfl
  | k :: keys, hnodup => by
    obtain ⟨hk, hnodup⟩ := List.nodup_cons.mp hnodup
    rw [List.map_cons, countOne]
    by_cases hkey : k = key
    · subst hkey
      have hrest : keys.map (fun l => (l, if l = k then f l + 1 else f l)) =
          keys.map fun l => (l, f l) := by
        refine List.map_congr_left fun l hl => ?_
        rw [if_neg (ne_of_mem_of_not_mem hl hk)]
      rw [if_pos rfl, if_pos List.mem_cons_self, List.map_cons, if_pos rfl, hrest]
    · rw [if_neg hkey, countOne_map key f hnodup]
      by_cases hmem : key ∈ keys
      · rw [if_pos hmem, if_pos (List.mem_cons_of_mem k hmem), List.map_cons, if_neg hkey]
      · have hnew : key ∉ k :: keys := List.not_mem_cons_of_ne_of_not_mem (Ne.symm hkey) hmem
        rw [if_neg hmem, if_neg hnew, List.cons_append]

/-- A tally has every key once, where it comes first, with the number of its occurrences. -/
theorem tally_eq (keys : List α) : tally keys = keys.eraseDups.map fun k => (k, keys.count k) := by
  induction keys using List.reverseRecOn with
  | nil => rfl
  | append_singleton keys key ih =>
    have hstep : tally (keys ++ [key]) = countOne key (tally keys) := by
      rw [tally, List.foldl_append]
      rfl
    have hcount (k : α) : (keys ++ [key]).count k =
        if k = key then keys.count k + 1 else keys.count k := by
      rw [List.count_append, List.count_singleton]
      by_cases hk : k = key
      · simp [hk]
      · simp [hk, Ne.symm hk]
    rw [hstep, ih, countOne_map key _ (nodup_eraseDups keys), eraseDups_concat]
    simp only [List.mem_eraseDups, hcount]
    split_ifs with hmem
    · rfl
    · have hold : keys.eraseDups.map (fun k => (k, keys.count k)) =
          keys.eraseDups.map fun k => (k, if k = key then keys.count k + 1 else keys.count k) := by
        refine List.map_congr_left fun k hk => ?_
        rw [if_neg (ne_of_mem_of_not_mem (List.mem_eraseDups.mp hk) hmem)]
      rw [List.map_append, ← hold, List.map_singleton, if_pos rfl, List.count_eq_zero.mpr hmem]

theorem keys_tally (keys : List α) : (tally keys).map Prod.fst = keys.eraseDups := by
  rw [tally_eq, List.map_map]
  exact List.map_id _

theorem sum_tally (keys : List α) : ((tally keys).map Prod.snd).sum = keys.length := by
  have hperm : keys.eraseDups.Perm keys.dedup := by
    rw [List.perm_ext_iff_of_nodup (nodup_eraseDups keys) keys.nodup_dedup]
    simp
  rw [tally_eq, List.map_map]
  exact (hperm.map _).sum_eq.trans keys.sum_map_count_dedup_eq_length

theorem lookup_tally (keys : List α) (key : α) :
    ((tally keys).lookup key).getD 0 = keys.count key := by
  have hfound : ∀ ks : List α, (ks.map fun k => (k, keys.count k)).lookup key =
      if key ∈ ks then some (keys.count key) else none := by
    intro ks
    induction ks with
    | nil => rfl
    | cons k ks ih =>
      rw [List.map_cons, List.lookup_cons, ih]
      by_cases hk : key = k
      · simp [hk]
      · simp [hk, beq_false_of_ne hk]
  rw [tally_eq, hfound]
  split_ifs with hmem
  · rfl
  · rw [List.mem_eraseDups] at hmem
    exact (List.count_eq_zero.mpr hmem).symm

end Tally

theorem countP_pos_le_sum : ∀ ns : List Nat, ns.countP (0 < ·) ≤ ns.sum
  | [] => Nat.le_refl 0
  | n :: ns => by
    have ih := countP_pos_le_sum ns
    rw [List.countP_cons, List.sum_cons]
    simp only [decide_eq_true_eq]
    split_ifs <;> omega

/-- Counting with repetitions counts every item once exactly if nothing is repeated. -/
theorem sum_eq_countP_pos_iff : ∀ ns : List Nat,
    ns.sum = ns.countP (0 < ·) ↔ ∀ n ∈ ns, n ≤ 1
  | [] => by simp
  | n :: ns => by
    have hle := countP_pos_le_sum ns
    rw [List.forall_mem_cons, ← sum_eq_countP_pos_iff ns, List.countP_cons, List.sum_cons]
    simp only [decide_eq_true_eq]
    split_ifs <;> omega

/-! ## Documents -/

namespace Document

/-- Whether an operation is bound to a path and a method. -/
def Binds (d : Document) (path : String) (method : Method) (op : Operation) : Prop :=
  ∃ item, (path, item) ∈ d.paths ∧ (method, op) ∈ item.operations

def boundTo (d : Document) (kind : Operation → Prop) : Set (String × Method) :=
  {place | ∃ op, d.Binds place.1 place.2 op ∧ kind op}

theorem binds_iff {d : Document} {e : Endpoint} :
    d.Binds e.path e.method e.operation ↔ e ∈ d.endpoints := by
  constructor
  · rintro ⟨item, hitem, hop⟩
    exact List.mem_flatMap.mpr ⟨_, hitem, List.mem_map.mpr ⟨_, hop, rfl⟩⟩
  · intro he
    obtain ⟨p, hp, hpath, hop⟩ := mem_endpoints he
    exact ⟨p.2, hpath ▸ hp, hop⟩

/-- As no place stands twice, places are counted by counting operations. -/
theorem ncard_boundTo (d : Document) (kind : Operation → Prop) [DecidablePred kind] :
    (d.boundTo kind).ncard = d.endpoints.countP fun e => kind e.operation := by
  let bound := (d.endpoints.filter fun e => kind e.operation).map placeOf
  have hset : d.boundTo kind = ↑bound.toFinset := by
    ext place
    rw [List.coe_toFinset]
    constructor
    · rintro ⟨op, hbinds, hkind⟩
      have he : (⟨place.1, place.2, op⟩ : Endpoint) ∈ d.endpoints := binds_iff.mp hbinds
      exact List.mem_map.mpr ⟨_, List.mem_filter.mpr ⟨he, decide_eq_true hkind⟩, rfl⟩
    · intro hplace
      obtain ⟨e, he, rfl⟩ := List.mem_map.mp hplace
      obtain ⟨he, hkind⟩ := List.mem_filter.mp he
      exact ⟨e.operation, binds_iff.mpr he, of_decide_eq_true hkind⟩
  have hnodup : bound.Nodup := d.nodup_places.sublist (List.filter_sublist.map placeOf)
  rw [hset, Set.ncard_coe_finset, List.toFinset_card_of_nodup hnodup, List.length_map,
    List.countP_eq_length_filter]

/-- A tag is counted as often as operations name it. -/
theorem count_of_tag (d : Document) (tag : String) :
    Command.operationCount d.counts tag =
      (d.endpoints.map fun e => e.operation.tags.count tag).sum := by
  rw [Command.operationCount, counts, lookup_tally, List.count_flatMap]
  rfl

/-- The operations that carry a tag are those that name it. -/
theorem countP_carries (d : Document) (tag : String) :
    d.endpoints.countP (fun e => tag ∈ e.operation.tags) =
      (d.endpoints.map fun e => e.operation.tags.count tag).countP (0 < ·) := by
  rw [List.countP_map]
  refine List.countP_congr fun e _ => ?_
  simp [List.count_pos_iff]

/-- **Counted operations.** The number of operations is that of the paths and methods that are
bound to one; the counts of the methods sum to it; methods and tags stand in the order in which they
come first. The count of a tag is never less than the number of operations that carry it, and it is
that number, and so no more than that of all operations, exactly if no operation names the tag
twice. -/
theorem counts_operations (d : Document) :
    d.counts.operations = (d.boundTo fun _ => True).ncard ∧
      (d.counts.byMethod.map Prod.snd).sum = d.counts.operations ∧
      d.counts.byMethod.map Prod.fst = (d.endpoints.map Endpoint.method).eraseDups ∧
      d.counts.byTag.map Prod.fst =
        (d.endpoints.flatMap fun e => e.operation.tags).eraseDups ∧
      ∀ tag,
        (d.boundTo fun op => tag ∈ op.tags).ncard ≤ d.counts.operations ∧
        (d.boundTo fun op => tag ∈ op.tags).ncard ≤ Command.operationCount d.counts tag ∧
        (Command.operationCount d.counts tag = (d.boundTo fun op => tag ∈ op.tags).ncard ↔
          ∀ path method op, d.Binds path method op → op.tags.count tag ≤ 1) := by
  refine ⟨?operations, ?methods, keys_tally _, keys_tally _, fun tag => ⟨?all, ?carried, ?exact⟩⟩
  case operations =>
    rw [ncard_boundTo]
    simp [counts]
  case methods =>
    show ((tally (d.endpoints.map Endpoint.method)).map Prod.snd).sum = d.endpoints.length
    rw [sum_tally, List.length_map]
  case all =>
    rw [ncard_boundTo]
    exact List.countP_le_length
  case carried =>
    rw [ncard_boundTo, countP_carries, count_of_tag]
    exact countP_pos_le_sum _
  case exact =>
    rw [ncard_boundTo, countP_carries, count_of_tag, sum_eq_countP_pos_iff]
    constructor
    · intro hcounts path method op hbinds
      have he : (⟨path, method, op⟩ : Endpoint) ∈ d.endpoints := binds_iff.mp hbinds
      exact hcounts _ (List.mem_map_of_mem he)
    · intro hcounts n hn
      obtain ⟨e, he, rfl⟩ := List.mem_map.mp hn
      exact hcounts e.path e.method e.operation (binds_iff.mpr he)

/-- A document with a tag that two operations carry, one of them besides another tag. -/
def clinic : Document where
  version := "3.0.0"
  info := ⟨"Pets", "1", none⟩
  paths := [("/pets", ⟨[], [(.get, { (default : Operation) with tags := ["pets", "vets"] }),
      (.head, { (default : Operation) with tags := ["pets"] })], by decide⟩),
    ("/vets", ⟨[], [(.get, { (default : Operation) with tags := ["vets"] })], by decide⟩)]
  components := none
  tags := []

/-- Of its three operations, two carry each of the tags. -/
theorem counts_operations_clinic :
    clinic.counts = ⟨2, 3, [(.get, 2), (.head, 1)], [("pets", 2), ("vets", 2)]⟩ ∧
      (clinic.boundTo fun _ => True).ncard = 3 ∧
      (clinic.boundTo fun op => "vets" ∈ op.tags).ncard = 2 := by
  have honce : ∀ path method op, clinic.Binds path method op → op.tags.count "vets" ≤ 1 := by
    have hall : ∀ e ∈ clinic.endpoints, e.operation.tags.count "vets" ≤ 1 := by decide
    intro path method op hbinds
    exact hall ⟨path, method, op⟩ (binds_iff.mp hbinds)
  obtain ⟨hoperations, -, -, -, htags⟩ := counts_operations clinic
  obtain ⟨-, -, hcarried⟩ := htags "vets"
  exact ⟨by decide, hoperations.symm, (hcarried.mpr honce).symm⟩

/-- A raw document whose only operation names its tag twice. -/
def repeatedTag : Json :=
  .obj [("openapi", .str "3.0.0"),
    ("info", .obj [("title", .str "T"), ("version", .str "1")]),
    ("paths", .obj [("/a", .obj [("get", .obj [("tags", .arr [.str "a", .str "a"])])])])]

def namedTwice : Document where
  version := "3.0.0"
  info := ⟨"T", "1", none⟩
  paths := [("/a",
    ⟨[], [(.get, { (default : Operation) with id := "operation", tags := ["a", "a"] })],
      by decide⟩)]
  components := none
  tags := [⟨"a", none⟩]

/-- No rule is against it, and the tag of one operation is counted twice. -/
theorem operation_counted_twice :
    ofJson repeatedTag = .ok namedTwice ∧ namedTwice.counts.operations = 1 ∧
      Command.operationCount namedTwice.counts "a" = 2 ∧
      (namedTwice.boundTo fun op => "a" ∈ op.tags).ncard = 1 := by
  have hread : ofJson repeatedTag = .ok namedTwice := eq_ok_of_toOption (by decide +kernel)
  refine ⟨hread, rfl, by decide, ?_⟩
  rw [ncard_boundTo]
  decide

end Document

end OpenApiClient
