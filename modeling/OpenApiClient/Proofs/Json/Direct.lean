import Mathlib.Data.List.Nodup
import Mathlib.Data.List.TakeWhile
import OpenApiClient.Json.Direct
import OpenApiClient.Proofs.Json.Spacing

/-!
# What a typed reader makes of a value

A typed reader goes along a text. Most readers do not depend on how the text of a value is laid out:
`ReadsAs` says that a reader makes something of a value wherever that value is written, whatever
spaces are in front and in between and whatever stands behind. There is one law for every reader
that settings are made of, up to records, whose entries may come in any order (`readsAs_record`).
-/

namespace OpenApiClient.Json

section Marks

variable {blanks rest : List Char} {c : Char}

theorem skipSpaces_cons (hc : isSpace c = false) : skipSpaces (c :: rest) = c :: rest := by
  rw [skipSpaces, List.dropWhile_cons_of_neg (by simp [hc])]

theorem skipSpaces_append (hblanks : ∀ c ∈ blanks, isSpace c = true) (hc : isSpace c = false) :
    skipSpaces (blanks ++ c :: rest) = c :: rest := by
  rw [skipSpaces, List.dropWhile_append_of_pos hblanks]
  exact skipSpaces_cons hc

/-- What begins a value is neither a space nor the end of a list. -/
theorem Kind.ofChar?_some {k : Kind} (h : Kind.ofChar? c = some k) :
    isSpace c = false ∧ c ≠ ']' := by
  constructor
  · rw [← Bool.not_eq_true]
    intro hc
    simp only [isSpace, Bool.or_eq_true, beq_iff_eq] at hc
    rcases hc with ((rfl | rfl) | rfl) | rfl <;> cases h
  · rintro rfl
    cases h

theorem Kind.ofChar?_ne_n {k : Kind} (h : Kind.ofChar? c = some k) (hk : k ≠ .null) :
    c ≠ 'n' := by
  rintro rfl
  cases h
  exact hk rfl

theorem nextItem_close (hblanks : ∀ c ∈ blanks, isSpace c = true) :
    nextItem (blanks ++ ']' :: rest) = .ok (false, rest) := by
  rw [nextItem, skipSpaces_append hblanks (by decide)]
  rfl

theorem nextItem_comma (hblanks : ∀ c ∈ blanks, isSpace c = true) (hc : isSpace c = false)
    (hclose : c ≠ ']') : nextItem (',' :: (blanks ++ c :: rest)) = .ok (true, c :: rest) := by
  rw [nextItem, skipSpaces_cons (by decide)]
  simp [skipSpaces_append hblanks hc, hclose]

theorem nextEntry_close (hblanks : ∀ c ∈ blanks, isSpace c = true) :
    nextEntry (blanks ++ '\x7d' :: rest) = .ok (false, rest) := by
  rw [nextEntry, skipSpaces_append hblanks (by decide)]
  rfl

theorem nextEntry_comma (hblanks : ∀ c ∈ blanks, isSpace c = true) :
    nextEntry (',' :: (blanks ++ '"' :: rest)) = .ok (true, rest) := by
  have hquote : skipSpaces (blanks ++ '"' :: rest) = '"' :: rest :=
    skipSpaces_append hblanks (by decide)
  rw [nextEntry, skipSpaces_cons (by decide)]
  simp [hquote]

theorem colon_ok : colon (':' :: rest) = .ok rest := by
  rw [colon, skipSpaces_cons (by decide)]
  rfl

theorem firstEntry_close (hblanks : ∀ c ∈ blanks, isSpace c = true) :
    firstEntry (blanks ++ '\x7d' :: rest) = .ok (false, rest) := by
  rw [firstEntry, skipSpaces_append hblanks (by decide)]
  rfl

theorem firstEntry_quote (hblanks : ∀ c ∈ blanks, isSpace c = true) :
    firstEntry (blanks ++ '"' :: rest) = .ok (true, rest) := by
  rw [firstEntry, skipSpaces_append hblanks (by decide)]
  rfl

end Marks

namespace Direct

variable {α β : Type} {cs rest : List Char}

theorem bind_ok {x : Direct α} {f : α → Direct β} {a : α} (h : x cs = .ok (a, rest)) :
    (x >>= f) cs = f a rest := by
  simp [bind, StateT.bind, h, Except.bind]

theorem ofAttempt_ok {read : List Char → Attempt (α × List Char)} {a : α}
    (h : read cs = .ok (a, rest)) : ofAttempt read cs = .ok (a, rest) := by
  rw [ofAttempt, h]
  rfl

theorem peek_append {blanks : List Char} {c : Char} (hblanks : ∀ c ∈ blanks, isSpace c = true)
    (hc : isSpace c = false) : peek (blanks ++ c :: rest) = .ok (c, c :: rest) := by
  rw [peek, skipSpaces_append hblanks hc]

theorem skip_cons (c : Char) : skip (c :: rest) = .ok ((), rest) :=
  rfl

/-! ## Values -/

/-- Whether a reader reads a value as something: from every text of the value, with spaces in front
and anything behind. -/
def ReadsAs (read : Direct α) (v : Json) (a : α) : Prop :=
  ∀ (sp : Spacing) (depth : Nat) (blanks rest : List Char), (∀ c ∈ blanks, isSpace c = true) →
    read (blanks ++ (sp.text depth v ++ rest)) = .ok (a, rest)

variable {read : Direct α} {v : Json} {a : α}

theorem ReadsAs.plain (h : ReadsAs read v a) (sp : Spacing) (depth : Nat) (rest : List Char) :
    read (sp.text depth v ++ rest) = .ok (a, rest) :=
  h sp depth [] rest (by simp)

theorem readsAs_text (expected s : String) : ReadsAs (text expected) (.str s) s := by
  intro sp depth blanks rest hblanks
  rw [sp.text_str_append, text, bind_ok (peek_append hblanks (by decide))]
  show (skip >>= _) _ = _
  rw [bind_ok (skip_cons '"'),
    bind_ok (ofAttempt_ok (stringBody_flatMap_escapeChar rest s.toList)), String.ofList_toList]
  rfl

theorem readsAs_flag (b : Bool) : ReadsAs flag (.bool b) b := by
  intro sp depth blanks rest hblanks
  cases b with
  | true =>
    show flag (blanks ++ 't' :: ('r' :: 'u' :: 'e' :: rest)) = _
    rw [flag, bind_ok (peek_append hblanks (by decide))]
    rfl
  | false =>
    show flag (blanks ++ 'f' :: ('a' :: 'l' :: 's' :: 'e' :: rest)) = _
    rw [flag, bind_ok (peek_append hblanks (by decide))]
    rfl

/-- A name that stands for something is read as that. -/
theorem readsAs_name {names : List (String × α)} {s : String} (h : names.lookup s = some a) :
    ReadsAs (name names) (.str s) a := by
  intro sp depth blanks rest hblanks
  have hread := (readsAs_text "variant identifier" s).plain sp depth rest
  rw [sp.text_str_append] at hread ⊢
  rw [name, bind_ok (peek_append hblanks (by decide))]
  show (text "variant identifier" >>= pick names) _ = _
  rw [bind_ok hread, pick, h]
  rfl

theorem readsAs_optional_null : ReadsAs (optional read) .null none := by
  intro sp depth blanks rest hblanks
  show optional read (blanks ++ 'n' :: ('u' :: 'l' :: 'l' :: rest)) = _
  rw [optional, skipSpaces_append hblanks (by decide)]
  rfl

theorem readsAs_optional (hfinite : v.HasFiniteNumbers) (hkind : v.kind ≠ .null)
    (h : ReadsAs read v a) : ReadsAs (optional read) v (some a) := by
  intro sp depth blanks rest hblanks
  have hread := h.plain sp depth rest
  obtain ⟨c, more, htext, hc⟩ := sp.exists_head_text depth hfinite
  have hspace := (Kind.ofChar?_some hc).left
  have hn := Kind.ofChar?_ne_n hc hkind
  rw [htext, List.cons_append] at hread ⊢
  rw [optional, skipSpaces_append hblanks hspace]
  split
  · rename_i heq
    exact absurd (List.head_eq_of_cons_eq heq) hn
  · show (read >>= fun b => pure (some b)) _ = _
    rw [bind_ok hread]
    rfl

/-! ## Lists -/

/-- The items of a list are read one after another, up to its closing bracket. -/
theorem items_ok (sp : Spacing) (depth : Nat) {blanks : List Char}
    (hblanks : ∀ c ∈ blanks, isSpace c = true) {more : List Json} {as : List α} {fuel : Nat}
    (h : ReadsAs read v a) (hmore : List.Forall₂ (ReadsAs read) more as)
    (hfinite : ∀ w ∈ more, w.HasFiniteNumbers) (hfuel : more.length < fuel) :
    items read fuel (sp.text depth v ++ (sp.moreItems depth more ++ (blanks ++ ']' :: rest))) =
      .ok (a :: as, rest) := by
  induction hmore generalizing v a fuel with
  | nil =>
    obtain ⟨fuel, rfl⟩ := Nat.exists_eq_succ_of_ne_zero (Nat.ne_zero_of_lt hfuel)
    rw [items, bind_ok (h.plain sp depth _), Spacing.moreItems, List.nil_append,
      bind_ok (ofAttempt_ok (nextItem_close hblanks))]
    rfl
  | @cons w b more as hw hmore ih =>
    obtain ⟨fuel, rfl⟩ := Nat.exists_eq_succ_of_ne_zero (Nat.ne_zero_of_lt hfuel)
    obtain ⟨c, tail, htext, hc⟩ := sp.exists_head_text depth (hfinite w List.mem_cons_self)
    obtain ⟨hspace, hclose⟩ := Kind.ofChar?_some hc
    have hrest := ih hw (fun x hx => hfinite x (List.mem_cons_of_mem w hx))
      (Nat.lt_of_succ_lt_succ hfuel)
    rw [items, bind_ok (h.plain sp depth _), Spacing.moreItems]
    rw [htext] at hrest ⊢
    simp only [List.append_assoc, List.cons_append] at hrest ⊢
    rw [bind_ok (ofAttempt_ok (nextItem_comma (sp.isSpace_line depth) hspace hclose))]
    show (items read fuel >>= fun as => pure (a :: as)) _ = _
    rw [bind_ok hrest]
    rfl

theorem firstItem_close {blanks : List Char} (hblanks : ∀ c ∈ blanks, isSpace c = true) :
    firstItem (blanks ++ ']' :: rest) = .ok (false, rest) := by
  rw [firstItem, skipSpaces_append hblanks (by decide)]
  rfl

theorem firstItem_value {blanks : List Char} {c : Char} (hblanks : ∀ c ∈ blanks, isSpace c = true)
    (hc : isSpace c = false) (hclose : c ≠ ']') :
    firstItem (blanks ++ c :: rest) = .ok (true, c :: rest) := by
  rw [firstItem, skipSpaces_append hblanks hc]
  simp [hclose]

/-- A list is read item by item. -/
theorem readsAs_list {items : List Json} {as : List α} (h : List.Forall₂ (ReadsAs read) items as)
    (hfinite : ∀ w ∈ items, w.HasFiniteNumbers) : ReadsAs (list read) (.arr items) as := by
  intro sp depth blanks rest hblanks
  cases h with
  | nil =>
    show list read (blanks ++ '[' :: ([] ++ ']' :: rest)) = _
    rw [list, bind_ok (peek_append hblanks (by decide))]
    show (skip >>= _) _ = _
    rw [bind_ok (skip_cons '['), bind_ok (ofAttempt_ok (firstItem_close (by simp)))]
    rfl
  | @cons v a more as hv hmore =>
    obtain ⟨c, tail, htext, hc⟩ := sp.exists_head_text (depth + 1) (hfinite v List.mem_cons_self)
    obtain ⟨hspace, hclose⟩ := Kind.ofChar?_some hc
    have hitems : ∀ fuel, more.length < fuel →
        items read fuel (sp.text (depth + 1) v ++ (sp.moreItems (depth + 1) more ++
          (sp.line depth ++ ']' :: rest))) = .ok (a :: as, rest) := by
      intro fuel hfuel
      exact items_ok sp (depth + 1) (sp.isSpace_line depth) hv hmore
        (fun x hx => hfinite x (List.mem_cons_of_mem v hx)) hfuel
    simp only [Spacing.text, List.append_assoc, List.cons_append, List.nil_append]
    rw [list, bind_ok (peek_append hblanks (by decide))]
    show (skip >>= _) _ = _
    rw [bind_ok (skip_cons '[')]
    rw [htext, List.cons_append] at hitems ⊢
    rw [bind_ok (ofAttempt_ok (firstItem_value (sp.isSpace_line _) hspace hclose))]
    -- every item takes a comma, so the length of the rest is fuel enough
    apply hitems
    have hlength := sp.length_le_moreItems (depth + 1) more
    simp only [List.length_cons, List.length_append]
    omega

/-! ## Records -/

variable {σ : Type} {enter : String → σ → Direct σ} {s s' s'' : σ} {key : String}
  {es : List (String × Json)}

/-- Whether entering entries one after another leads from one draft of a record to another. -/
inductive Enters (enter : String → σ → Direct σ) : σ → List (String × Json) → σ → Prop
  | nil (s : σ) : Enters enter s [] s
  | cons {s s' s'' : σ} {key : String} {v : Json} {es : List (String × Json)}
      (head : ReadsAs (enter key s) v s') (tail : Enters enter s' es s'') :
      Enters enter s ((key, v) :: es) s''

/-- An entry is read when its key is a field that was not read before. -/
theorem entries_step (sp : Spacing) (depth : Nat) {r : Record} {fuel : Nat} {seen : List String}
    (hfield : key ∈ r.fields) (hseen : key ∉ seen) (h : ReadsAs (enter key s) v s') :
    entries r enter (fuel + 1) seen s (key.toList.flatMap escapeChar ++ '"' :: (':' ::
        (sp.value ++ (sp.text depth v ++ rest)))) =
      (do if ← ofAttempt nextEntry then entries r enter fuel (key :: seen) s' else return s')
        rest := by
  have hcolon : ofAttempt (fun cs => (colon cs).map fun rest => ((), rest))
      (':' :: (sp.value ++ (sp.text depth v ++ rest))) =
        .ok ((), sp.value ++ (sp.text depth v ++ rest)) := by
    rw [ofAttempt, colon_ok]
    rfl
  rw [entries, bind_ok (ofAttempt_ok (stringBody_flatMap_escapeChar _ key.toList)),
    String.ofList_toList]
  simp only [List.contains_iff_mem.mpr hfield, hseen, List.contains_eq_mem, decide_false,
    Bool.not_true, Bool.false_eq_true, if_false]
  rw [bind_ok hcolon, bind_ok (h sp depth sp.value rest sp.isSpace_value)]

/-- The entries of a record are read one after another, up to its closing brace. -/
theorem entries_ok (sp : Spacing) (depth : Nat) {r : Record} {fuel : Nat} {seen : List String}
    {blanks : List Char} (hblanks : ∀ c ∈ blanks, isSpace c = true)
    (h : Enters enter s ((key, v) :: es) s'') (hfields : ∀ e ∈ (key, v) :: es, e.1 ∈ r.fields)
    (hnodup : (((key, v) :: es).map Prod.fst).Nodup) (hseen : ∀ e ∈ (key, v) :: es, e.1 ∉ seen)
    (hfuel : es.length < fuel) :
    entries r enter fuel seen s (key.toList.flatMap escapeChar ++ '"' :: (':' ::
        (sp.value ++ (sp.text depth v ++ (sp.moreEntries depth es ++
          (blanks ++ '\x7d' :: rest)))))) = .ok (s'', rest) := by
  induction es generalizing key v s seen fuel with
  | nil =>
    obtain ⟨fuel, rfl⟩ := Nat.exists_eq_succ_of_ne_zero (Nat.ne_zero_of_lt hfuel)
    cases h with
    | cons head tail =>
      cases tail
      rw [entries_step sp depth (hfields _ List.mem_cons_self) (hseen _ List.mem_cons_self) head,
        Spacing.moreEntries, List.nil_append, bind_ok (ofAttempt_ok (nextEntry_close hblanks))]
      rfl
  | cons e es ih =>
    obtain ⟨fuel, rfl⟩ := Nat.exists_eq_succ_of_ne_zero (Nat.ne_zero_of_lt hfuel)
    obtain ⟨key', w⟩ := e
    cases h with
    | cons head tail =>
      rw [List.map_cons, List.nodup_cons] at hnodup
      rw [entries_step sp depth (hfields _ List.mem_cons_self) (hseen _ List.mem_cons_self) head,
        Spacing.moreEntries]
      simp only [quoteChars, List.append_assoc, List.cons_append, List.nil_append]
      rw [bind_ok (ofAttempt_ok (nextEntry_comma (sp.isSpace_line depth)))]
      apply ih tail
      · exact fun e he => hfields e (List.mem_cons_of_mem _ he)
      · exact hnodup.right
      · intro e he hmem
        rcases List.mem_cons.mp hmem with heq | hmem
        · rw [← heq] at hnodup
          exact hnodup.left (List.mem_map.mpr ⟨e, he, rfl⟩)
        · exact hseen e (List.mem_cons_of_mem _ he) hmem
      · exact Nat.lt_of_succ_lt_succ hfuel

/-- A record is read entry by entry, in whatever order they come, as long as every key is a field
and stands there once. -/
theorem readsAs_record {r : Record} (h : Enters enter s es s') (hfields : ∀ e ∈ es, e.1 ∈ r.fields)
    (hnodup : (es.map Prod.fst).Nodup) : ReadsAs (record r enter s) (.obj es) s' := by
  intro sp depth blanks rest hblanks
  cases es with
  | nil =>
    cases h
    show record r enter s (blanks ++ '\x7b' :: ([] ++ '\x7d' :: rest)) = _
    rw [record, bind_ok (peek_append hblanks (by decide))]
    show (skip >>= _) _ = _
    rw [bind_ok (skip_cons '\x7b'), bind_ok (ofAttempt_ok (firstEntry_close (by simp)))]
    rfl
  | cons e es =>
    obtain ⟨key, v⟩ := e
    -- the keys are different fields, so there are not more of them than fields
    have hlength : es.length < r.fields.length + 1 := by
      have hsubset : ((key, v) :: es).map Prod.fst ⊆ r.fields := by
        intro k hk
        obtain ⟨e, he, rfl⟩ := List.mem_map.mp hk
        exact hfields e he
      have hle := (List.subperm_of_subset hnodup hsubset).length_le
      rw [List.length_map, List.length_cons] at hle
      omega
    simp only [Spacing.text, quoteChars, List.append_assoc, List.cons_append, List.nil_append]
    rw [record, bind_ok (peek_append hblanks (by decide))]
    show (skip >>= _) _ = _
    rw [bind_ok (skip_cons '\x7b'),
      bind_ok (ofAttempt_ok (firstEntry_quote (sp.isSpace_line _)))]
    exact entries_ok sp (depth + 1) (sp.isSpace_line depth) h hfields hnodup (by simp) hlength

end Direct

/-! ## Whole texts -/

variable {α : Type} {read : Direct α} {v : Json} {a : α}

theorem finish_spaces {blanks : List Char} (hblanks : ∀ c ∈ blanks, isSpace c = true) :
    finish (a, blanks) = .ok a := by
  have hall : skipSpaces blanks = [] := by
    rw [skipSpaces, List.dropWhile_eq_nil_iff]
    exact hblanks
  rw [finish, hall]

/-- A text with a value and nothing but spaces around it is read as what the value is read as. -/
theorem readDirect_text (h : Direct.ReadsAs read v a) (sp : Spacing) (depth : Nat)
    {before after : List Char} (hbefore : ∀ c ∈ before, isSpace c = true)
    (hafter : ∀ c ∈ after, isSpace c = true) :
    readDirect read (before ++ (sp.text depth v ++ after)) = .ok a := by
  have hfinish : Direct.ofAttempt (fun rest => (finish ((), rest)).map fun u => (u, [])) after =
      .ok ((), []) := by
    rw [Direct.ofAttempt, finish_spaces hafter]
    rfl
  rw [readDirect, Direct.bind_ok (h sp depth before after hbefore), Direct.bind_ok hfinish]
  rfl

end OpenApiClient.Json
