import OpenApiClient.Double.Basic

/-!
# Raw values

The value of a document before it is given a type: what a JSON text denotes, and what a YAML text is
converted to. Objects keep the order of their entries; entering a key that is there already keeps
its place and replaces its value.
-/

namespace OpenApiClient

namespace Json

/-- A number: an integer that fits into 64 bits, or a finite double. -/
inductive Number where
  | int (n : Int)
  | double (d : Double)
  deriving DecidableEq, Repr, Inhabited

/-- Whether an integer is kept as an integer: it fits into 64 bits, with or without a sign. -/
def Number.isExact (n : Int) : Bool :=
  -(Nat.pow 2 63 : Nat) ≤ n && n < (Nat.pow 2 64 : Nat)

end Json

/-- A raw value. -/
inductive Json where
  | null
  | bool (b : Bool)
  | num (n : Json.Number)
  | str (s : String)
  | arr (items : List Json)
  | obj (entries : List (String × Json))
  deriving Repr, Inhabited

namespace Json

/-! ## Equality -/

mutual

def beq : Json → Json → Bool
  | .null, .null => true
  | .bool a, .bool b => a == b
  | .num a, .num b => decide (a = b)
  | .str a, .str b => a == b
  | .arr a, .arr b => beqItems a b
  | .obj a, .obj b => beqEntries a b
  | _, _ => false

def beqItems : List Json → List Json → Bool
  | [], [] => true
  | x :: xs, y :: ys => x.beq y && beqItems xs ys
  | _, _ => false

def beqEntries : List (String × Json) → List (String × Json) → Bool
  | [], [] => true
  | (k, x) :: xs, (l, y) :: ys => k == l && x.beq y && beqEntries xs ys
  | _, _ => false

end

mutual

theorem eq_of_beq : ∀ {a b : Json}, a.beq b = true → a = b
  | .null, b, h => by cases b <;> simp_all [beq]
  | .bool x, b, h => by cases b <;> simp_all [beq]
  | .num x, b, h => by cases b <;> simp_all [beq]
  | .str x, b, h => by cases b <;> simp_all [beq]
  | .arr x, b, h => by
    cases b <;> simp only [beq, Bool.false_eq_true] at h
    rw [eq_of_beqItems h]
  | .obj x, b, h => by
    cases b <;> simp only [beq, Bool.false_eq_true] at h
    rw [eq_of_beqEntries h]

theorem eq_of_beqItems : ∀ {a b : List Json}, beqItems a b = true → a = b
  | [], b, h => by cases b <;> simp_all [beqItems]
  | x :: xs, b, h => by
    cases b <;> simp only [beqItems, Bool.false_eq_true, Bool.and_eq_true] at h
    rw [eq_of_beq h.1, eq_of_beqItems h.2]

theorem eq_of_beqEntries : ∀ {a b : List (String × Json)}, beqEntries a b = true → a = b
  | [], b, h => by cases b <;> simp_all [beqEntries]
  | (k, x) :: xs, b, h => by
    cases b <;> simp only [beqEntries, Bool.false_eq_true, Bool.and_eq_true, beq_iff_eq] at h
    rw [h.1.1, eq_of_beq h.1.2, eq_of_beqEntries h.2]

end

mutual

theorem beq_self : ∀ a : Json, a.beq a = true
  | .null | .bool _ | .num _ | .str _ => by simp [beq]
  | .arr x => by simp [beq, beqItems_self x]
  | .obj x => by simp [beq, beqEntries_self x]

theorem beqItems_self : ∀ a : List Json, beqItems a a = true
  | [] => rfl
  | x :: xs => by simp [beqItems, beq_self x, beqItems_self xs]

theorem beqEntries_self : ∀ a : List (String × Json), beqEntries a a = true
  | [] => rfl
  | (k, x) :: xs => by simp [beqEntries, beq_self x, beqEntries_self xs]

end

instance : DecidableEq Json := fun a b =>
  decidable_of_iff (a.beq b = true) ⟨eq_of_beq, fun h => h ▸ beq_self a⟩

end Json

/-! ## Entries -/

namespace Entries

def get? {α : Type} (key : String) : List (String × α) → Option α
  | [] => none
  | (k, v) :: rest => if k = key then some v else get? key rest

/-- What is found under a key is an entry. -/
theorem mem_of_get? {α : Type} {key : String} {value : α} {entries : List (String × α)}
    (h : get? key entries = some value) : (key, value) ∈ entries := by
  induction entries with
  | nil => simp [get?] at h
  | cons e rest ih =>
    obtain ⟨k, v⟩ := e
    by_cases hk : k = key
    · simp only [get?, if_pos hk, Option.some.injEq] at h
      simp [hk, h]
    · rw [get?, if_neg hk] at h
      exact List.mem_cons_of_mem _ (ih h)

def keys {α : Type} (entries : List (String × α)) : List String :=
  entries.map Prod.fst

/-- Enters a value: in place of the old one if the key is there, else at the end. -/
def insert {α : Type} (key : String) (value : α) : List (String × α) → List (String × α)
  | [] => [(key, value)]
  | (k, v) :: rest =>
    if k = key then (k, value) :: rest else (k, v) :: insert key value rest

/-- The entered value is found under its key, and every other key has the value it had. -/
theorem get?_insert {α : Type} (key k : String) (value : α) (entries : List (String × α)) :
    get? k (insert key value entries) = if key = k then some value else get? k entries := by
  induction entries with
  | nil => simp [insert, get?]
  | cons e rest ih =>
    obtain ⟨l, v⟩ := e
    by_cases hl : l = key
    · subst hl
      by_cases hk : l = k <;> simp [insert, get?, hk]
    · by_cases hk : l = k
      · subst hk
        simp [insert, get?, hl, Ne.symm hl]
      · simp [insert, get?, hl, hk, ih]

/-- A key that is there keeps its place, and a new one comes last. -/
theorem keys_insert {α : Type} (key : String) (value : α) (entries : List (String × α)) :
    keys (insert key value entries) =
      if key ∈ keys entries then keys entries else keys entries ++ [key] := by
  induction entries with
  | nil => simp [insert, keys]
  | cons e rest ih =>
    obtain ⟨l, v⟩ := e
    by_cases hl : l = key
    · simp [insert, keys, hl]
    · simp only [keys] at ih
      by_cases hm : key ∈ rest.map Prod.fst <;> simp_all [insert, keys, eq_comm]

theorem nodup_keys_insert {α : Type} {entries : List (String × α)} (h : (keys entries).Nodup)
    (key : String) (value : α) : (keys (insert key value entries)).Nodup := by
  rw [keys_insert]
  split
  next => exact h
  next hkey =>
    rw [List.nodup_append]
    refine ⟨h, by simp, ?_⟩
    rintro k hk l hl rfl
    exact hkey (List.mem_singleton.mp hl ▸ hk)

/-- Puts the last entry in the place of a removed one. -/
def closeGap {α : Type} (rest : List (String × α)) : List (String × α) :=
  match rest.getLast? with
  | none => []
  | some last => last :: rest.dropLast

/-- Removes a key; the last entry moves into the gap. -/
def swapRemove {α : Type} (key : String) : List (String × α) → List (String × α)
  | [] => []
  | (k, v) :: rest =>
    if k = key then closeGap rest else (k, v) :: swapRemove key rest

/-- Entries entered one after another, so that of equal keys the last value stands at the first
place. -/
def ofList {α : Type} (entries : List (String × α)) : List (String × α) :=
  entries.foldl (fun map (k, v) => insert k v map) []

theorem nodup_keys_ofList {α : Type} (entries : List (String × α)) :
    (keys (ofList entries)).Nodup := by
  have hrun : ∀ (more before : List (String × α)), (keys before).Nodup →
      (keys (more.foldl (fun map (k, v) => insert k v map) before)).Nodup := by
    intro more
    induction more with
    | nil => exact fun _ h => h
    | cons e more ih => exact fun before h => ih _ (nodup_keys_insert h e.1 e.2)
  exact hrun entries [] List.nodup_nil

/-- Replaces the value of a key, if it is there. -/
def modify {α : Type} (key : String) (f : α → α) : List (String × α) → List (String × α)
  | [] => []
  | (k, v) :: rest => if k = key then (k, f v) :: rest else (k, v) :: modify key f rest

/-- The keys and their order stay. -/
@[simp] theorem keys_modify {α : Type} (key : String) (f : α → α) (entries : List (String × α)) :
    keys (modify key f entries) = keys entries := by
  induction entries with
  | nil => rfl
  | cons e rest ih =>
    obtain ⟨l, v⟩ := e
    by_cases hl : l = key
    · simp [modify, keys, hl]
    · simpa [modify, keys, hl] using ih

/-- The replaced value is found under its key, and every other key has the value it had. -/
theorem get?_modify {α : Type} (key k : String) (f : α → α) (entries : List (String × α)) :
    get? k (modify key f entries) =
      if key = k then (get? k entries).map f else get? k entries := by
  induction entries with
  | nil => simp [modify, get?]
  | cons e rest ih =>
    obtain ⟨l, v⟩ := e
    by_cases hl : l = key
    · subst hl
      by_cases hk : l = k <;> simp [modify, get?, hk]
    · by_cases hk : l = k
      · subst hk
        simp [modify, get?, hl, Ne.symm hl]
      · simp [modify, get?, hl, hk, ih]

end Entries

namespace Json

def entries? : Json → Option (List (String × Json))
  | .obj entries => some entries
  | _ => none

def items? : Json → Option (List Json)
  | .arr items => some items
  | _ => none

def text? : Json → Option String
  | .str s => some s
  | _ => none

def get? (key : String) (v : Json) : Option Json :=
  v.entries?.bind (Entries.get? key)

end Json

end OpenApiClient
