import OpenApiClient.Proofs.Json.Readings

/-!
# Where readings fail

`FailsOnly P r` says that the error of `r` satisfies `P`, if there is one; it is to errors what
`Gives` is to results. An error in an entry of an object lies one step further, under the key of the
entry (`failsAt_readEntries`), and an object whose keys are free fails only inside of its entries
(`failsAt_asMap`). A field that was entered is not reported as missing (`failsAt_require`).
-/

namespace OpenApiClient

section FailsOnly

variable {ε α β : Type}

/-- The error, if there is one, has a property. -/
def FailsOnly (P : ε → Prop) (r : Except ε α) : Prop :=
  ∀ e, r = .error e → P e

/-- A failure can be checked where results cannot be compared. -/
theorem eq_error_of_match {r : Except ε α} {e : ε}
    (h : (match r with | .error e' => some e' | .ok _ => none) = some e) : r = .error e := by
  cases r with
  | error e' => exact congrArg Except.error (Option.some.inj h)
  | ok a => cases h

namespace FailsOnly

variable {P : ε → Prop}

theorem ok (a : α) : FailsOnly P (.ok a) := by
  rintro e ⟨⟩

theorem bind {x : Except ε α} {f : α → Except ε β} (hx : FailsOnly P x)
    (hf : ∀ a, x = .ok a → FailsOnly P (f a)) : FailsOnly P (x >>= f) := by
  intro e he
  cases hresult : x with
  | error e' =>
    rw [hresult] at he
    cases he
    exact hx e hresult
  | ok a =>
    rw [hresult] at he
    exact hf a hresult e he

end FailsOnly

end FailsOnly

namespace Json

variable {α σ : Type} {P : List Step → Prop}

/-- The way to the error of a reading, if there is one, has a property. -/
abbrev FailsAt (P : List Step → Prop) (r : Typed α) : Prop :=
  FailsOnly (fun e => P e.path) r

theorem failsAt_within {r : Typed α} {step : Step} (h : FailsAt (fun path => P (step :: path)) r) :
    FailsAt P (within step r) := by
  intro e he
  cases r with
  | ok a => cases he
  | error e' =>
    cases he
    exact h e' rfl

/-- An object fails where one of its entries does. -/
theorem failsAt_readEntries {enter : String → Json → σ → Typed σ} :
    ∀ {entries : List (String × Json)} {s : σ},
      (∀ k v s, (k, v) ∈ entries → FailsAt (fun path => P (.key k :: path)) (enter k v s)) →
        FailsAt P (readEntries enter entries s)
  | [], _, _ => FailsOnly.ok _
  | (k, v) :: rest, s, h => by
    refine (failsAt_within (h k v s List.mem_cons_self)).bind fun t _ => ?_
    exact failsAt_readEntries fun l w u hmem => h l w u (List.mem_cons_of_mem _ hmem)

/-- Whether a way leads into the entry of a key. -/
def Into (key : String) (path : List Step) : Prop :=
  ∃ rest, path = .key key :: rest

/-- An object whose keys are free fails only inside of its entries. -/
theorem failsAt_asMap {read : Json → Typed α} (entries : List (String × Json)) :
    FailsAt (fun path => ∃ key, Into key path) (asMap read (.obj entries)) := by
  show FailsAt (fun path => ∃ key, Into key path) (readNamed read entries)
  induction entries with
  | nil => exact FailsOnly.ok _
  | cons e rest ih =>
    have hown : FailsAt (fun path => ∃ key, Into key path) (within (.key e.1) (read e.2)) :=
      failsAt_within fun err _ => ⟨e.1, err.path, rfl⟩
    refine hown.bind fun a _ => ?_
    exact ih.bind fun parts _ => FailsOnly.ok _

/-- Nothing is missing that was entered. -/
theorem failsAt_require {name : String} {o : Option α} (h : o.isSome = true) :
    FailsAt P (require name o) := by
  obtain ⟨a, rfl⟩ := Option.isSome_iff_exists.mp h
  exact FailsOnly.ok a

end Json

end OpenApiClient
