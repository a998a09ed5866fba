import Mathlib.Logic.Basic

/-!
# What a computation that may fail gives

`Gives P r` says that the result of `r` satisfies `P`, if there is one. Each combinator has a lemma
that passes the statement from its parts to the whole, so that what a reader establishes is proved
along its definition. `exists_of_bind_eq_ok` takes a success apart, and `bind_of_eq_ok` puts one
together.
-/

namespace OpenApiClient

variable {ε α β : Type}

/-- The result, if there is one, has a property. -/
def Gives (P : α → Prop) (r : Except ε α) : Prop :=
  ∀ a, r = .ok a → P a

theorem exists_of_bind_eq_ok {x : Except ε α} {f : α → Except ε β} {b : β}
    (h : x >>= f = .ok b) : ∃ a, x = .ok a ∧ f a = .ok b := by
  cases x with
  | error e => cases h
  | ok a => exact ⟨a, rfl, h⟩

theorem bind_of_eq_ok {x : Except ε α} {a : α} (h : x = .ok a) (f : α → Except ε β) :
    x >>= f = f a := by
  rw [h]
  rfl

/-- A success can be checked where failures cannot be compared. -/
theorem eq_ok_of_toOption {r : Except ε α} {a : α} (h : r.toOption = some a) : r = .ok a := by
  cases r with
  | error e => cases h
  | ok b => exact congrArg Except.ok (Option.some.inj h)

namespace Gives

variable {P Q : α → Prop} {R : β → Prop}

theorem ok {a : α} (h : P a) : Gives P (.ok a : Except ε α) := by
  rintro b ⟨⟩
  exact h

theorem error {e : ε} : Gives P (.error e : Except ε α) := by
  rintro a ⟨⟩

theorem self (r : Except ε α) : Gives (fun a => r = .ok a) r :=
  fun _ h => h

theorem any (r : Except ε α) : Gives (fun _ => True) r :=
  fun _ _ => trivial

theorem mono {r : Except ε α} (h : Gives P r) (hPQ : ∀ a, P a → Q a) : Gives Q r :=
  fun a ha => hPQ a (h a ha)

theorem bind {x : Except ε α} {f : α → Except ε β} (hx : Gives P x)
    (hf : ∀ a, P a → Gives R (f a)) : Gives R (x >>= f) := by
  intro b hb
  obtain ⟨a, ha, hb⟩ := exists_of_bind_eq_ok hb
  exact hf a (hx a ha) b hb

/-- If nothing has to be known of what comes first. -/
theorem bind_any {x : Except ε α} {f : α → Except ε β} (hf : ∀ a, Gives R (f a)) :
    Gives R (x >>= f) :=
  (any x).bind fun a _ => hf a

theorem map {x : Except ε α} {f : α → β} (hx : Gives (fun a => R (f a)) x) :
    Gives R (x.map f) := by
  cases x with
  | error e => exact error
  | ok a => exact ok (hx a rfl)

end Gives

end OpenApiClient
