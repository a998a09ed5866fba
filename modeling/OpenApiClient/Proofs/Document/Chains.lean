import OpenApiClient.Document.Inline
import OpenApiClient.Proofs.Code.Template

/-!
# Chains of references

A reference to a component is followed by names until a value that is no reference is found
(`Leads`); a value stands for what such a chain leads to, if the chain is not too long
(`resolve?_eq_some_iff`).

A component may get a second name, under which there is a reference to it, and references to the
component may be redirected to this alias (`Aliased`). Every chain then leads where it led before,
on the same way or through the alias (`Aliased.leads`), and no chain leads anywhere else
(`Aliased.leads_back`). So a value stands for the same, unless its chain has become too long
(`Aliased.resolve?_eq`).
-/

namespace OpenApiClient

namespace Pointer

def toComponent (sectionName name : String) : String :=
  String.ofList (sectionHead sectionName ++ escape name.toList)

/-- A name in which only tildes are escaped. -/
def escapeTildes (cs : List Char) : List Char :=
  cs.flatMap fun c => if c = '~' then ['~', '0'] else [c]

theorem replace_escape (cs : List Char) :
    Text.replace '~' ['1'] ['/'] (escape cs) = escapeTildes cs := by
  induction cs with
  | nil => exact Text.replace.eq_1 _ _ _
  | cons c cs ih =>
    by_cases htilde : c = '~'
    · subst htilde
      show Text.replace '~' ['1'] ['/'] ('~' :: '0' :: escape cs) = '~' :: '0' :: escapeTildes cs
      rw [Text.replace_cons_of_none rfl, Text.replace_cons_of_ne (by decide), ih]
    by_cases hslash : c = '/'
    · subst hslash
      show Text.replace '~' ['1'] ['/'] ('~' :: '1' :: escape cs) = '/' :: escapeTildes cs
      rw [Text.replace_cons_of_some rfl, ih]
      rfl
    · rw [escape, escapeTildes, List.flatMap_cons, List.flatMap_cons, if_neg htilde, if_neg htilde,
        if_neg hslash, List.singleton_append, Text.replace_cons_of_ne htilde]
      exact congrArg (c :: ·) ih

theorem replace_escapeTildes (cs : List Char) :
    Text.replace '~' ['0'] ['~'] (escapeTildes cs) = cs := by
  induction cs with
  | nil => exact Text.replace.eq_1 _ _ _
  | cons c cs ih =>
    by_cases htilde : c = '~'
    · subst htilde
      show Text.replace '~' ['0'] ['~'] ('~' :: '0' :: escapeTildes cs) = '~' :: cs
      rw [Text.replace_cons_of_some rfl, ih]
      rfl
    · rw [escapeTildes, List.flatMap_cons, if_neg htilde, List.singleton_append,
        Text.replace_cons_of_ne htilde]
      exact congrArg (c :: ·) ih

/-- Every component has a pointer. -/
theorem nameIn?_toComponent (sectionName name : String) :
    nameIn? sectionName (toComponent sectionName name) = some name := by
  have hrest : Text.afterHead? (sectionHead sectionName) (toComponent sectionName name).toList =
      some (escape name.toList) := by
    rw [Text.afterHead?_eq_some_iff, toComponent, String.toList_ofList]
  rw [nameIn?, hrest, Option.map_some, unescape, replace_escape, replace_escapeTildes,
    String.ofList_toList]

end Pointer

namespace Inline

variable {components components' : List (String × Json)} {sectionName : String}
  {names names' : List String} {v v' w t : Json}

/-! ## Chains -/

def pointer? (v : Json) : Option String :=
  (v.get? "$ref").bind Json.text?

def refersTo? (sectionName : String) (v : Json) : Option String :=
  (pointer? v).bind (Pointer.nameIn? sectionName)

def componentsOf (v : Json) : List (String × Json) :=
  ((v.get? "components").bind Json.entries?).getD []

def component? (components : List (String × Json)) (sectionName name : String) : Option Json :=
  (Entries.get? sectionName components).bind (Json.get? name)

/-- Whether references lead from a value, by way of components with given names, to a value that is
no reference. -/
inductive Leads (components : List (String × Json)) (sectionName : String) :
    List String → Json → Json → Prop
  | here {v : Json} (hpointer : pointer? v = none) : Leads components sectionName [] v v
  | next {v w t : Json} {name : String} {names : List String}
      (hname : refersTo? sectionName v = some name)
      (hcomponent : component? components sectionName name = some w)
      (rest : Leads components sectionName names w t) :
      Leads components sectionName (name :: names) v t

theorem pointer?_ne_none {name : String} (h : refersTo? sectionName v = some name) :
    pointer? v ≠ none := by
  intro hnone
  rw [refersTo?, hnone] at h
  cases h

theorem target?_eq (components : List (String × Json)) (sectionName pointer : String) :
    target? components sectionName pointer =
      (Pointer.nameIn? sectionName pointer).bind (component? components sectionName) :=
  rfl

theorem follow?_eq_some_iff {fuel : Nat} :
    follow? components sectionName fuel v = some t ↔
      ∃ names, names.length < fuel ∧ Leads components sectionName names v t := by
  induction fuel generalizing v with
  | zero => simp [follow?]
  | succ fuel ih =>
    rw [follow?]
    split
    · next hnone =>
      constructor
      · rintro ⟨⟩
        exact ⟨[], Nat.succ_pos fuel, Leads.here hnone⟩
      · rintro ⟨names, -, hleads⟩
        cases hleads with
        | here => rfl
        | next hname => exact absurd hnone (pointer?_ne_none hname)
    · next pointer hpointer =>
      rw [Option.bind_eq_some_iff]
      constructor
      · rintro ⟨w, hw, hfollow⟩
        obtain ⟨names, hlength, hleads⟩ := ih.mp hfollow
        rw [target?_eq, Option.bind_eq_some_iff] at hw
        obtain ⟨name, hname, hcomponent⟩ := hw
        have hrefers : refersTo? sectionName v = some name := by
          rw [refersTo?, pointer?, hpointer]
          exact hname
        exact ⟨name :: names, Nat.succ_lt_succ hlength, Leads.next hrefers hcomponent hleads⟩
      · rintro ⟨names, hlength, hleads⟩
        cases hleads with
        | here hnone =>
          rw [pointer?, hpointer] at hnone
          cases hnone
        | @next _ w _ name names hname hcomponent hrest =>
          rw [refersTo?, pointer?, hpointer, Option.bind_some] at hname
          refine ⟨w, ?_, ih.mpr ⟨names, Nat.lt_of_succ_lt_succ hlength, hrest⟩⟩
          rw [target?_eq, hname]
          exact hcomponent

/-- A value stands for what a chain leads to that is short enough. -/
theorem resolve?_eq_some_iff :
    resolve? components sectionName v = some t ↔
      ∃ names, names.length < chainLimit ∧ Leads components sectionName names v t :=
  follow?_eq_some_iff

/-- A value that is no reference stands for itself. -/
theorem resolve?_of_pointer? (h : pointer? v = none) :
    resolve? components sectionName v = some v :=
  resolve?_eq_some_iff.mpr ⟨[], by decide, Leads.here h⟩

/-- What a value stands for depends on one section only. -/
theorem resolve?_congr
    (h : Entries.get? sectionName components' = Entries.get? sectionName components) (v : Json) :
    resolve? components' sectionName v = resolve? components sectionName v := by
  have htarget : ∀ pointer,
      target? components' sectionName pointer = target? components sectionName pointer := by
    intro pointer
    rw [target?_eq, target?_eq]
    refine congrArg _ (funext fun name => ?_)
    rw [component?, component?, h]
  have hfollow : ∀ fuel v,
      follow? components' sectionName fuel v = follow? components sectionName fuel v := by
    intro fuel
    induction fuel with
    | zero => exact fun _ => rfl
    | succ fuel ih =>
      intro v
      rw [follow?, follow?]
      split
      · rfl
      · next pointer _ =>
        rw [htarget]
        exact congrArg _ (funext ih)
  exact hfollow chainLimit v

/-- There is one way from a value at most. -/
theorem Leads.unique {t' : Json} (h : Leads components sectionName names v t)
    (h' : Leads components sectionName names' v t') : names = names' ∧ t = t' := by
  induction h generalizing names' with
  | here hnone =>
    cases h' with
    | here => exact ⟨rfl, rfl⟩
    | next hname => exact absurd hnone (pointer?_ne_none hname)
  | next hname hcomponent hrest ih =>
    cases h' with
    | here hnone => exact absurd hnone (pointer?_ne_none hname)
    | next hname' hcomponent' hrest' =>
      obtain rfl := Option.some.inj (hname.symm.trans hname')
      obtain rfl := Option.some.inj (hcomponent.symm.trans hcomponent')
      obtain ⟨rfl, rfl⟩ := ih hrest'
      exact ⟨rfl, rfl⟩

theorem Leads.length_lt {t' : Json} (h : Leads components sectionName names v t)
    (hlength : names.length < chainLimit) (h' : Leads components sectionName names' v t') :
    names'.length < chainLimit := by
  obtain ⟨rfl, -⟩ := h.unique h'
  exact hlength

/-! ## Aliases -/

def reference (sectionName name : String) : Json :=
  .obj [("$ref", .str (Pointer.toComponent sectionName name))]

/-- Whether a value is another one in which a reference to a component may point to an alias
instead. -/
inductive Redirected (sectionName name «alias» : String) : Json → Json → Prop
  | same (v : Json) : Redirected sectionName name «alias» v v
  | redirected {entries : List (String × Json)} {pointer : String}
      (hpointer : Entries.get? "$ref" entries = some (.str pointer))
      (hname : Pointer.nameIn? sectionName pointer = some name) :
      Redirected sectionName name «alias» (.obj entries)
        (.obj (Entries.modify "$ref"
          (fun _ => .str (Pointer.toComponent sectionName «alias»)) entries))

variable {name «alias» : String}

theorem refersTo?_reference (sectionName name : String) :
    refersTo? sectionName (reference sectionName name) = some name :=
  Pointer.nameIn?_toComponent sectionName name

theorem redirected_reference (sectionName name «alias» : String) :
    Redirected sectionName name «alias» (reference sectionName name)
      (reference sectionName «alias») :=
  Redirected.redirected rfl (Pointer.nameIn?_toComponent sectionName name)

theorem Redirected.cases (h : Redirected sectionName name «alias» v v') :
    v' = v ∨ refersTo? sectionName v = some name ∧ refersTo? sectionName v' = some «alias» := by
  cases h with
  | same => exact Or.inl rfl
  | @redirected entries pointer hpointer hname =>
    have hget : (Json.obj entries).get? "$ref" = some (.str pointer) := hpointer
    have hget' : (Json.obj (Entries.modify "$ref"
        (fun _ => .str (Pointer.toComponent sectionName «alias»)) entries)).get? "$ref" =
          some (.str (Pointer.toComponent sectionName «alias»)) := by
      show Entries.get? "$ref" (Entries.modify _ _ _) = _
      rw [Entries.get?_modify, if_pos rfl, hpointer]
      rfl
    refine Or.inr ⟨?_, ?_⟩
    · rw [refersTo?, pointer?, hget]
      exact hname
    · rw [refersTo?, pointer?, hget']
      exact Pointer.nameIn?_toComponent sectionName «alias»

/-- Whether components are others with one alias more, to which references of the same section may
have been redirected. -/
structure Aliased (sectionName name «alias» : String)
    (components components' : List (String × Json)) : Prop where
  named : component? components sectionName name ≠ none
  absent : component? components sectionName «alias» = none
  reference : component? components' sectionName «alias» = some (reference sectionName name)
  known : ∀ {key : String} {w : Json}, component? components sectionName key = some w →
    ∃ w', component? components' sectionName key = some w' ∧
      Redirected sectionName name «alias» w w'
  fresh : ∀ {key : String} {w : Json}, component? components sectionName key = some w →
    refersTo? sectionName w ≠ some «alias»
  unknown : ∀ {key : String}, key ≠ «alias» → component? components sectionName key = none →
    component? components' sectionName key = none

namespace Aliased

/-- Every chain leads where it led before, on the same way or through the alias. -/
theorem leads (h : Aliased sectionName name «alias» components components')
    (hleads : Leads components sectionName names v t)
    (hv : Redirected sectionName name «alias» v v') :
    ∃ names', Leads components' sectionName names' v' t ∧ (names' = names ∨ «alias» ∈ names') := by
  induction hleads generalizing v' with
  | here hnone =>
    rcases hv.cases with rfl | ⟨hname, -⟩
    · exact ⟨[], Leads.here hnone, Or.inl rfl⟩
    · exact absurd hnone (pointer?_ne_none hname)
  | @next v w t key names hkey hcomponent hrest ih =>
    obtain ⟨w', hcomponent', hw⟩ := h.known hcomponent
    obtain ⟨names', hleads', hnames⟩ := ih hw
    rcases hv.cases with rfl | ⟨hname, halias⟩
    · refine ⟨key :: names', Leads.next hkey hcomponent' hleads', hnames.imp ?_ ?_⟩
      · exact congrArg (key :: ·)
      · exact List.mem_cons_of_mem key
    · obtain rfl := Option.some.inj (hkey.symm.trans hname)
      have hreference := Leads.next (refersTo?_reference sectionName key) hcomponent' hleads'
      exact ⟨«alias» :: key :: names', Leads.next halias h.reference hreference,
        Or.inr List.mem_cons_self⟩

/-- No chain leads anywhere where it did not lead before, nor on a shorter way. -/
theorem leads_back (h : Aliased sectionName name «alias» components components')
    (hleads : Leads components' sectionName names' v' t)
    (hv : Redirected sectionName name «alias» v v')
    (hfresh : refersTo? sectionName v ≠ some «alias») :
    ∃ names, Leads components sectionName names v t ∧ names.length ≤ names'.length := by
  induction hleads generalizing v with
  | here hnone =>
    rcases hv.cases with rfl | ⟨-, halias⟩
    · exact ⟨[], Leads.here hnone, Nat.le_refl 0⟩
    · exact absurd hnone (pointer?_ne_none halias)
  | @next v' w' t key names' hkey hcomponent' hrest ih =>
    rcases hv.cases with rfl | ⟨hname, halias⟩
    · have hne : key ≠ «alias» := by
        rintro rfl
        exact hfresh hkey
      rcases hcomponent : component? components sectionName key with _ | w
      · rw [h.unknown hne hcomponent] at hcomponent'
        cases hcomponent'
      · obtain ⟨w'', hw'', hw⟩ := h.known hcomponent
        obtain rfl := Option.some.inj (hw''.symm.trans hcomponent')
        obtain ⟨names, hleads, hlength⟩ := ih hw (h.fresh hcomponent)
        exact ⟨key :: names, Leads.next hkey hcomponent hleads, Nat.succ_le_succ hlength⟩
    · -- what the alias leads to is what a reference to the component itself led to
      obtain rfl := Option.some.inj (hkey.symm.trans halias)
      obtain rfl := Option.some.inj (h.reference.symm.trans hcomponent')
      have hreference := refersTo?_reference sectionName name
      have hne : refersTo? sectionName (Inline.reference sectionName name) ≠ some key := by
        intro heq
        obtain rfl := Option.some.inj (hreference.symm.trans heq)
        exact h.named h.absent
      obtain ⟨names, hleads, hlength⟩ := ih (Redirected.same _) hne
      refine ⟨names, ?_, Nat.le_succ_of_le hlength⟩
      cases hleads with
      | here hnone => exact absurd hnone (pointer?_ne_none hreference)
      | next hname' hcomponent hrest =>
        obtain rfl := Option.some.inj (hreference.symm.trans hname')
        exact Leads.next hname hcomponent hrest

/-- A value stands for the same as before if a chain through the alias has not become too long. -/
theorem resolve?_eq (h : Aliased sectionName name «alias» components components')
    (hv : Redirected sectionName name «alias» v v')
    (hfresh : refersTo? sectionName v ≠ some «alias»)
    (hshort : resolve? components sectionName v ≠ none →
      ∀ names t, Leads components' sectionName names v' t → «alias» ∈ names →
        names.length < chainLimit) :
    resolve? components' sectionName v' = resolve? components sectionName v := by
  ext t
  rw [resolve?_eq_some_iff]
  constructor
  · rintro ⟨names', hlength', hleads'⟩
    obtain ⟨names, hleads, hlength⟩ := h.leads_back hleads' hv hfresh
    exact resolve?_eq_some_iff.mpr ⟨names, Nat.lt_of_le_of_lt hlength hlength', hleads⟩
  · intro hresolve
    obtain ⟨names, hlength, hleads⟩ := resolve?_eq_some_iff.mp hresolve
    have hsome : resolve? components sectionName v ≠ none :=
      Option.ne_none_iff_exists'.mpr ⟨t, hresolve⟩
    obtain ⟨names', hleads', rfl | hmem⟩ := h.leads hleads hv
    · exact ⟨names', hlength, hleads'⟩
    · exact ⟨names', hshort hsome names' t hleads' hmem, hleads'⟩

end Aliased

end Inline

end OpenApiClient
