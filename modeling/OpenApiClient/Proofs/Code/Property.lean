import Mathlib.Data.List.Basic
import OpenApiClient.Code.Identifier
import OpenApiClient.Json.Reader

/-!
# Reading property names back

A property is written as a key of an object and as an access on one, in both cases by its name or by
a quoted string. Both forms are read back here, quoted strings by the reader of JSON, and give the
name that they were written from (`keyName?_propertyKey`, `accessedName?_propertyAccess`). So a key
and an access that are written for one name are about the same property, whatever characters are in
the name.
-/

namespace OpenApiClient

namespace Json

variable {c e : Char} {cs rest tail : List Char}

theorem stringBody_simpleEscape (hu : e ≠ 'u') (he : simpleEscape? e = some c)
    (h : stringBody rest = .ok (cs, tail)) :
    stringBody ('\\' :: e :: rest) = .ok (c :: cs, tail) := by
  rw [stringBody]
  · simp only [he, h]
    rfl
  · simp [hu]
  · simp [hu]

theorem stringBody_plain (hquote : c ≠ '"') (hback : c ≠ '\\') (hcontrol : ¬c.toNat < 32)
    (h : stringBody rest = .ok (cs, tail)) :
    stringBody (c :: rest) = .ok (c :: cs, tail) := by
  rw [stringBody, if_neg hcontrol, h]
  · rfl
  all_goals simp [hquote, hback]

/-- The two digits of a control character are its number. -/
theorem hexUnit?_hexDigit : ∀ n : Fin 32,
    hexUnit? '0' '0' (hexDigit (n / 16)) (hexDigit (n % 16)) = some n.val := by
  decide

theorem stringBody_control (hcontrol : c.toNat < 32) (h : stringBody rest = .ok (cs, tail)) :
    stringBody ('\\' :: 'u' :: '0' :: '0' :: hexDigit (c.toNat / 16) ::
      hexDigit (c.toNat % 16) :: rest) = .ok (c :: cs, tail) := by
  have hunit : hexUnit? '0' '0' (hexDigit (c.toNat / 16)) (hexDigit (c.toNat % 16)) =
      some c.toNat := hexUnit?_hexDigit ⟨c.toNat, hcontrol⟩
  -- a control character is no half of a surrogate pair
  have hlow : ¬(0xDC00 ≤ c.toNat ∧ c.toNat ≤ 0xDFFF) := by omega
  have hhigh : ¬(0xD800 ≤ c.toNat ∧ c.toNat ≤ 0xDBFF) := by omega
  rw [stringBody, hunit]
  simp only [if_neg hlow, if_neg hhigh, h, Char.ofNat_toNat]
  rfl

/-- An escaped character is read as the character, in front of whatever follows. -/
theorem stringBody_escapeChar (c : Char) (h : stringBody rest = .ok (cs, tail)) :
    stringBody (escapeChar c ++ rest) = .ok (c :: cs, tail) := by
  unfold escapeChar
  split_ifs with hquote hback hnew hret htab hbell hfeed hcontrol
  · exact stringBody_simpleEscape (by decide) (by rw [hquote]; rfl) h
  · exact stringBody_simpleEscape (by decide) (by rw [hback]; rfl) h
  · exact stringBody_simpleEscape (by decide) (by rw [hnew]; rfl) h
  · exact stringBody_simpleEscape (by decide) (by rw [hret]; rfl) h
  · exact stringBody_simpleEscape (by decide) (by rw [htab]; rfl) h
  · have hc : c = '\x08' := by rw [← Char.ofNat_toNat c, hbell]
    exact stringBody_simpleEscape (by decide) (by rw [hc]; rfl) h
  · have hc : c = '\x0c' := by rw [← Char.ofNat_toNat c, hfeed]
    exact stringBody_simpleEscape (by decide) (by rw [hc]; rfl) h
  · exact stringBody_control hcontrol h
  · exact stringBody_plain hquote hback hcontrol h

/-- A quoted text is read as the text, in front of whatever follows its closing quote. -/
theorem stringBody_flatMap_escapeChar (rest : List Char) : ∀ cs : List Char,
    stringBody (cs.flatMap escapeChar ++ '"' :: rest) = .ok (cs, rest)
  | [] => by simp [stringBody]
  | c :: cs => by
    rw [List.flatMap_cons, List.append_assoc]
    exact stringBody_escapeChar c (stringBody_flatMap_escapeChar rest cs)

end Json

namespace Code

def keyName? (key : String) : Option String :=
  match key.toList with
  | '"' :: rest =>
    match Json.stringBody rest with
    | .ok (name, []) => some (String.ofList name)
    | _ => none
  | _ => if isIdentifier key then some key else none

theorem toList_quote (s : String) :
    (Json.quote s).toList = '"' :: s.toList.flatMap Json.escapeChar ++ ['"'] := by
  rw [Json.quote, String.toList_ofList, Json.quoteChars]

/-- No identifier begins with a quote. -/
theorem toList_ne_of_isIdentifier {name : String} (h : isIdentifier name = true)
    (rest : List Char) : name.toList ≠ '"' :: rest := by
  intro hname
  simp [isIdentifier, hname, isIdentifierStart] at h

theorem keyName?_propertyKey (name : String) : keyName? (propertyKey name) = some name := by
  by_cases h : isIdentifier name = true
  · rw [propertyKey, if_pos h, keyName?]
    split
    next rest hname => exact absurd hname (toList_ne_of_isIdentifier h rest)
    next => rw [if_pos h]
  · rw [propertyKey, if_neg h, keyName?, toList_quote]
    simp [Json.stringBody_flatMap_escapeChar]

/-- The name of the property of an object that an expression is an access of. -/
def accessedName? (object : String) (text : List Char) : Option String :=
  match Text.afterHead? object.toList text with
  | some ('.' :: name) =>
    if isIdentifier (String.ofList name) then some (String.ofList name) else none
  | some ('[' :: '"' :: rest) =>
    match Json.stringBody rest with
    | .ok (name, [']']) => some (String.ofList name)
    | _ => none
  | _ => none

theorem accessedName?_propertyAccess (object name : String) :
    accessedName? object (propertyAccess object name).toList = some name := by
  by_cases h : isIdentifier name = true
  · have hafter : Text.afterHead? object.toList (object ++ "." ++ name).toList =
        some ('.' :: name.toList) := by
      rw [Text.afterHead?_eq_some_iff]
      simp
    rw [propertyAccess, if_pos h, accessedName?, hafter]
    simp [h]
  · have hafter : Text.afterHead? object.toList (object ++ "[" ++ Json.quote name ++ "]").toList =
        some ('[' :: '"' :: (name.toList.flatMap Json.escapeChar ++ '"' :: [']'])) := by
      rw [Text.afterHead?_eq_some_iff]
      simp [toList_quote]
    rw [propertyAccess, if_neg h, accessedName?, hafter]
    simp [Json.stringBody_flatMap_escapeChar]

end Code

end OpenApiClient
