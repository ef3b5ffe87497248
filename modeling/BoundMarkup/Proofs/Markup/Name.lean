import BoundMarkup.Markup.Token
import BoundMarkup.Markup.Name
import BoundMarkup.Proofs.Text.Lemmas

/-!
# Characters of names

What may be written as the name of an element or of an attribute has no character at which a
reader of tags stops.

## Main results

* `endsAttributeName_eq_false_iff`: what a character of an attribute name is not;
* `of_mem_elementName`: a character of an element name is one of an attribute name, and folding
  fixes it;
* `validAttributeName_lowercase`: folding keeps an attribute name valid;
* `of_isVoid`, `isVoid_eq_false`: a void element has a valid name and holds no raw text.
-/

namespace BoundMarkup.Markup

open Text

/-- A character may stand in an attribute name exactly if it is no blank, no control and none of
the six marks. -/
theorem endsAttributeName_eq_false_iff {c : Char} :
    endsAttributeName c = false ↔
      isBlank c = false ∧ isControl c = false ∧ c ≠ '"' ∧ c ≠ '\'' ∧ c ≠ '>' ∧ c ≠ '<' ∧
        c ≠ '/' ∧ c ≠ '=' := by
  simp [endsAttributeName, and_assoc]

/-- White space inside tags is blank. -/
theorem isBlank_of_isTagSpace {c : Char} (h : isTagSpace c = true) : isBlank c = true := by
  simp only [isTagSpace, Bool.or_eq_true, beq_iff_eq] at h
  rcases h with ((rfl | rfl) | rfl) | rfl <;> decide

/-- A character of an attribute name is no white space inside tags. -/
theorem isTagSpace_eq_false {c : Char} (h : endsAttributeName c = false) :
    isTagSpace c = false := by
  refine Bool.eq_false_iff.mpr fun hs => ?_
  rw [endsAttributeName_eq_false_iff, isBlank_of_isTagSpace hs] at h
  exact Bool.noConfusion h.1

/-- The digits and the letters of ASCII may stand in an attribute name. -/
theorem endsAttributeName_alphanumeric {c : Char}
    (h : (0x30 ≤ c.toNat ∧ c.toNat ≤ 0x39) ∨ (0x41 ≤ c.toNat ∧ c.toNat ≤ 0x5A) ∨
      (0x61 ≤ c.toNat ∧ c.toNat ≤ 0x7A)) : endsAttributeName c = false := by
  -- None of the six marks is in these ranges.
  have hmark : ∀ d : Char, ¬((0x30 ≤ d.toNat ∧ d.toNat ≤ 0x39) ∨
      (0x41 ≤ d.toNat ∧ d.toNat ≤ 0x5A) ∨ (0x61 ≤ d.toNat ∧ d.toNat ≤ 0x7A)) → c ≠ d := by
    rintro d hd rfl
    exact hd h
  refine endsAttributeName_eq_false_iff.mpr ⟨?_, ?_, hmark _ (by decide), hmark _ (by decide),
    hmark _ (by decide), hmark _ (by decide), hmark _ (by decide), hmark _ (by decide)⟩
  · exact isBlank_eq_false (by omega) (by omega)
  · simp only [isControl]
    simp
    omega

/-- Folding a character does not change whether it may stand in an attribute name. -/
@[simp]
theorem endsAttributeName_toLower (c : Char) :
    endsAttributeName c.toLower = endsAttributeName c := by
  rcases toLower_cases c with ⟨-, hc⟩ | ⟨ha, hz, hl⟩
  · rw [hc]
  · rw [endsAttributeName_alphanumeric (by omega), endsAttributeName_alphanumeric (by omega)]

/-- Folding an attribute name does not change whether it is valid. -/
@[simp]
theorem validAttributeName_lowercase (name : String) :
    validAttributeName (lowercase name) = validAttributeName name := by
  have hany : ∀ s : List Char, (lower s).any endsAttributeName = s.any endsAttributeName := by
    intro s
    rw [lower, List.any_map]
    exact congrArg s.any (funext endsAttributeName_toLower)
  have hempty : ∀ s : List Char, (lower s).isEmpty = s.isEmpty := by
    intro s
    cases s <;> rfl
  simp only [validAttributeName, toList_lowercase, hany, hempty]

/-- A valid attribute name is not empty and has none of the characters that end one. -/
theorem validAttributeName_iff {name : String} :
    validAttributeName name = true ↔
      name.toList ≠ [] ∧ ∀ c ∈ name.toList, endsAttributeName c = false := by
  simp [validAttributeName]

/-! ### Names of elements -/

/-- A name character or a colon may stand in an attribute name, and folding fixes it. -/
private theorem of_isNameChar {c : Char} (h : isNameChar c = true ∨ c = ':') :
    endsAttributeName c = false ∧ c.toLower = c := by
  have hrange : (0x30 ≤ c.toNat ∧ c.toNat ≤ 0x39) ∨ (0x61 ≤ c.toNat ∧ c.toNat ≤ 0x7A) ∨
      c = '.' ∨ c = '_' ∨ c = '-' ∨ c = ':' := by
    simp only [isNameChar, isLowerAscii, isDigit, Bool.or_eq_true, Bool.and_eq_true,
      decide_eq_true_eq, beq_iff_eq, Char.le_def, UInt32.le_iff_toNat_le] at h
    rcases h with ((((h | h) | h) | h) | h) | h
    · exact .inr (.inl h)
    · exact .inl h
    all_goals simp [h]
  rcases hrange with h | h | rfl | rfl | rfl | rfl
  · exact ⟨endsAttributeName_alphanumeric (by omega), toLower_eq_self (by omega)⟩
  · exact ⟨endsAttributeName_alphanumeric (by omega), toLower_eq_self (by omega)⟩
  all_goals decide

/-- An element name begins with a small letter and goes on with name characters and a colon. -/
theorem exists_of_validElementName {name : String} (h : validElementName name = true) :
    ∃ c s, name.toList = c :: s ∧ isLowerAscii c = true ∧
      ∀ d ∈ name.toList, isNameChar d = true ∨ d = ':' := by
  unfold validElementName at h
  split at h
  · cases h
  · next c s hs =>
    obtain ⟨hc, hrest⟩ := Bool.and_eq_true_iff.mp h
    refine ⟨c, s, hs, hc, fun d hd => ?_⟩
    rw [hs, List.mem_cons, ← List.takeWhile_append_dropWhile (p := isNameChar) (l := s),
      List.mem_append] at hd
    -- The first letter, the characters in front of the colon, and what begins with the colon.
    rcases hd with rfl | hd | hd
    · exact .inl (by simp [isNameChar, hc])
    · exact .inl (List.all_eq_true.mp List.all_takeWhile d hd)
    · split at hrest
      · next hnil => simp [hnil] at hd
      · next suffix hcolon =>
        simp only [Bool.and_eq_true, List.all_eq_true] at hrest
        rw [hcolon, List.mem_cons] at hd
        rcases hd with rfl | hd
        · exact .inr rfl
        · exact .inl (hrest.2 d hd)
      · cases hrest

/-- A character of an element name may stand in an attribute name, and folding fixes it. -/
theorem of_mem_elementName {name : String} (h : validElementName name = true) {c : Char}
    (hc : c ∈ name.toList) : endsAttributeName c = false ∧ c.toLower = c := by
  obtain ⟨-, -, -, -, hall⟩ := exists_of_validElementName h
  exact of_isNameChar (hall c hc)

/-- Folding fixes an element name. -/
theorem lower_elementName {name : String} (h : validElementName name = true) :
    lower name.toList = name.toList :=
  lower_eq_self fun _ hc => (of_mem_elementName h hc).2

/-! ### Void elements and raw text -/

theorem isRawText_iff {name : String} :
    isRawText name = true ↔ name = "script" ∨ name = "style" := by
  simp [isRawText, rawTextNames]

/-- The name of an element that holds raw text is valid. -/
theorem validElementName_of_isRawText (h : isRawText name = true) :
    validElementName name = true := by
  rcases isRawText_iff.mp h with rfl | rfl
  · decide
  · decide

/-- A void element has a valid name and holds no raw text. -/
theorem of_isVoid {name : String} (h : isVoid name = true) :
    validElementName name = true ∧ isRawText name = false := by
  have hall : ∀ n ∈ voidNames, validElementName n = true ∧ isRawText n = false := by decide
  exact hall name (by simpa [isVoid] using h)

/-- An element that holds raw text is not void. -/
theorem isVoid_eq_false {name : String} (h : isRawText name = true) : isVoid name = false :=
  Bool.eq_false_iff.mpr fun hvoid => Bool.noConfusion ((of_isVoid hvoid).2.symm.trans h)

end BoundMarkup.Markup
