import BoundMarkup.Proofs.Markup.NormalForm
import Mathlib.Logic.Function.Iterate

/-!
# References between tags and in values

Escapes are written so that decoding gives back what was escaped: one decoding undoes one escape,
whatever the escaped text looks like.

References that someone else has written are met by two readers. In a value the name of a reference
has at most 32 letters and digits, the first of which may be a number sign. Between tags it is all
that stands between an ampersand and the next semicolon, unless another ampersand or a tag begins in
between. A name without a meaning stays as it is written, so the readers agree on it. But a number
may have a plus sign in front and any number of zeros, and with a plus sign or with more than 32
characters it has its meaning between tags only.

## Main definitions

* `decodeText`: what a text between tags shows;
* `IsTextName`: the names that are met between tags;
* `HasReference`: the references that are written in a text.

## Main results

* `decodeReferences_escape`: decoding undoes escaping, once and only once;
* `isReferenceName_iff`: the names with a meaning that have one in values, too;
* `decodeText_eq_decodeReferences_iff`: the texts that mean the same in both places;
* `parse_paragraph_iff`: the paragraphs whose title is their text.
-/

namespace BoundMarkup.Markup

open Text

/-! ### Escapes -/

/-- Decoding undoes the escape of a value and the escape of a text, and of several escapes on top of
each other it undoes as many as there are decodings; and no quotation mark and no angle bracket
stands in an escaped value, no angle bracket in escaped text. -/
theorem decodeReferences_escape (s : List Char) :
    decodeReferences (escapeValue s) = s ∧ decodeReferences (escapeText s) = s ∧
      (∀ m n, decodeReferences^[m] (escapeValue^[m + n] s) = escapeValue^[n] s ∧
        decodeReferences^[m] (escapeText^[m + n] s) = escapeText^[n] s) ∧
      ('"' ∉ escapeValue s ∧ '<' ∉ escapeValue s ∧ '>' ∉ escapeValue s) ∧
      '<' ∉ escapeText s ∧ '>' ∉ escapeText s := by
  have hvalue : Function.LeftInverse decodeReferences escapeValue := decodeReferences_escapeValue
  have htext : Function.LeftInverse decodeReferences escapeText := decodeReferences_escapeText
  obtain ⟨hquote, hclosing, hopening⟩ := not_mem_escapeValue s
  refine ⟨hvalue s, htext s, fun m n => ⟨?_, ?_⟩, ⟨hquote, hopening, hclosing⟩,
    not_mem_escapeText s⟩
  · rw [Function.iterate_add_apply]
    exact hvalue.iterate m _
  · rw [Function.iterate_add_apply]
    exact htext.iterate m _

/-- What looks like an escape is escaped like anything else. -/
example :
    escapeText "&amp;lt;".toList = "&amp;amp;lt;".toList ∧
      decodeReferences "&amp;amp;lt;".toList = "&amp;lt;".toList := by
  decide +kernel

/-! ### Names with a meaning -/

/-- Letters and digits of ASCII. -/
def isAlphanumeric (c : Char) : Bool := isLetter c || isDigit c

/-- A digit in any base is a digit or a letter. -/
theorem isAlphanumeric_of_digitValue? {c : Char} {d : Nat} (h : digitValue? c = some d) :
    isAlphanumeric c = true := by
  have hletter : ∀ a b : Char, a ≤ c ∧ c ≤ b → ('a' ≤ a ∧ b ≤ 'z') ∨ ('A' ≤ a ∧ b ≤ 'Z') →
      isLetter c = true := by
    rintro a b ⟨hac, hcb⟩ (⟨ha, hb⟩ | ⟨ha, hb⟩)
    · simp [isLetter, isLowerAscii, Char.le_trans ha hac, Char.le_trans hcb hb]
    · simp [isLetter, Char.le_trans ha hac, Char.le_trans hcb hb]
  rw [isAlphanumeric, Bool.or_eq_true]
  unfold digitValue? at h
  split at h
  · next hdigit => exact .inr (by simpa [isDigit] using hdigit)
  · split at h
    · next hlower => exact .inl (hletter _ _ hlower (by decide))
    · split at h
      · next hupper => exact .inl (hletter _ _ hupper (by decide))
      · cases h

theorem isAlphanumeric_of_digitsFrom {base value n : Nat} {s : List Char}
    (h : digitsFrom base value s = some n) : ∀ c ∈ s, isAlphanumeric c = true := by
  induction s generalizing value with
  | nil => exact List.forall_mem_nil _
  | cons c s ih =>
    rw [digitsFrom] at h
    split at h
    · next d hd =>
      split at h
      · exact List.forall_mem_cons.mpr ⟨isAlphanumeric_of_digitValue? hd, ih h⟩
      · cases h
    · cases h

/-- A number is made of letters and digits and perhaps a plus sign. -/
theorem of_number? {base n : Nat} {s : List Char} (h : number? base s = some n) :
    ∀ c ∈ s, c = '+' ∨ isAlphanumeric c = true := by
  unfold number? at h
  split at h
  · cases h
  · cases h
  · exact List.forall_mem_cons.mpr
      ⟨.inl rfl, fun c hc => .inr (isAlphanumeric_of_digitsFrom h c hc)⟩
  · exact fun c hc => .inr (isAlphanumeric_of_digitsFrom h c hc)

/-- Every name in the table of references has the form of a name in a value. -/
theorem isReferenceName_of_mem_namedReferences :
    ∀ r ∈ namedReferences, isReferenceName r.1.toList = true := by
  decide

variable {name : List Char}

/-- A name with the form that it has in values is made of letters and digits, but for a number sign
in front. -/
theorem isReferenceName_cons {c : Char} {s : List Char} :
    isReferenceName (c :: s) = true ↔
      s.length < 32 ∧ (c = '#' ∨ isAlphanumeric c = true) ∧ ∀ d ∈ s, isAlphanumeric d = true := by
  simp [isReferenceName, isAlphanumeric, and_assoc, or_assoc]

/-- A name with a meaning is one in a value, but for its length and for plus signs. -/
theorem of_meaning? (h : (meaning? name).isSome = true) :
    ∃ c s, name = c :: s ∧ (c = '#' ∨ isAlphanumeric c = true) ∧
      ∀ d ∈ s, d = '+' ∨ isAlphanumeric d = true := by
  have hnumber {base : Nat} {digits : List Char}
      (h : ((number? base digits).bind charOf?).isSome = true) :
      ∀ d ∈ digits, d = '+' ∨ isAlphanumeric d = true := by
    obtain ⟨c, hc⟩ := Option.isSome_iff_exists.mp h
    obtain ⟨n, hn, -⟩ := Option.bind_eq_some_iff.mp hc
    exact of_number? hn
  have hmark (x : Char) : isAlphanumeric x = true → x = '+' ∨ isAlphanumeric x = true := .inr
  unfold meaning? at h
  split at h
  · exact ⟨_, _, rfl, .inl rfl, List.forall_mem_cons.mpr ⟨hmark _ (by decide), hnumber h⟩⟩
  · exact ⟨_, _, rfl, .inl rfl, List.forall_mem_cons.mpr ⟨hmark _ (by decide), hnumber h⟩⟩
  · exact ⟨_, _, rfl, .inl rfl, hnumber h⟩
  · rw [Option.isSome_map, List.find?_isSome] at h
    obtain ⟨r, hr, heq⟩ := h
    have hname := isReferenceName_of_mem_namedReferences r hr
    rw [of_decide_eq_true heq] at hname
    cases name with
    | nil => cases hname
    | cons c s =>
      obtain ⟨-, hc, hs⟩ := isReferenceName_cons.mp hname
      exact ⟨c, s, rfl, hc, fun d hd => .inr (hs d hd)⟩

/-- A name with a meaning has it in values, too, unless there is a plus sign in it or it is too
long. -/
theorem isReferenceName_iff (h : (meaning? name).isSome = true) :
    isReferenceName name = true ↔ '+' ∉ name ∧ name.length ≤ 32 := by
  obtain ⟨c, s, rfl, hc, hs⟩ := of_meaning? h
  have hplus : ¬(('+' : Char) = '#' ∨ isAlphanumeric '+' = true) := by decide
  rw [isReferenceName_cons, List.mem_cons, not_or, List.length_cons]
  constructor
  · rintro ⟨hlength, hfirst, hrest⟩
    refine ⟨⟨?_, fun hmem => hplus (.inr (hrest _ hmem))⟩, hlength⟩
    rintro rfl
    exact hplus hfirst
  · rintro ⟨⟨-, hrest⟩, hlength⟩
    refine ⟨hlength, hc, fun d hd => (hs d hd).resolve_left ?_⟩
    rintro rfl
    exact hrest hd

/-! ### The two readers -/

variable {s rest : List Char}

/-- A name as it is met between tags: no semicolon, no ampersand and no tag is in it. -/
def IsTextName (name : List Char) : Prop := ∀ c ∈ name, c ≠ ';' ∧ c ≠ '&' ∧ c ≠ '<'

/-- No ampersand is met in a reference behind its own one. -/
theorem IsTextName.ampersand_notMem (h : IsTextName name) : '&' ∉ name ++ [';'] := by
  rw [List.mem_append, not_or]
  exact ⟨fun hmem => (h _ hmem).2.1 rfl, by decide⟩

/-- No character of a name with a meaning ends a name. -/
theorem ne_of_isNameChar {c : Char} (h : c = '#' ∨ c = '+' ∨ isAlphanumeric c = true) :
    c ≠ ';' ∧ c ≠ '&' ∧ c ≠ '<' := by
  refine ⟨?_, ?_, ?_⟩
  all_goals
    rintro rfl
    exact absurd h (by decide)

theorem isTextName_of_isReferenceName (h : isReferenceName name = true) : IsTextName name := by
  cases name with
  | nil => exact List.forall_mem_nil _
  | cons c s =>
    obtain ⟨-, hc, hs⟩ := isReferenceName_cons.mp h
    exact List.forall_mem_cons.mpr ⟨ne_of_isNameChar (hc.imp_right .inr),
      fun d hd => ne_of_isNameChar (.inr (.inr (hs d hd)))⟩

theorem isTextName_of_meaning? (h : (meaning? name).isSome = true) : IsTextName name := by
  obtain ⟨c, s, rfl, hc, hs⟩ := of_meaning? h
  exact List.forall_mem_cons.mpr ⟨ne_of_isNameChar (hc.imp_right .inr),
    fun d hd => ne_of_isNameChar (.inr (hs d hd))⟩

/-- A name in a value is read at the front of a text if a semicolon stands behind it. -/
theorem reference?_eq_some_iff :
    reference? s = some (name, rest) ↔ s = name ++ ';' :: rest ∧ isReferenceName name = true := by
  constructor
  · intro h
    refine ⟨append_of_reference? h, ?_⟩
    unfold reference? at h
    split at h
    · split at h
      · cases h
        assumption
      · cases h
    · cases h
  · rintro ⟨rfl, h⟩
    have hsemicolon : ';' ∉ name := fun hmem => (isTextName_of_isReferenceName h _ hmem).1 rfl
    rw [reference?, cutAt_singleton hsemicolon]
    exact if_pos h

/-- A character that ends no name belongs to the name that is read. -/
theorem referenceName?_cons {c : Char} (h : c ≠ ';' ∧ c ≠ '&' ∧ c ≠ '<') (s : List Char) :
    referenceName? (c :: s) = (referenceName? s).map fun r => (c :: r.1, r.2) := by
  obtain ⟨hsemicolon, hends⟩ := h
  rw [referenceName?, if_neg hsemicolon, if_neg (not_or.mpr hends)]

/-- A name between tags is read up to the semicolon behind it. -/
theorem referenceName?_append_cons (h : IsTextName name) (rest : List Char) :
    referenceName? (name ++ ';' :: rest) = some (name, rest) := by
  -- What stands behind the semicolon is not looked at, so the induction is on the name alone.
  induction name with
  | nil => rfl
  | cons c name ih =>
    obtain ⟨hc, hname⟩ := List.forall_mem_cons.mp h
    rw [List.cons_append, referenceName?_cons hc, ih hname]
    rfl

/-- What is read between tags as a name has nothing in it that ends one. -/
theorem isTextName_of_referenceName? (h : referenceName? s = some (name, rest)) :
    IsTextName name := by
  fun_induction referenceName? s generalizing name with
  | case1 => cases h
  | case2 s =>
    cases h
    exact List.forall_mem_nil _
  | case3 => cases h
  | case4 c s hsemicolon hends ih =>
    -- Only here a character is added to the name.
    obtain ⟨⟨t, r⟩, hr, heq⟩ := Option.map_eq_some_iff.mp h
    cases heq
    exact List.forall_mem_cons.mpr ⟨⟨hsemicolon, not_or.mp hends⟩, ih hr⟩

/-- A name between tags is read at the front of a text if the next semicolon stands behind it and no
ampersand and no bracket in it. -/
theorem referenceName?_eq_some_iff :
    referenceName? s = some (name, rest) ↔
      s = name ++ ';' :: rest ∧ IsTextName name := by
  constructor
  · intro h
    exact ⟨append_of_referenceName? h, isTextName_of_referenceName? h⟩
  · rintro ⟨rfl, h⟩
    exact referenceName?_append_cons h rest

/-- What a text between tags shows: there the name of a reference may have any form. -/
def decodeText : List Char → List Char
  | [] => []
  | '&' :: s =>
    match _h : referenceName? s with
    | some (name, rest) => decodeReference name ++ decodeText rest
    | none => '&' :: decodeText s
  | c :: s => c :: decodeText s
termination_by s => s.length
decreasing_by
  all_goals simp_all
  have := append_of_referenceName? _h
  simp [this]
  omega

/-- What a reference stands for in a value: there a name of another form has no meaning. -/
def decodeValueReference (name : List Char) : List Char :=
  if isReferenceName name then decodeReference name else '&' :: name ++ [';']

/-- Text without an ampersand is kept. -/
theorem decodeReferences_append {t : List Char} (ht : '&' ∉ t) (s : List Char) :
    decodeReferences (t ++ s) = t ++ decodeReferences s := by
  induction t with
  | nil => rfl
  | cons c t ih =>
    obtain ⟨hc, ht⟩ := List.ne_and_not_mem_of_not_mem_cons ht
    rw [List.cons_append, decodeReferences_cons (Ne.symm hc), ih ht, List.cons_append]

/-- A reference that is met between tags is met in a value, too; it may have no meaning there. -/
theorem decodeReferences_of_referenceName? (h : referenceName? s = some (name, rest)) :
    decodeReferences ('&' :: s) = decodeValueReference name ++ decodeReferences rest := by
  obtain ⟨rfl, hname⟩ := referenceName?_eq_some_iff.mp h
  rw [decodeValueReference]
  split
  · next hform => exact decodeReferences_of_reference? (reference?_eq_some_iff.mpr ⟨rfl, hform⟩)
  · next hform =>
    have hnone : reference? (name ++ ';' :: rest) = none := by
      rw [Option.eq_none_iff_forall_ne_some]
      rintro ⟨other, behind⟩ hother
      -- Another name would be met between tags as well, and there is only one.
      obtain ⟨heq, hotherForm⟩ := reference?_eq_some_iff.mp hother
      have hsame := referenceName?_eq_some_iff.mpr ⟨heq, isTextName_of_isReferenceName hotherForm⟩
      rw [h] at hsame
      cases hsame
      exact hform hotherForm
    have hkept := decodeReferences_append hname.ampersand_notMem rest
    rw [List.append_assoc, List.singleton_append] at hkept
    rw [decodeReferences_ampersand hnone, hkept]
    rfl

/-- An ampersand that begins no reference between tags begins none in a value. -/
theorem decodeReferences_of_referenceName?_eq_none (h : referenceName? s = none) :
    decodeReferences ('&' :: s) = '&' :: decodeReferences s := by
  refine decodeReferences_ampersand (Option.eq_none_iff_forall_ne_some.mpr ?_)
  rintro ⟨name, rest⟩ hname
  obtain ⟨heq, hform⟩ := reference?_eq_some_iff.mp hname
  rw [referenceName?_eq_some_iff.mpr ⟨heq, isTextName_of_isReferenceName hform⟩] at h
  cases h

/-! ### Where the readers agree -/

/-- A reference is never longer decoded than it is written, so it is not longer between tags than in
a value. -/
theorem length_decodeReference_le (name : List Char) :
    (decodeReference name).length ≤ (decodeValueReference name).length := by
  rw [decodeValueReference]
  split
  · exact le_rfl
  · rw [decodeReference]
    split
    · simp
    · exact le_rfl

/-- A reference stands for the same in both places unless it has a meaning and a plus sign in it or
a long name. -/
theorem decodeReference_eq_iff :
    decodeReference name = decodeValueReference name ↔
      ((meaning? name).isSome = true → '+' ∉ name ∧ name.length ≤ 32) := by
  cases hmeaning : meaning? name with
  | none => simp [decodeValueReference, decodeReference, hmeaning]
  | some c =>
    have hsome : (meaning? name).isSome = true := by rw [hmeaning, Option.isSome_some]
    rw [Option.isSome_some, imp_iff_right rfl, ← isReferenceName_iff hsome, decodeValueReference]
    split
    · next hform => simp [hform]
    · next hform => simp [hform, decodeReference, hmeaning]

theorem length_decodeText_le (s : List Char) :
    (decodeText s).length ≤ (decodeReferences s).length := by
  fun_induction decodeText s with
  | case1 => simp
  | case2 s name rest h ih =>
    have hname := length_decodeReference_le name
    rw [decodeReferences_of_referenceName? h, List.length_append, List.length_append]
    omega
  | case3 s h ih =>
    rw [decodeReferences_of_referenceName?_eq_none h, List.length_cons, List.length_cons]
    omega
  | case4 c s hc ih =>
    rw [decodeReferences_cons hc, List.length_cons, List.length_cons]
    omega

/-- A reference of that name is written in a text. -/
def HasReference (s name : List Char) : Prop := '&' :: (name ++ [';']) <:+: s

/-- No reference begins with another character than an ampersand. -/
theorem hasReference_cons {c : Char} (hc : c ≠ '&') :
    HasReference (c :: s) name ↔ HasReference s name := by
  rw [HasReference, List.infix_cons_iff, List.cons_prefix_cons]
  exact or_iff_right fun h => hc h.1.symm

theorem hasReference_append {t : List Char} (ht : '&' ∉ t) :
    HasReference (t ++ s) name ↔ HasReference s name := by
  induction t with
  | nil => rfl
  | cons c t ih =>
    obtain ⟨hc, ht⟩ := List.ne_and_not_mem_of_not_mem_cons ht
    rw [List.cons_append, hasReference_cons (Ne.symm hc), ih ht]

/-- The reference that begins with an ampersand is the one that is met there. -/
theorem hasReference_ampersand (hname : IsTextName name) :
    HasReference ('&' :: s) name ↔
      (∃ rest, referenceName? s = some (name, rest)) ∨ HasReference s name := by
  rw [HasReference, List.infix_cons_iff, List.cons_prefix_cons]
  refine or_congr_left ((and_iff_right rfl).trans (exists_congr fun rest => ?_))
  rw [referenceName?_eq_some_iff, and_iff_left hname, List.append_assoc, List.singleton_append]
  exact eq_comm

/-- Where a reference is met, the text has this one and those behind it. -/
theorem hasReference_of_referenceName? {other : List Char}
    (h : referenceName? s = some (name, rest)) (hother : IsTextName other) :
    HasReference ('&' :: s) other ↔ other = name ∨ HasReference rest other := by
  obtain ⟨hs, hname⟩ := referenceName?_eq_some_iff.mp h
  have hbehind : HasReference s other ↔ HasReference rest other := by
    rw [hs, ← List.singleton_append, ← List.append_assoc]
    exact hasReference_append hname.ampersand_notMem
  rw [hasReference_ampersand hother, hbehind, h]
  apply or_congr_left
  constructor
  · rintro ⟨r, hr⟩
    cases hr
    rfl
  · rintro rfl
    exact ⟨rest, rfl⟩

/-- A text that begins with a reference means the same in both places if the reference and what
stands behind it do: neither part is longer between tags than in a value. -/
theorem append_decodeText_eq_iff (name rest : List Char) :
    decodeReference name ++ decodeText rest = decodeValueReference name ++ decodeReferences rest ↔
      decodeReference name = decodeValueReference name ∧
        decodeText rest = decodeReferences rest := by
  have hname := length_decodeReference_le name
  have hrest := length_decodeText_le rest
  constructor
  · intro heq
    have hlength := congrArg List.length heq
    rw [List.length_append, List.length_append] at hlength
    exact List.append_inj heq (by omega)
  · rintro ⟨hsame, hsame'⟩
    rw [hsame, hsame']

/-- A text means the same between tags and in a value if and only if every reference in it that has
a meaning is written without a plus sign and with 32 characters at most. -/
theorem decodeText_eq_decodeReferences_iff (s : List Char) :
    decodeText s = decodeReferences s ↔
      ∀ name, HasReference s name → (meaning? name).isSome = true →
        '+' ∉ name ∧ name.length ≤ 32 := by
  fun_induction decodeText s with
  | case1 => simp [HasReference, decodeReferences]
  | case2 s name rest h ih =>
    obtain ⟨-, hname⟩ := referenceName?_eq_some_iff.mp h
    rw [decodeReferences_of_referenceName? h, append_decodeText_eq_iff,
      decodeReference_eq_iff, ih]
    constructor
    · rintro ⟨hfirst, hlater⟩ other hother hmeaning
      have hform := isTextName_of_meaning? hmeaning
      rcases (hasReference_of_referenceName? h hform).mp hother with rfl | hother
      · exact hfirst hmeaning
      · exact hlater other hother hmeaning
    · intro hall
      refine ⟨hall name ((hasReference_of_referenceName? h hname).mpr (.inl rfl)), ?_⟩
      intro other hother hmeaning
      have hform := isTextName_of_meaning? hmeaning
      exact hall other ((hasReference_of_referenceName? h hform).mpr (.inr hother)) hmeaning
  | case3 s h ih =>
    have hlater {name : List Char} (hmeaning : (meaning? name).isSome = true) :
        HasReference ('&' :: s) name ↔ HasReference s name := by
      rw [hasReference_ampersand (isTextName_of_meaning? hmeaning)]
      simp [h]
    rw [decodeReferences_of_referenceName?_eq_none h, List.cons_inj_right, ih]
    constructor
    · intro hall name hname hmeaning
      exact hall name ((hlater hmeaning).mp hname) hmeaning
    · intro hall name hname hmeaning
      exact hall name ((hlater hmeaning).mpr hname) hmeaning
  | case4 c s hc ih =>
    rw [decodeReferences_cons hc, List.cons_inj_right, ih]
    exact forall_congr' fun name => by rw [hasReference_cons hc]

/-! ### An element with an attribute and a text -/

/-- What stands behind the reference at the front of a text does not matter. -/
theorem referenceName?_append (h : referenceName? s = some (name, rest)) (t : List Char) :
    referenceName? (s ++ t) = some (name, rest ++ t) := by
  obtain ⟨rfl, hname⟩ := referenceName?_eq_some_iff.mp h
  rw [List.append_assoc, List.cons_append]
  exact referenceName?_eq_some_iff.mpr ⟨rfl, hname⟩

/-- No reference reaches into a tag. -/
theorem referenceName?_append_eq_none (h : referenceName? s = none) (t : List Char) :
    referenceName? (s ++ '<' :: t) = none := by
  rw [Option.eq_none_iff_forall_ne_some] at h ⊢
  rintro ⟨name, rest⟩ hname
  obtain ⟨heq, hfree⟩ := referenceName?_eq_some_iff.mp hname
  rcases List.append_eq_append_iff.mp heq with ⟨u, hu, hu'⟩ | ⟨u, hu, hu'⟩
  · -- The name cannot have the bracket of the tag in it, so it is the text in front of the tag.
    cases u with
    | nil => cases hu'
    | cons c u =>
      cases hu'
      exact (hfree '<' (by simp [hu])).2.2 rfl
  · cases u with
    | nil => cases hu'
    | cons c u =>
      cases hu'
      exact h (name, u) (referenceName?_eq_some_iff.mpr ⟨hu, hfree⟩)

/-- A text in front of a tag is added as what it shows. -/
theorem Assembly.addReading_text {s : List Char} (hs : '<' ∉ s) (a : Assembly) (marked : Bool)
    (t : List Char) :
    a.addReading (readFrom marked (s ++ '<' :: t)) =
      (a.put (.text (String.ofList (decodeText s)))).addReading (readFrom marked ('<' :: t)) := by
  fun_induction decodeText s generalizing a with
  | case1 => rfl
  | case2 s name rest h ih =>
    have hrest : '<' ∉ rest := by
      rw [(referenceName?_eq_some_iff.mp h).1] at hs
      simp_all
    rw [List.cons_append, readFrom_reference (referenceName?_append h _), addReading, ih hrest, add,
      appendText_eq_put, put, put, push_text_append, ← String.ofList_append]
    rfl
  | case3 s h ih =>
    have hrest : '<' ∉ s := fun hmem => hs (List.mem_cons_of_mem _ hmem)
    rw [List.cons_append, readFrom_ampersand (referenceName?_append_eq_none h _), addReading,
      ih hrest, add, appendText_eq_put, put, put, push_text_append, String.ofList_cons]
    rfl
  | case4 c s hamp ih =>
    obtain ⟨hc, hrest⟩ := List.ne_and_not_mem_of_not_mem_cons hs
    rw [List.cons_append, readFrom_character (Ne.symm hc) hamp, addReading, ih hrest, add,
      appendText_eq_put, put, put, push_text_append, String.ofList_cons]
    rfl

section

variable {element key : String} {value : List Char}

/-- What stands between the brackets of a start tag with one attribute. -/
def attributeTag (element key : String) (value : List Char) : List Char :=
  element.toList ++ (' ' :: key.toList ++ ['=', '"'] ++ value ++ ['"'])

/-- It is read as one start tag. -/
theorem construct_attributeTag (helement : validElementName element = true)
    (hkey : validAttributeName key = true) (hquote : '"' ∉ value) (hangle : '>' ∉ value)
    (t : List Char) :
    construct (attributeTag element key value ++ '>' :: t) =
      .ok (.tag .opening (attributeTag element key value), t) := by
  obtain ⟨c, s, hs, hc, -⟩ := exists_of_validElementName helement
  have hclosed : IsClosed (attributeTag element key value) :=
    (isClosed_elementName helement).append (isClosed_quoted hkey hquote hangle)
  have hlast : (attributeTag element key value).getLast? ≠ some '/' := by
    rw [attributeTag, ← List.append_assoc, List.getLast?_concat]
    decide
  rw [attributeTag, hs, List.cons_append] at hclosed hlast ⊢
  exact construct_opening hc hclosed hlast t

/-- The element's name ends at the space in front of the attribute. -/
theorem span_attributeTag (helement : validElementName element = true) :
    (attributeTag element key value).takeWhile (!isTagSpace ·) = element.toList ∧
      (attributeTag element key value).dropWhile (!isTagSpace ·) =
        ' ' :: key.toList ++ ['=', '"'] ++ value ++ ['"'] := by
  refine span_append (fun c hc => ?_) fun c hc => ?_
  · rw [isTagSpace_eq_false (of_mem_elementName helement hc).1, Bool.not_false]
  · cases hc
    rfl

theorem tagName_attributeTag (helement : validElementName element = true) :
    tagName (attributeTag element key value) = element := by
  rw [tagName, (span_attributeTag helement).1, lower_elementName helement, String.ofList_toList]

/-- The tag has that one attribute, with the references in its value decoded. -/
theorem ofText?_attributeTag (helement : validElementName element = true)
    (hkey : validAttributeName key = true) (hquote : '"' ∉ value) :
    Tag.ofText? (attributeTag element key value) =
      some ⟨element, [⟨lowercase key, String.ofList (decodeReferences value)⟩]⟩ := by
  have hattributes : tagAttributes (attributeTag element key value) =
      [{ key := key.toList, value }] := by
    have hread := rawAttributes_quoted hkey List.not_mem_nil hquote []
    have hend : rawAttributes [key.toList] [] = [] := by
      rw [rawAttributes]
      rfl
    rw [List.append_nil, hend] at hread
    rw [tagAttributes, (span_attributeTag helement).2]
    exact hread
  have hvalid : validAttributeName (lowercase key) = true := by
    rw [validAttributeName_lowercase, hkey]
  rw [Tag.ofText?, tagName_attributeTag helement, if_pos helement, hattributes]
  rw [lowercase] at hvalid ⊢
  simp [RawAttribute.decoded, RawAttribute.name, hvalid, firstOfEach]

/-- A text on its own is there unless it is empty. -/
private theorem reverse_push_text (s : String) :
    (Fragment.push [] (.text s)).reverse = textChildren s := by
  by_cases hempty : s.isEmpty = true
  · simp [Fragment.push, textChildren, hempty]
  · simp [Fragment.push, textChildren, hempty]

/-- An element with one attribute and a text is parsed as such. Its value is decoded as values are,
its text as texts are. -/
theorem parse_attributeElement (helement : validElementName element = true)
    (hvoid : isVoid element = false) (hraw : isRawText element = false)
    (hkey : validAttributeName key = true) (hquote : '"' ∉ value) (hangle : '>' ∉ value)
    {text : List Char} (htext : '<' ∉ text) {markup : String}
    (hmarkup : markup.toList = '<' :: (attributeTag element key value ++
      '>' :: (text ++ '<' :: '/' :: (element.toList ++ ['>'])))) :
    parse markup = .ok [.element
      ⟨element, [⟨lowercase key, String.ofList (decodeReferences value)⟩]⟩
      (textChildren (String.ofList (decodeText text)))] := by
  let tag : Tag := ⟨element, [⟨lowercase key, String.ofList (decodeReferences value)⟩]⟩
  let content := Fragment.push [] (.text (String.ofList (decodeText text)))
  -- What is read is the start tag, the text and the end tag.
  have hopening := construct_attributeTag helement hkey hquote hangle
    (text ++ '<' :: '/' :: (element.toList ++ ['>']))
  have hclosing := construct_writtenEnd helement []
  have hraw : rawTextTag? (.tag .opening (attributeTag element key value)) = none := by
    rw [rawTextTag?, tagName_attributeTag helement, hraw, if_neg Bool.false_ne_true]
  rw [parse, hmarkup, read, passMark, if_neg (by decide), readFrom_construct hopening hraw,
    Assembly.addReading, Assembly.addReading_text htext, readFrom_construct hclosing rfl,
    Assembly.addReading, readFrom]
  -- The start tag opens the element, and the end tag closes it with the text in it.
  have hopen : Assembly.add {} (.tag .opening (attributeTag element key value)) =
      Assembly.openElement {} tag := by
    rw [Assembly.add, ofText?_attributeTag helement hkey hquote]
    simp [Assembly.appendTag, hvoid, tag]
  have hclose : Assembly.add { nodes := content, enclosing := [{ tag, before := [] }] }
      (.closing element.toList) = { nodes := [.element tag content.reverse] } :=
    Assembly.add_closing tag [] content []
  have hcontent : content.reverse = textChildren (String.ofList (decodeText text)) :=
    reverse_push_text _
  rw [hopen]
  change Except.map Assembly.finish (Assembly.addReading (Assembly.add
    { nodes := content, enclosing := [{ tag, before := [] }] } (.closing element.toList)) .done) = _
  rw [hclose, hcontent]
  rfl

end

/-- The children that show a text have it for their text. -/
theorem textContent_textChildren (s : String) : Fragment.textContent (textChildren s) = s := by
  unfold textChildren
  split
  · next h =>
    rw [String.isEmpty_iff] at h
    rw [Fragment.textContent, h]
  · simp [Fragment.textContent, Node.textContent]

/-- A text without brackets and quotation marks, as the title of a paragraph and as its text, is
parsed as one paragraph whose title is the decoded text. Its text is the same if and only if every
reference in it that has a meaning is written without a plus sign and with 32 characters at most;
otherwise the text shows what these references stand for, and the title shows how they are
written. -/
theorem parse_paragraph_iff (s : String) (h : ∀ c ∈ s.toList, c ≠ '<' ∧ c ≠ '>' ∧ c ≠ '"') :
    ∃ children,
      parse ("<p title=\"" ++ s ++ "\">" ++ s ++ "</p>") =
        .ok [.element ⟨"p", [⟨"title", String.ofList (decodeReferences s.toList)⟩]⟩ children] ∧
      Fragment.textContent children = String.ofList (decodeText s.toList) ∧
      (Fragment.textContent children = String.ofList (decodeReferences s.toList) ↔
        ∀ name, HasReference s.toList name → (meaning? name).isSome = true →
          '+' ∉ name ∧ name.length ≤ 32) := by
  have hopening : '<' ∉ s.toList := fun hmem => (h _ hmem).1 rfl
  have hangle : '>' ∉ s.toList := fun hmem => (h _ hmem).2.1 rfl
  have hquote : '"' ∉ s.toList := fun hmem => (h _ hmem).2.2 rfl
  have hmarkup : ("<p title=\"" ++ s ++ "\">" ++ s ++ "</p>").toList =
      '<' :: (attributeTag "p" "title" s.toList ++
        '>' :: (s.toList ++ '<' :: '/' :: ("p".toList ++ ['>']))) := by
    simp [attributeTag]
  have hparse := parse_attributeElement (by decide) (by decide) (by decide) (by decide) hquote
    hangle hopening hmarkup
  refine ⟨_, hparse, textContent_textChildren _, ?_⟩
  rw [textContent_textChildren, String.ofList_inj, decodeText_eq_decodeReferences_iff]

/-- Named and numeric references, some without a meaning and some that are none, mean the same in
both places. -/
theorem parse_paragraph_mixed :
    (∀ c ∈ "&amp;lt; &#x41;&#65 &a b; &&;".toList, c ≠ '<' ∧ c ≠ '>' ∧ c ≠ '"') ∧
      ∃ children,
        parse ("<p title=\"" ++ "&amp;lt; &#x41;&#65 &a b; &&;" ++ "\">" ++
            "&amp;lt; &#x41;&#65 &a b; &&;" ++ "</p>") =
          .ok [.element ⟨"p", [⟨"title", "&lt; A&#65 &a b; &&;"⟩]⟩ children] ∧
        Fragment.textContent children = "&lt; A&#65 &a b; &&;" := by
  have hfree : ∀ c ∈ "&amp;lt; &#x41;&#65 &a b; &&;".toList, c ≠ '<' ∧ c ≠ '>' ∧ c ≠ '"' := by
    simp
  obtain ⟨children, hparse, htext, -⟩ := parse_paragraph_iff _ hfree
  have hvalue : decodeReferences "&amp;lt; &#x41;&#65 &a b; &&;".toList =
      "&lt; A&#65 &a b; &&;".toList := by
    with_unfolding_all rfl
  have hshown : decodeText "&amp;lt; &#x41;&#65 &a b; &&;".toList =
      "&lt; A&#65 &a b; &&;".toList := by
    with_unfolding_all rfl
  rw [hvalue, String.ofList_toList] at hparse
  rw [hshown, String.ofList_toList] at htext
  exact ⟨hfree, children, hparse, htext⟩

/-- A number with a sign in front and one with many zeros in front are decoded in the text of a
paragraph and stay as they are written in its title. -/
theorem parse_paragraph_signed :
    (∀ c ∈ "&#+65;".toList, c ≠ '<' ∧ c ≠ '>' ∧ c ≠ '"') ∧
      decodeReferences "&#+65;".toList = "&#+65;".toList ∧
      parse "<p title=\"&#+65;\">&#+65;</p>" =
        .ok [.element ⟨"p", [⟨"title", "&#+65;"⟩]⟩ [.text "A"]] ∧
      parse ("<p title=\"&#000000000000000000000000000000065;\">" ++
          "&#000000000000000000000000000000065;</p>") =
        .ok [.element ⟨"p", [⟨"title", "&#000000000000000000000000000000065;"⟩]⟩ [.text "A"]] := by
  refine ⟨by simp, ?_, ?_, ?_⟩
  · with_unfolding_all rfl
  · with_unfolding_all rfl
  · with_unfolding_all rfl

end BoundMarkup.Markup
