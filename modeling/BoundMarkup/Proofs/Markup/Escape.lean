import BoundMarkup.Markup.Reading
import BoundMarkup.Markup.Writer
import BoundMarkup.Proofs.Text.Lemmas

/-!
# Escapes are read back

Every place in which a text is written has an escape of its own. This module shows for each that
the reader of that place stops exactly where the written text ends, and what it has then.

## Main results

* `decodeReferences_flatMap_append`: an escape of which each character is read back is read back,
  whatever stands behind it;
* `decodeReferences_escapeValue`, `decodeReferences_escapeText`: decoding an escaped attribute value
  or an escaped text returns it;
* `cutAt_escapeComment`: the first end mark behind an escaped comment is the one that ends it;
* `cutCaseless_escapeRawText`: there is no end tag in escaped raw text;
* `escapeComment_escapeComment`, `escapeRawText_escapeRawText`: escaping twice is escaping once;
* `cutCaseless_append`: the first mark behind a text that has none is the one that stands there;
* `cutCaseless_append_cons`: what is too short for a mark is passed over in front of a character
  that the mark does not have.
-/

namespace BoundMarkup.Markup

open Text

/-! ### Attribute values -/

/-- An ampersand in front of a reference reads as what the reference stands for. -/
theorem decodeReferences_of_reference? {s name rest : List Char}
    (h : reference? s = some (name, rest)) :
    decodeReferences ('&' :: s) = decodeReference name ++ decodeReferences rest := by
  rw [decodeReferences]
  split
  · next n r hn =>
    rw [h] at hn
    cases hn
    rfl
  · next hn =>
    rw [h] at hn
    cases hn

/-- An ampersand that begins no reference is kept. -/
theorem decodeReferences_ampersand {s : List Char} (h : reference? s = none) :
    decodeReferences ('&' :: s) = '&' :: decodeReferences s := by
  rw [decodeReferences]
  split
  · next hn =>
    rw [h] at hn
    cases hn
  · rfl

/-- A character that is no ampersand is kept. -/
theorem decodeReferences_cons {c : Char} (hc : c ≠ '&') (s : List Char) :
    decodeReferences (c :: s) = c :: decodeReferences s := by
  rw [decodeReferences.eq_def]
  split
  · next h => cases h
  · next h => exact absurd (List.cons.inj h).1 hc
  · next h =>
    cases h
    rfl

/-- The escape of one character in an attribute value reads as that character. -/
theorem decodeReferences_escapeValueChar (c : Char) (s : List Char) :
    decodeReferences (escapeValueChar c ++ s) = c :: decodeReferences s := by
  have hread (name : List Char) (d : Char)
      (h : reference? (name ++ ';' :: s) = some (name, s)) (hd : decodeReference name = [d]) :
      decodeReferences ('&' :: (name ++ ';' :: s)) = d :: decodeReferences s := by
    rw [decodeReferences_of_reference? h, hd, List.singleton_append]
  unfold escapeValueChar
  -- Four characters are written as references; every other one stands for itself.
  split
  · exact hread "amp".toList '&' rfl (by decide)
  · exact hread "quot".toList '"' rfl (by decide)
  · exact hread "lt".toList '<' rfl (by decide)
  · exact hread "gt".toList '>' rfl (by decide)
  · next hamp _ _ _ => exact decodeReferences_cons hamp s

/-- An escape is read back if each of its characters is read back by itself. No reference reaches
beyond the escape of its character, so it does not matter what stands behind. -/
theorem decodeReferences_flatMap_append {escape : Char → List Char}
    (h : ∀ c s, decodeReferences (escape c ++ s) = c :: decodeReferences s) (s rest : List Char) :
    decodeReferences (s.flatMap escape ++ rest) = s ++ decodeReferences rest := by
  induction s with
  | nil => rfl
  | cons c s ih => rw [List.flatMap_cons, List.append_assoc, h, ih, List.cons_append]

/-- Decoding the escaped form of an attribute value returns the value. -/
@[simp]
theorem decodeReferences_escapeValue (s : List Char) : decodeReferences (escapeValue s) = s := by
  have h := decodeReferences_flatMap_append decodeReferences_escapeValueChar s []
  rwa [decodeReferences, List.append_nil, List.append_nil] at h

/-- An escaped attribute value has no character that could end it or its tag, and none that could
begin another tag. -/
theorem not_mem_escapeValue (s : List Char) :
    '"' ∉ escapeValue s ∧ '>' ∉ escapeValue s ∧ '<' ∉ escapeValue s := by
  have hchar (c : Char) :
      '"' ∉ escapeValueChar c ∧ '>' ∉ escapeValueChar c ∧ '<' ∉ escapeValueChar c := by
    unfold escapeValueChar
    split
    · decide
    · decide
    · decide
    · decide
    · next _ hquot hlt hgt => simp [Ne.symm hquot, Ne.symm hgt, Ne.symm hlt]
  simp only [escapeValue, List.mem_flatMap, not_exists, not_and]
  exact ⟨fun c _ => (hchar c).1, fun c _ => (hchar c).2.1, fun c _ => (hchar c).2.2⟩

/-- Escaping a value puts no white space into it. -/
theorem isTagSpace_escapeValue {s : List Char} (h : ∀ c ∈ s, isTagSpace c = false) :
    ∀ c ∈ escapeValue s, isTagSpace c = false := by
  have hchar (d : Char) (hd : isTagSpace d = false) :
      ∀ c ∈ escapeValueChar d, isTagSpace c = false := by
    unfold escapeValueChar
    split
    · simp [isTagSpace]
    · simp [isTagSpace]
    · simp [isTagSpace]
    · simp [isTagSpace]
    · simpa using hd
  intro c hc
  obtain ⟨d, hd, hcd⟩ := List.mem_flatMap.mp hc
  exact hchar d (h d hd) c hcd

/-! ### Text -/

/-- Text is escaped as a value is, but for quotation marks. -/
theorem escapeTextChar_eq {c : Char} (hc : c ≠ '"') : escapeTextChar c = escapeValueChar c := by
  unfold escapeTextChar escapeValueChar
  split
  · rfl
  · rfl
  · rfl
  · split
    · contradiction
    · exact absurd rfl hc
    · contradiction
    · contradiction
    · rfl

/-- The escape of one character of text reads as that character. -/
theorem decodeReferences_escapeTextChar (c : Char) (s : List Char) :
    decodeReferences (escapeTextChar c ++ s) = c :: decodeReferences s := by
  by_cases hc : c = '"'
  · subst hc
    exact decodeReferences_cons (by decide) s
  · rw [escapeTextChar_eq hc, decodeReferences_escapeValueChar]

/-- Decoding escaped text returns the text. -/
@[simp]
theorem decodeReferences_escapeText (s : List Char) : decodeReferences (escapeText s) = s := by
  have h := decodeReferences_flatMap_append decodeReferences_escapeTextChar s []
  rwa [decodeReferences, List.append_nil, List.append_nil] at h

/-- No angle bracket stands in escaped text. -/
theorem not_mem_escapeText (s : List Char) : '<' ∉ escapeText s ∧ '>' ∉ escapeText s := by
  have hchar (c : Char) : '<' ∉ escapeTextChar c ∧ '>' ∉ escapeTextChar c := by
    unfold escapeTextChar
    split
    · decide
    · decide
    · decide
    · next _ hlt hgt => simp [Ne.symm hlt, Ne.symm hgt]
  simp only [escapeText, List.mem_flatMap, not_exists, not_and]
  exact ⟨fun c _ => (hchar c).1, fun c _ => (hchar c).2⟩

/-! ### Comments -/

/-- A single character is no end mark. -/
private theorem escapeComment_singleton (c : Char) : escapeComment [c] = [c] := by
  rw [escapeComment.eq_def]
  split
  · next h => cases h
  · next h =>
    cases h
    rfl
  · next h => cases h

/-- An escaped comment begins with the first two characters of the comment. -/
private theorem escapeComment_cons_cons (c d : Char) (s : List Char) :
    ∃ t, escapeComment (c :: d :: s) = c :: d :: t := by
  rw [escapeComment.eq_def]
  split
  · next h =>
    cases h
    exact ⟨_, rfl⟩
  · next c' s' _ h =>
    cases h
    rw [escapeComment.eq_def]
    split
    · next h =>
      cases h
      exact ⟨_, rfl⟩
    · next h =>
      cases h
      exact ⟨_, rfl⟩
    · next h => cases h
  · next h => cases h

/-- No end mark begins at a character of a comment that is not the beginning of one in it. -/
private theorem past?_escapeComment {c : Char} {s : List Char}
    (h : ∀ t, c = '-' → s ≠ '-' :: '>' :: t) (rest : List Char) :
    past? "-->".toList (c :: (escapeComment s ++ "-->".toList ++ rest)) = none := by
  rw [Option.eq_none_iff_forall_ne_some]
  intro t ht
  have heq := past?_eq_some_iff.mp ht
  -- The mark has three characters, so it matters what the escape does with the next two.
  rcases s with _ | ⟨d, _ | ⟨e, s⟩⟩
  · rw [show escapeComment [] = [] from rfl] at heq
    simp at heq
  · rw [escapeComment_singleton] at heq
    simp at heq
  · obtain ⟨u, hu⟩ := escapeComment_cons_cons d e s
    simp only [hu, String.reduceToList, List.cons_append, List.cons.injEq, List.nil_append] at heq
    obtain ⟨rfl, rfl, rfl, -⟩ := heq
    exact h s rfl rfl

/-- The first end mark behind an escaped comment is the one that is written behind it. -/
theorem cutAt_escapeComment (s rest : List Char) :
    cutAt "-->".toList (escapeComment s ++ "-->".toList ++ rest) =
      some (escapeComment s, rest) := by
  fun_induction escapeComment s with
  | case1 s ih =>
    -- The escape of an end mark is passed over one character after another.
    simp only [String.reduceToList, List.cons_append, List.nil_append] at ih ⊢
    rw [cutAt_cons rfl, cutAt_cons rfl, cutAt_cons rfl, cutAt_cons rfl, cutAt_cons rfl,
      cutAt_cons rfl, ih]
    rfl
  | case2 c s h ih =>
    rw [List.cons_append, List.cons_append,
      cutAt_cons (past?_escapeComment h rest), ih, Option.map_some]
  | case3 => rfl

/-- A character that begins no end mark is kept. -/
private theorem escapeComment_cons {c : Char} {s : List Char}
    (h : ∀ t, c = '-' → s ≠ '-' :: '>' :: t) : escapeComment (c :: s) = c :: escapeComment s := by
  rw [escapeComment.eq_def]
  split
  · next heq =>
    cases heq
    exact absurd rfl (h _ rfl)
  · next heq =>
    cases heq
    rfl
  · next heq => cases heq

/-- There is nothing left to escape in an escaped comment. -/
@[simp]
theorem escapeComment_escapeComment (s : List Char) :
    escapeComment (escapeComment s) = escapeComment s := by
  fun_induction escapeComment s with
  | case1 s ih =>
    simp only [String.reduceToList, List.cons_append, List.nil_append]
    rw [escapeComment_cons (by simp), escapeComment_cons (by simp), escapeComment_cons (by simp),
      escapeComment_cons (by simp), escapeComment_cons (by simp), escapeComment_cons (by simp), ih]
  | case2 c s h ih =>
    rw [escapeComment_cons, ih]
    rintro t rfl heq
    -- An end mark that begins here would be found.
    have hpast := past?_escapeComment h []
    rw [heq] at hpast
    cases hpast
  | case3 => rfl

/-! ### Raw text -/

/-- Escaped raw text begins with the first character of the text. -/
private theorem escapeRawText_cons (c : Char) (s : List Char) :
    ∃ t, escapeRawText (c :: s) = c :: t := by
  rw [escapeRawText.eq_def]
  split
  · next h =>
    cases h
    exact ⟨_, rfl⟩
  · next h =>
    cases h
    exact ⟨_, rfl⟩
  · next h => cases h

/-- A mark that begins with a slash behind its bracket cannot begin where that is not so. -/
private theorem cutCaseless_cons {name s : List Char} {c : Char}
    (h : ∀ t, c = '<' → s ≠ '/' :: t) :
    cutCaseless ('<' :: '/' :: name) (c :: s) =
      (cutCaseless ('<' :: '/' :: name) s).map fun r => (c :: r.1, r.2) := by
  rw [cutCaseless, if_neg]
  intro heq
  -- Folding reaches neither the bracket nor the slash, so they would stand in the text as they are.
  cases s with
  | nil => simp at heq
  | cons d s =>
    simp only [List.length_cons, List.take_succ_cons, lower_cons, List.cons.injEq] at heq
    have hc : c = '<' := eq_of_toLower_eq (by decide) heq.1
    have hd : d = '/' := eq_of_toLower_eq (by decide) heq.2.1
    exact h s hc (by rw [hd])

/-- What the escape leaves alone has no slash behind its bracket. -/
private theorem escapeRawText_ne {c : Char} {s : List Char} (h : ∀ t, c = '<' → s ≠ '/' :: t) :
    ∀ t, c = '<' → escapeRawText s ≠ '/' :: t := by
  rintro t hc heq
  cases s with
  | nil => simp [escapeRawText] at heq
  | cons d s =>
    obtain ⟨u, hu⟩ := escapeRawText_cons d s
    rw [hu, List.cons.injEq] at heq
    exact h s hc (by rw [heq.1])

/-- There is no end tag in escaped raw text. -/
theorem cutCaseless_escapeRawText (name s : List Char) :
    cutCaseless ('<' :: '/' :: name) (escapeRawText s) = none := by
  fun_induction escapeRawText s with
  | case1 s ih =>
    rw [cutCaseless_cons (by simp), cutCaseless_cons (by simp), cutCaseless_cons (by simp), ih]
    rfl
  | case2 c s h ih => rw [cutCaseless_cons (escapeRawText_ne h), ih, Option.map_none]
  | case3 => rfl

/-- A character that begins no end tag is kept. -/
private theorem escapeRawText_of_ne {c : Char} {s : List Char} (h : ∀ t, c = '<' → s ≠ '/' :: t) :
    escapeRawText (c :: s) = c :: escapeRawText s := by
  rw [escapeRawText.eq_def]
  split
  · next heq =>
    cases heq
    exact absurd rfl (h _ rfl)
  · next heq =>
    cases heq
    rfl
  · next heq => cases heq

/-- There is nothing left to escape in escaped raw text. -/
@[simp]
theorem escapeRawText_escapeRawText (s : List Char) :
    escapeRawText (escapeRawText s) = escapeRawText s := by
  fun_induction escapeRawText s with
  | case1 s ih =>
    rw [escapeRawText_of_ne (by simp), escapeRawText_of_ne (by simp),
      escapeRawText_of_ne (by simp), ih]
  | case2 c s h ih => rw [escapeRawText_of_ne (escapeRawText_ne h), ih]
  | case3 => rfl

/-- No mark begins in a text that has none and ends in a mark that stands behind it. -/
theorem cutCaseless_append {mark s : List Char} (hmark : '<' ∉ mark)
    (h : cutCaseless ('<' :: mark) s = none) (rest : List Char) :
    cutCaseless ('<' :: mark) (s ++ '<' :: mark ++ rest) = some (s, rest) := by
  induction s with
  | nil => simp [cutCaseless]
  | cons c s ih =>
    rw [cutCaseless] at h
    split at h
    · cases h
    · next hne =>
      have hs := ih (Option.map_eq_none_iff.mp h)
      rw [List.cons_append, List.cons_append, cutCaseless, if_neg, hs, Option.map_some]
      intro heq
      rw [List.length_cons, List.take_succ_cons] at heq hne
      rcases Nat.lt_or_ge s.length mark.length with hlt | hge
      · -- The mark would reach into the one behind the text, and so have its bracket in it.
        rw [List.append_assoc, List.cons_append, lower_cons, lower_cons] at heq
        exact lower_take_append_ne hmark (by decide) hlt (mark ++ rest) (List.cons.inj heq).2
      · rw [List.append_assoc, List.take_append_of_le_length hge] at heq
        exact hne heq

/-- A text that is shorter than a mark is passed over together with a character that the mark does
not have. -/
theorem cutCaseless_append_cons {mark s : List Char} {c : Char} (hmark : c ∉ mark)
    (hc : c.toNat < 0x41) (hs : s.length < mark.length) (rest : List Char) :
    cutCaseless mark (s ++ c :: rest) =
      (cutCaseless mark rest).map fun r => (s ++ c :: r.1, r.2) := by
  induction s with
  | nil =>
    have hne := lower_take_append_ne hmark hc hs rest
    rw [List.nil_append] at hne ⊢
    rw [cutCaseless, if_neg hne]
    rfl
  | cons d s ih =>
    have hne := lower_take_append_ne hmark hc hs rest
    rw [List.cons_append] at hne ⊢
    rw [cutCaseless, if_neg hne, ih (Nat.lt_of_succ_lt hs), Option.map_map]
    rfl

end BoundMarkup.Markup
