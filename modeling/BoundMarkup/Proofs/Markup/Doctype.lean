import BoundMarkup.Proofs.Markup.Name

/-!
# Document type declarations are read back

What a document type declaration says is written as it stands, so it has to end again where it
ended when it was read. The scan for the end looks ahead: within the internal subset, what a
character means depends on what follows. But the subset is closed by a bracket, and none of the
marks that are looked for has one in it. So nothing behind the bracket matters, neither the blanks
that were trimmed off nor what stands behind the declaration.

## Main definitions

* `IsDeclaration`: a text that is the whole of a declaration when it is written as one.

## Main results

* `doctypeText_of_blanks`: blanks at the end of a declaration do not matter, nor what follows it;
* `isDeclaration_of_doctype`: what a declaration is read as is the whole of one;
* `of_construct`: what a construct may be read as;
* `construct_doctype`: a written declaration is read as it is, or refused if it is empty.
-/

namespace BoundMarkup.Markup

open Text

/-- A text that is the whole of a document type declaration when it is written as one. -/
structure IsDeclaration (s : List Char) : Prop where
  /-- The scan ends behind it, whatever follows. -/
  whole : ∀ rest, doctypeText (.outer none) (s ++ '>' :: rest) = some (s, rest)
  /-- There are no blanks at its ends. -/
  trimmed : trim s = s

/-! ### The internal subset -/

/-- Whether a text begins with a mark is decided in front of a character that the mark does not
have. -/
private theorem isSome_past?_append {mark s : List Char} {d : Char} (hs : d ∈ s) (hm : d ∉ mark)
    (r r' : List Char) : (past? mark (s ++ r)).isSome = (past? mark (s ++ r')).isSome := by
  induction mark generalizing s with
  | nil => simp [past?]
  | cons m mark ih =>
    obtain ⟨hne, hm⟩ := List.ne_and_not_mem_of_not_mem_cons hm
    cases s with
    | nil => cases hs
    | cons c s =>
      by_cases hc : m = c
      · have hd : d ∈ s := (List.mem_cons.mp hs).resolve_left (hc ▸ hne)
        simpa [past?, hc] using ih hd hm
      · simp [past?, hc]

namespace DoctypePlace

/-- Whether a place is inside the internal subset. -/
def isInner : DoctypePlace → Bool
  | outer _ | behind => false
  | _ => true

/-- No blank closes a quotation. -/
def IsQuoting (place : DoctypePlace) : Prop := ∀ q, place = outer (some q) → isBlank q = false

theorem isInner_ofMarkup (s : List Char) : (ofMarkup s).isInner = true := by
  unfold ofMarkup
  split
  · rfl
  · split
    · rfl
    · split <;> rfl

/-- Where a character leads that leads outside the internal subset: in front of it only quotations
are opened and closed, the closing bracket leads behind it, and from there nothing leads on. -/
theorem next_cases (place : DoctypePlace) (c : Char) (s : List Char) :
    (place.next c s).isInner = true ∨
      (∃ quote, place = outer quote ∧ place.next c s = outer (quoteAfter quote c)) ∨
      (place = subset ∧ c = ']' ∧ place.next c s = behind) ∨
      (place = behind ∧ place.next c s = behind) := by
  cases place with
  | outer quote =>
    by_cases h : quote = none ∧ c = '['
    · exact .inl (by simp [next, h, isInner])
    · exact .inr (.inl ⟨quote, rfl, by simp [next, h]⟩)
  | subset =>
    by_cases h : c = ']'
    · exact .inr (.inr (.inl ⟨rfl, h, by simp [next, h]⟩))
    · by_cases hlt : c = '<'
      · exact .inl (by simp [next, hlt, isInner_ofMarkup])
      · exact .inl (by simp [next, h, hlt, isInner])
  | declaration quote =>
    by_cases h : quote = none ∧ c = '>' <;> exact .inl (by simp [next, h, isInner])
  | unquoted => by_cases h : c = '>' <;> exact .inl (by simp [next, h, isInner])
  | comment lead =>
    cases lead with
    | zero =>
      by_cases h : (past? "-->".toList (c :: s)).isSome = true <;>
        exact .inl (by simp only [next, h, isInner, if_true, if_false, Bool.false_eq_true])
    | succ lead => exact .inl rfl
  | instruction lead =>
    cases lead with
    | zero =>
      by_cases h : (past? "?>".toList (c :: s)).isSome = true <;>
        exact .inl (by simp only [next, h, isInner, if_true, if_false, Bool.false_eq_true])
    | succ lead => exact .inl rfl
  | behind => exact .inr (.inr (.inr ⟨rfl, rfl⟩))

/-- A character that leads outside the internal subset means the same whatever follows. -/
theorem next_eq_of_not_isInner {place : DoctypePlace} {c : Char} {s : List Char}
    (h : (place.next c s).isInner = false) (s' : List Char) : place.next c s' = place.next c s := by
  rcases next_cases place c s with hinner | ⟨quote, rfl, -⟩ | ⟨rfl, rfl, -⟩ | ⟨rfl, -⟩
  · rw [h] at hinner
    cases hinner
  · rfl
  · rfl
  · rfl

/-- What a character means is decided in front of the bracket that closes the internal subset. -/
theorem next_append (place : DoctypePlace) (c : Char) {s : List Char} (hs : ']' ∈ s)
    (r r' : List Char) : place.next c (s ++ r) = place.next c (s ++ r') := by
  have hmark (mark : List Char) (hm : ']' ∉ mark) :
      (past? mark (s ++ r)).isSome = (past? mark (s ++ r')).isSome :=
    isSome_past?_append hs hm r r'
  have hmark' (mark : List Char) (hm : ']' ∉ mark) :
      (past? mark (c :: (s ++ r))).isSome = (past? mark (c :: (s ++ r'))).isSome :=
    isSome_past?_append (List.mem_cons_of_mem c hs) hm r r'
  have hhead : (s ++ r).head? = (s ++ r').head? := by
    cases s with
    | nil => cases hs
    | cons d s => rfl
  have hofMarkup : ofMarkup (s ++ r) = ofMarkup (s ++ r') := by
    simp only [ofMarkup, quotingKeywords, List.any_cons, List.any_nil, hhead,
      hmark "!--".toList (by decide), hmark "!ENTITY".toList (by decide),
      hmark "!ATTLIST".toList (by decide), hmark "!NOTATION".toList (by decide)]
    rfl
  cases place with
  | subset => simp only [next, hofMarkup]
  | comment lead =>
    cases lead with
    | zero => simp only [next, hmark' "-->".toList (by decide)]
    | succ lead => rfl
  | instruction lead =>
    cases lead with
    | zero => simp only [next, hmark' "?>".toList (by decide)]
    | succ lead => rfl
  | _ => rfl

/-- Only quotation marks open a quotation. -/
theorem IsQuoting.next {place : DoctypePlace} (h : place.IsQuoting) (c : Char) (s : List Char) :
    (place.next c s).IsQuoting := by
  intro q hq
  rcases next_cases place c s with hinner | ⟨quote, rfl, hnext⟩ | ⟨-, -, hnext⟩ | ⟨-, hnext⟩
  · rw [hq] at hinner
    cases hinner
  · rw [hnext, outer.injEq] at hq
    cases quote with
    | none =>
      rw [quoteAfter] at hq
      split at hq
      · next hc =>
        cases hq
        rcases hc with rfl | rfl <;> decide
      · cases hq
    | some q' =>
      rw [quoteAfter] at hq
      split at hq
      · cases hq
      · exact h q (by rw [hq])
  · rw [hnext] at hq
    cases hq
  · rw [hnext] at hq
    cases hq

/-- A declaration may end behind a blank only if it might have ended in front of it. -/
theorem mayEnd_of_next {place : DoctypePlace} (h : place.IsQuoting) {c : Char}
    (hc : isBlank c = true) {s : List Char} (hnext : (place.next c s).mayEnd = true) :
    place.mayEnd = true := by
  rcases next_cases place c s with hinner | ⟨quote, rfl, heq⟩ | ⟨-, rfl, -⟩ | ⟨rfl, -⟩
  · cases hplace : place.next c s with
    | outer quote =>
      rw [hplace] at hinner
      cases hinner
    | behind =>
      rw [hplace] at hinner
      cases hinner
    | _ =>
      rw [hplace] at hnext
      cases hnext
  · cases quote with
    | none => rfl
    | some q =>
      -- The quotation would have to be closed by the blank.
      have hq : c ≠ q := by
        rintro rfl
        rw [h c rfl] at hc
        cases hc
      rw [heq, quoteAfter, if_neg hq] at hnext
      cases hnext
  · exact absurd hc (by decide)
  · rfl

end DoctypePlace

/-! ### The end of a declaration -/

/-- A declaration goes on behind a character if it does not end in front of it. -/
theorem doctypeText_cons {place : DoctypePlace} {c : Char} {s text rest : List Char}
    (h : doctypeText place (c :: s) = some (c :: text, rest)) :
    ¬(place.mayEnd = true ∧ c = '>') ∧
      doctypeText (place.next c s) s = some (text, rest) := by
  rw [doctypeText] at h
  split at h
  · cases h
  · next hend =>
    obtain ⟨⟨t, r⟩, ht, he⟩ := Option.map_eq_some_iff.mp h
    cases he
    exact ⟨hend, ht⟩

/-- A declaration that is inside the internal subset has the bracket yet to come that closes it. -/
theorem mem_of_doctypeText {place : DoctypePlace} (hplace : place.isInner = true)
    {text rest : List Char} (h : doctypeText place (text ++ '>' :: rest) = some (text, rest)) :
    ']' ∈ text := by
  induction text generalizing place with
  | nil =>
    rw [List.nil_append, doctypeText, if_neg] at h
    · obtain ⟨r, -, he⟩ := Option.map_eq_some_iff.mp h
      cases he
    · rintro ⟨hend, -⟩
      cases place with
      | outer quote => cases hplace
      | behind => cases hplace
      | _ => cases hend
  | cons c text ih =>
    have hnext := (doctypeText_cons h).2
    rcases place.next_cases c (text ++ '>' :: rest) with
      hinner | ⟨_, rfl, -⟩ | ⟨-, rfl, -⟩ | ⟨rfl, -⟩
    · exact List.mem_cons_of_mem c (ih hinner hnext)
    · cases hplace
    · exact List.mem_cons_self
    · cases hplace

/-- A declaration that ends behind blanks might have ended in front of them. -/
private theorem mayEnd_of_blanks {place : DoctypePlace} (hplace : place.IsQuoting)
    {blanks rest : List Char} (hb : ∀ c ∈ blanks, isBlank c = true)
    (h : doctypeText place (blanks ++ '>' :: rest) = some (blanks, rest)) :
    place.mayEnd = true := by
  induction blanks generalizing place with
  | nil =>
    rw [List.nil_append, doctypeText] at h
    split at h
    · next hend => exact hend.1
    · obtain ⟨r, -, he⟩ := Option.map_eq_some_iff.mp h
      cases he
  | cons c blanks ih =>
    obtain ⟨hc, hb⟩ := List.forall_mem_cons.mp hb
    exact DoctypePlace.mayEnd_of_next hplace hc
      (ih (hplace.next c _) hb (doctypeText_cons h).2)

/-- A declaration that ends behind blanks ends in front of them if they are left out, whatever
follows. -/
theorem doctypeText_of_blanks {place : DoctypePlace} (hplace : place.IsQuoting)
    {text blanks rest : List Char} (hb : ∀ c ∈ blanks, isBlank c = true)
    (h : doctypeText place (text ++ blanks ++ '>' :: rest) = some (text ++ blanks, rest))
    (rest' : List Char) : doctypeText place (text ++ '>' :: rest') = some (text, rest') := by
  induction text generalizing place with
  | nil =>
    have hend := mayEnd_of_blanks hplace hb h
    rw [List.nil_append, doctypeText, if_pos ⟨hend, rfl⟩]
  | cons c text ih =>
    obtain ⟨hend, hnext⟩ : ¬(place.mayEnd = true ∧ c = '>') ∧
        doctypeText (place.next c (text ++ blanks ++ '>' :: rest)) (text ++ blanks ++ '>' :: rest) =
          some (text ++ blanks, rest) := doctypeText_cons h
    -- The character leads to the same place with the blanks and without them: outside the internal
    -- subset it does so at once, and inside there is a bracket to come that is no blank.
    have hsame : place.next c (text ++ '>' :: rest') =
        place.next c (text ++ blanks ++ '>' :: rest) := by
      cases hinner : (place.next c (text ++ blanks ++ '>' :: rest)).isInner with
      | false => exact DoctypePlace.next_eq_of_not_isInner hinner _
      | true =>
        have hmem : ']' ∈ text := by
          rcases List.mem_append.mp (mem_of_doctypeText hinner hnext) with hmem | hmem
          · exact hmem
          · exact absurd (hb _ hmem) (by decide)
        rw [List.append_assoc]
        exact place.next_append c hmem _ _
    rw [List.cons_append, doctypeText, if_neg hend, hsame, ih (hplace.next c _) hnext,
      Option.map_some]

/-! ### Reading and writing -/

/-- A character that opens no quotation and no internal subset, and ends no declaration. -/
private def IsOuter (c : Char) : Prop := c ≠ '"' ∧ c ≠ '\'' ∧ c ≠ '[' ∧ c ≠ '>'

private theorem isOuter_of_isBlank {c : Char} (h : isBlank c = true) : IsOuter c := by
  refine ⟨?_, ?_, ?_, ?_⟩ <;>
  · rintro rfl
    exact absurd h (by decide)

/-- Characters that mean nothing in front of the internal subset are passed over. -/
private theorem doctypeText_append {u : List Char} (hu : ∀ c ∈ u, IsOuter c) (s : List Char) :
    doctypeText (.outer none) (u ++ s) =
      (doctypeText (.outer none) s).map fun r => (u ++ r.1, r.2) := by
  induction u with
  | nil => simp
  | cons c u ih =>
    obtain ⟨⟨hdouble, hsingle, hbracket, hangle⟩, hu⟩ := List.forall_mem_cons.mp hu
    have hnext : DoctypePlace.next (.outer none) c (u ++ s) = .outer none := by
      simp [DoctypePlace.next, quoteAfter, hbracket, hdouble, hsingle]
    rw [List.cons_append, doctypeText, if_neg (fun h => hangle h.2), hnext, ih hu, Option.map_map]
    rfl

/-- The keyword and the spaces behind it are passed over. -/
private theorem isOuter_of_lower {s : List Char} (h : lower s = "doctype".toList) :
    ∀ c ∈ s, IsOuter c := by
  intro c hc
  have hmem : c.toLower ∈ "doctype".toList := h ▸ List.mem_map_of_mem hc
  refine ⟨?_, ?_, ?_, ?_⟩ <;>
  · rintro rfl
    exact absurd hmem (by decide)

/-- What is read behind the keyword, trimmed, is the whole of a declaration. -/
private theorem isDeclaration_of_doctypeText {s text rest : List Char}
    (h : doctypeText (.outer none) s = some (text, rest))
    (hkeyword : lower (text.take 7) = "doctype".toList) :
    IsDeclaration (trim ((text.drop 7).dropWhile isTagSpace)) := by
  obtain ⟨before, behind, htrim, hbefore, hbehind⟩ :=
    exists_append_trim ((text.drop 7).dropWhile isTagSpace)
  have hspaces : ∀ c ∈ (text.drop 7).takeWhile isTagSpace, isBlank c = true :=
    fun c hc => isBlank_of_isTagSpace (List.all_eq_true.mp List.all_takeWhile c hc)
  -- The keyword, the spaces behind it and the blanks that follow mean nothing to the scan.
  have hfront : ∀ c ∈ text.take 7 ++ (text.drop 7).takeWhile isTagSpace ++ before, IsOuter c := by
    intro c hc
    rcases List.mem_append.mp hc with hc | hc
    · rcases List.mem_append.mp hc with hc | hc
      · exact isOuter_of_lower hkeyword c hc
      · exact isOuter_of_isBlank (hspaces c hc)
    · exact isOuter_of_isBlank (hbefore c hc)
  have htext : text = text.take 7 ++ (text.drop 7).takeWhile isTagSpace ++ before ++
      (trim ((text.drop 7).dropWhile isTagSpace) ++ behind) := by
    simp only [List.append_assoc] at htrim ⊢
    rw [← htrim, List.takeWhile_append_dropWhile, List.take_append_drop]
  rw [append_of_doctypeText h, htext, List.append_assoc, doctypeText_append hfront,
    Option.map_eq_some_iff] at h
  obtain ⟨⟨inner, rest⟩, hinner, heq⟩ := h
  obtain ⟨hfst, rfl⟩ := Prod.mk.inj heq
  obtain rfl : inner = trim ((text.drop 7).dropWhile isTagSpace) ++ behind :=
    List.append_cancel_left hfst
  have hquoting : (DoctypePlace.outer none).IsQuoting := by
    rintro q ⟨⟩
  exact ⟨doctypeText_of_blanks hquoting hbehind hinner, trim_trim _⟩

/-- What a document type declaration is read as is the whole of one. -/
theorem isDeclaration_of_doctype {s rest : List Char} {t : Token}
    (h : doctype s = .ok (t, rest)) : ∃ text, t = .doctype text ∧ IsDeclaration text := by
  obtain ⟨text, htext, hkeyword, rfl⟩ := exists_of_doctype h
  exact ⟨_, rfl, isDeclaration_of_doctypeText htext hkeyword⟩

/-- What a construct may be read as: a text between fixed marks, which has no end mark in it if it is
a comment, an end tag, the whole of a declaration, or a tag without what follows it. -/
theorem of_construct {p : Token → Prop}
    (hcomment : ∀ text, ¬"-->".toList <:+: text → p (.comment text))
    (hliteral : ∀ text, p (.literal text)) (hinstruction : ∀ text, p (.instruction text))
    (hclosing : ∀ name, p (.closing name))
    (hdoctype : ∀ text, IsDeclaration text → p (.doctype text))
    (htag : ∀ content, p (tagOf content)) {s rest : List Char} {t : Token}
    (h : construct s = .ok (t, rest)) : p t := by
  obtain ⟨u, -, hu⟩ | hu | ⟨text, -, rfl⟩ | ⟨text, -, rfl⟩ := construct_cases h
  · obtain hu | hu | hu := declaration_cases hu
    · obtain ⟨_, text, -, hcut, rfl⟩ := exists_of_enclosed hu
      exact hcomment text (not_infix_of_cutAt (by decide) hcut)
    · obtain ⟨_, text, -, -, rfl⟩ := exists_of_enclosed hu
      exact hliteral text
    · obtain ⟨text, rfl, htext⟩ := isDeclaration_of_doctype hu
      exact hdoctype text htext
  · obtain ⟨_, text, -, rfl⟩ := exists_of_instruction hu
    exact hinstruction text
  · exact hclosing _
  · exact htag text

/-- The whole of a declaration is read as it is written, unless it is empty: then it is refused. -/
theorem construct_doctype {s : List Char} (h : IsDeclaration s) (rest : List Char) :
    construct ('!' :: ("DOCTYPE ".toList ++ s ++ '>' :: rest)) =
      if s = [] then .error .unnamedDoctype else .ok (.doctype s, rest) := by
  have hkeyword : ∀ c ∈ "DOCTYPE ".toList, IsOuter c := by
    simp [IsOuter]
  have hwhole : doctypeText (.outer none) ("DOCTYPE ".toList ++ s ++ '>' :: rest) =
      some ("DOCTYPE ".toList ++ s, rest) := by
    rw [List.append_assoc, doctypeText_append hkeyword, h.whole rest, Option.map_some]
  have hconstruct : construct ('!' :: ("DOCTYPE ".toList ++ s ++ '>' :: rest)) =
      doctype ("DOCTYPE ".toList ++ s ++ '>' :: rest) := rfl
  -- The space behind the keyword is passed over, and what follows does not begin with one.
  have hcontent : (("DOCTYPE ".toList ++ s).drop 7).dropWhile isTagSpace = s := by
    have hspace : (("DOCTYPE ".toList ++ s).drop 7).dropWhile isTagSpace =
        s.dropWhile isTagSpace := rfl
    rw [hspace]
    cases hs : s with
    | nil => rfl
    | cons c t =>
      have hfirst := isBlank_eq_false_of_trim (h.trimmed.trans hs)
      refine List.dropWhile_cons_of_neg fun hc => ?_
      rw [isBlank_of_isTagSpace hc] at hfirst
      cases hfirst
  rw [hconstruct, doctype, hwhole]
  dsimp only
  rw [if_pos (by rfl), hcontent]
  cases s with
  | nil => rfl
  | cons c t =>
    dsimp only
    rw [h.trimmed, if_neg (List.cons_ne_nil c t)]

end BoundMarkup.Markup
