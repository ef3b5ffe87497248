import BoundMarkup.Markup.Error
import BoundMarkup.Text.Class
import BoundMarkup.Text.Search

/-!
# Tokens of markup

What a markup text is made of, and how one construct that starts with `<` is read. Every reader
here returns the rest of the text behind the construct, which is the end of the text by
`suffix_of_construct`. What a construct may be and where its parts stand is said once, in
`construct_cases` and a lemma for each reader.
-/

namespace BoundMarkup.Markup

open Text

/-- The forms of a tag that stands for an element. -/
inductive TagForm where
  /-- A start tag, `<name>`. -/
  | opening
  /-- A start tag that says of itself that nothing follows, `<name/>`. -/
  | childless
  /-- A start tag together with the raw text behind it and its end tag. -/
  | raw (content : List Char)
deriving DecidableEq, Repr

/-- A token of markup. -/
inductive Token where
  /-- A character of text. -/
  | character (c : Char)
  /-- A reference, `&name;`. -/
  | reference (name : List Char)
  /-- Text that is taken literally, `<![CDATA[text]]>`. -/
  | literal (text : List Char)
  /-- A tag with what it holds between its angle brackets, without a slash at the end. -/
  | tag (form : TagForm) (content : List Char)
  /-- An end tag, `</name>`. -/
  | closing (name : List Char)
  /-- A comment. -/
  | comment (text : List Char)
  /-- A document type declaration. -/
  | doctype (text : List Char)
  /-- A processing instruction. -/
  | instruction (text : List Char)
deriving DecidableEq, Repr

/-- What is read from the front of a text, with the rest behind it. -/
abbrev Construct := Except MarkupError (Token × List Char)

/-- White space inside tags: space, tab, carriage return and line feed. -/
def isTagSpace (c : Char) : Bool := c == ' ' || c == '\t' || c == '\r' || c == '\n'

/-- The text without tag spaces at its end. -/
def trimTagEnd (s : List Char) : List Char := (s.reverse.dropWhile isTagSpace).reverse

/-- The quotation mark that is open behind `c`, if `quote` is the one open in front of it. -/
def quoteAfter (quote : Option Char) (c : Char) : Option Char :=
  match quote with
  | none => if c = '"' ∨ c = '\'' then some c else none
  | some q => if c = q then none else quote

/-! ### Tags -/

/-- The parts before and after the `>` that ends a tag. Inside quotes a `>` ends nothing;
`quote` is the open quotation mark. -/
def tagText (quote : Option Char) : List Char → Except MarkupError (List Char × List Char)
  | [] => .error (quote.elim .openTag .openValue)
  | c :: s =>
    if quote = none ∧ c = '>' then .ok ([], s)
    else (tagText (quoteAfter quote c) s).map fun r => (c :: r.1, r.2)

/-- The tag that stands between two angle brackets. -/
def tagOf (content : List Char) : Token :=
  match content.reverse with
  | '/' :: r => .tag .childless r.reverse
  | _ => .tag .opening content

/-! ### Declarations and instructions -/

/-- Where a scan of a document type declaration stands. -/
inductive DoctypePlace where
  /-- Outside the internal subset; `quote` is the open quotation mark. -/
  | outer (quote : Option Char)
  /-- Inside the internal subset, between declarations. -/
  | subset
  /-- In a declaration of the internal subset that may hold quoted text; `quote` is the open
  quotation mark. -/
  | declaration (quote : Option Char)
  /-- In any other markup of the internal subset. Quotation marks have no meaning in it. -/
  | unquoted
  /-- In a comment of the internal subset; `lead` characters of its beginning are to come. -/
  | comment (lead : Nat)
  /-- In a processing instruction of the internal subset; `lead` characters of its beginning are
  to come. -/
  | instruction (lead : Nat)
  /-- Behind the internal subset. -/
  | behind
deriving DecidableEq, Repr

namespace DoctypePlace

/-- Whether a `>` at this place ends the declaration. -/
def mayEnd : DoctypePlace → Bool
  | outer none | behind => true
  | _ => false

/-- The keywords, in the only case they have, of the declarations that may hold quoted text. -/
def quotingKeywords : List String := ["!ENTITY", "!ATTLIST", "!NOTATION"]

/-- The place behind a `<` in the internal subset. What follows decides what it begins. -/
def ofMarkup (s : List Char) : DoctypePlace :=
  if (past? "!--".toList s).isSome then comment 3
  else if s.head? = some '?' then instruction 1
  else if quotingKeywords.any fun k => (past? k.toList s).isSome then declaration none
  else unquoted

/-- The place behind the first character of a text. -/
def next (place : DoctypePlace) (c : Char) (s : List Char) : DoctypePlace :=
  match place with
  | outer quote => if quote = none ∧ c = '[' then subset else outer (quoteAfter quote c)
  | subset => if c = ']' then behind else if c = '<' then ofMarkup s else subset
  | declaration quote =>
    if quote = none ∧ c = '>' then subset else declaration (quoteAfter quote c)
  | unquoted => if c = '>' then subset else unquoted
  | comment (lead + 1) => comment lead
  | comment 0 => if (past? "-->".toList (c :: s)).isSome then subset else comment 0
  | instruction (lead + 1) => instruction lead
  | instruction 0 => if (past? "?>".toList (c :: s)).isSome then subset else instruction 0
  | behind => behind

end DoctypePlace

/-- The parts before and after the `>` that ends a document type declaration. -/
def doctypeText (place : DoctypePlace) : List Char → Option (List Char × List Char)
  | [] => none
  | c :: s =>
    if place.mayEnd ∧ c = '>' then some ([], s)
    else (doctypeText (place.next c s) s).map fun r => (c :: r.1, r.2)

/-- Reads a document type declaration behind `<!`. -/
def doctype (s : List Char) : Construct :=
  match doctypeText (.outer none) s with
  | none => .error .openDoctype
  | some (text, rest) =>
    if lower (text.take 7) = "doctype".toList then
      match (text.drop 7).dropWhile isTagSpace with
      | [] => .error .unnamedDoctype
      | content => .ok (.doctype (trim content), rest)
    else .error .openDoctype

/-- Reads what stands between `opening` and the next `closing`. -/
def enclosed (opening closing : String) (token : List Char → Token) (missing : MarkupError)
    (s : List Char) : Construct :=
  match past? opening.toList s with
  | none => .error missing
  | some s =>
    match cutAt closing.toList s with
    | none => .error missing
    | some (text, rest) => .ok (token text, rest)

/-- Reads a declaration behind `<!`. Its first character decides which it has to be. -/
def declaration (s : List Char) : Construct :=
  match s.head? with
  | some '-' => enclosed "--" "-->" .comment .openComment s
  | some '[' => enclosed "[CDATA[" "]]>" .literal .openLiteral s
  | some 'D' | some 'd' => doctype s
  | _ => .error .unknownDeclaration

/-- Whether a text that begins with a question mark begins an XML declaration. -/
def beginsXmlDeclaration (s : List Char) : Bool :=
  match past? "?xml".toList s with
  | none => false
  | some [] => true
  | some (c :: _) => isTagSpace c || c == '?'

/-- Reads a processing instruction behind `<`. The question mark that begins it may also end it,
but then it is empty and refused. -/
def instruction (s : List Char) : Construct :=
  match cutAt "?>".toList s with
  | none => .error (if beginsXmlDeclaration s then .openXmlDeclaration else .openInstruction)
  | some ([], _) => .error .openInstruction
  | some (_ :: text, rest) => .ok (.instruction text, rest)

/-- Reads the construct that begins with `<`, from the character behind it on. -/
def construct (s : List Char) : Construct :=
  match s with
  | '!' :: s => declaration s
  | '?' :: _ => instruction s
  | '/' :: s => (tagText none s).map fun r => (.closing (lower (trimTagEnd r.1)), r.2)
  | _ => (tagText none s).map fun r => (tagOf r.1, r.2)

/-! ### Nothing is lost -/

theorem append_of_tagText {quote : Option Char} {s text rest : List Char}
    (h : tagText quote s = .ok (text, rest)) : s = text ++ '>' :: rest := by
  induction s generalizing quote text with
  | nil => simp [tagText] at h
  | cons c s ih =>
    rw [tagText] at h
    split at h
    · next hc =>
      cases h
      simp [hc.2]
    · cases ht : tagText (quoteAfter quote c) s with
      | error e => simp [ht, Except.map] at h
      | ok r =>
        rw [ht] at h
        cases h
        simpa using ih ht

theorem append_of_doctypeText {place : DoctypePlace} {s text rest : List Char}
    (h : doctypeText place s = some (text, rest)) : s = text ++ '>' :: rest := by
  induction s generalizing place text with
  | nil => simp [doctypeText] at h
  | cons c s ih =>
    rw [doctypeText] at h
    split at h
    · next hc =>
      cases h
      simp [hc.2]
    · obtain ⟨⟨t, r⟩, ht, he⟩ := Option.map_eq_some_iff.mp h
      cases he
      simpa using ih ht

/-! ### What a construct may be -/

/-- What is read between two marks stands behind the first and in front of the next other one. -/
theorem exists_of_enclosed {opening closing : String} {token : List Char → Token}
    {e : MarkupError} {s rest : List Char} {t : Token}
    (h : enclosed opening closing token e s = .ok (t, rest)) :
    ∃ inner text, s = opening.toList ++ inner ∧
      cutAt closing.toList inner = some (text, rest) ∧ t = token text := by
  rw [enclosed] at h
  split at h
  · cases h
  · next inner hinner =>
    split at h
    · cases h
    · next text behind hcut =>
      cases h
      exact ⟨inner, text, past?_eq_some_iff.mp hinner, hcut, rfl⟩

/-- A document type declaration stands behind its keyword, and blanks around it do not belong to
it. -/
theorem exists_of_doctype {s rest : List Char} {t : Token} (h : doctype s = .ok (t, rest)) :
    ∃ text, doctypeText (.outer none) s = some (text, rest) ∧
      lower (text.take 7) = "doctype".toList ∧
      t = .doctype (trim ((text.drop 7).dropWhile isTagSpace)) := by
  rw [doctype] at h
  split at h
  · cases h
  · next text behind htext =>
    split at h
    · next hkeyword =>
      split at h
      · cases h
      · cases h
        exact ⟨text, htext, hkeyword, rfl⟩
    · cases h

/-- A declaration is a comment, literal text or a document type declaration. -/
theorem declaration_cases {s rest : List Char} {t : Token} (h : declaration s = .ok (t, rest)) :
    enclosed "--" "-->" .comment .openComment s = .ok (t, rest) ∨
      enclosed "[CDATA[" "]]>" .literal .openLiteral s = .ok (t, rest) ∨
      doctype s = .ok (t, rest) := by
  rw [declaration] at h
  split at h
  · exact .inl h
  · exact .inr (.inl h)
  · exact .inr (.inr h)
  · exact .inr (.inr h)
  · cases h

/-- A processing instruction stands in front of the next end mark. -/
theorem exists_of_instruction {s rest : List Char} {t : Token}
    (h : instruction s = .ok (t, rest)) :
    ∃ c text, cutAt "?>".toList s = some (c :: text, rest) ∧ t = .instruction text := by
  rw [instruction] at h
  split at h
  · cases h
  · cases h
  · next c text behind hcut =>
    cases h
    exact ⟨c, text, hcut, rfl⟩

/-- A tag of any kind is what stands in front of its closing bracket. -/
theorem exists_of_map_tagText {f : List Char → Token} {s rest : List Char} {t : Token}
    (h : ((tagText none s).map fun r => (f r.1, r.2)) = .ok (t, rest)) :
    ∃ text, s = text ++ '>' :: rest ∧ t = f text := by
  cases htext : tagText none s with
  | error e =>
    rw [htext] at h
    cases h
  | ok r =>
    obtain ⟨text, behind⟩ := r
    rw [htext] at h
    cases h
    exact ⟨text, append_of_tagText htext, rfl⟩

/-- What a construct may be: a declaration, a processing instruction, an end tag or a start tag. -/
theorem construct_cases {s rest : List Char} {t : Token} (h : construct s = .ok (t, rest)) :
    (∃ u, s = '!' :: u ∧ declaration u = .ok (t, rest)) ∨
      instruction s = .ok (t, rest) ∨
      (∃ text, s = '/' :: (text ++ '>' :: rest) ∧ t = .closing (lower (trimTagEnd text))) ∨
      ∃ text, s = text ++ '>' :: rest ∧ t = tagOf text := by
  -- The cases are those of the first character, and each has its own reader.
  rw [construct.eq_def] at h
  split at h
  · next u => exact .inl ⟨u, rfl, h⟩
  · exact .inr (.inl h)
  · obtain ⟨text, rfl, ht⟩ :=
      exists_of_map_tagText (f := fun text => .closing (lower (trimTagEnd text))) h
    exact .inr (.inr (.inl ⟨text, rfl, ht⟩))
  · exact .inr (.inr (.inr (exists_of_map_tagText h)))

/-- A tag is a start tag unless it says that nothing follows. -/
theorem tagOf_eq_or (content : List Char) :
    tagOf content = .tag .opening content ∨ ∃ text, tagOf content = .tag .childless text := by
  unfold tagOf
  split
  · exact .inr ⟨_, rfl⟩
  · exact .inl rfl

/-- A start tag is what stands in front of its closing bracket. -/
theorem append_of_construct_opening {s content rest : List Char}
    (h : construct s = .ok (.tag .opening content, rest)) : s = content ++ '>' :: rest := by
  obtain ⟨u, -, hu⟩ | hu | ⟨text, -, ht⟩ | ⟨text, rfl, ht⟩ := construct_cases h
  · -- No declaration is a tag.
    obtain hu | hu | hu := declaration_cases hu
    · obtain ⟨_, _, -, -, ht⟩ := exists_of_enclosed hu
      cases ht
    · obtain ⟨_, _, -, -, ht⟩ := exists_of_enclosed hu
      cases ht
    · obtain ⟨_, -, -, ht⟩ := exists_of_doctype hu
      cases ht
  · obtain ⟨_, _, -, ht⟩ := exists_of_instruction hu
    cases ht
  · cases ht
  · -- A tag that says that nothing follows has another form.
    obtain htag | ⟨_, htag⟩ := tagOf_eq_or text
    · rw [htag] at ht
      cases ht
      rfl
    · rw [htag] at ht
      cases ht

/-! ### What stands behind a construct -/

theorem suffix_of_enclosed {opening closing : String} {token : List Char → Token}
    {e : MarkupError} {s rest : List Char} {t : Token}
    (h : enclosed opening closing token e s = .ok (t, rest)) : rest <:+ s := by
  obtain ⟨inner, text, rfl, hcut, -⟩ := exists_of_enclosed h
  rw [append_of_cutAt hcut]
  exact (List.suffix_append _ _).trans (List.suffix_append _ _)

theorem suffix_of_declaration {s rest : List Char} {t : Token}
    (h : declaration s = .ok (t, rest)) : rest <:+ s := by
  obtain h | h | h := declaration_cases h
  · exact suffix_of_enclosed h
  · exact suffix_of_enclosed h
  · obtain ⟨text, htext, -, -⟩ := exists_of_doctype h
    rw [append_of_doctypeText htext]
    exact (List.suffix_cons _ _).trans (List.suffix_append _ _)

/-- What stands behind a construct is the end of what stands behind its `<`. -/
theorem suffix_of_construct {s rest : List Char} {t : Token}
    (h : construct s = .ok (t, rest)) : rest <:+ s := by
  have htag (text : List Char) : rest <:+ text ++ '>' :: rest :=
    (List.suffix_cons _ _).trans (List.suffix_append _ _)
  obtain ⟨u, rfl, hu⟩ | hu | ⟨text, rfl, -⟩ | ⟨text, rfl, -⟩ := construct_cases h
  · exact (suffix_of_declaration hu).trans (List.suffix_cons _ _)
  · obtain ⟨c, text, hcut, -⟩ := exists_of_instruction hu
    rw [append_of_cutAt hcut]
    exact List.suffix_append _ _
  · exact (htag text).trans (List.suffix_cons _ _)
  · exact htag text

/-- What stands behind a construct is no longer than what stands behind its `<`. -/
theorem length_of_construct {s rest : List Char} {t : Token}
    (h : construct s = .ok (t, rest)) : rest.length ≤ s.length :=
  (suffix_of_construct h).length_le

end BoundMarkup.Markup
