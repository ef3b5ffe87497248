import BoundMarkup.Markup.TagText

/-!
# Reading markup into tokens

A text is read token by token until it ends or a construct in it has no end. The content of a
raw-text element is cut out by its end tag alone, and what follows is read as a text of its own.

A byte-order mark at the front of a text belongs to no token. It is passed over without being
counted, so if a raw-text element comes next, its content begins that many bytes early, inside
its start tag.
-/

namespace BoundMarkup.Markup

open Text

/-- The tokens of a text, with how they end. -/
inductive Reading where
  /-- The text is at its end. -/
  | done
  /-- The text cannot be read further. -/
  | failed (error : MarkupError)
  /-- A token is read, and then the rest. -/
  | next (token : Token) (rest : Reading)
deriving Repr

namespace Reading

/-- The tokens up to the end or up to where reading fails. -/
def tokens : Reading → List Token
  | next token rest => token :: rest.tokens
  | _ => []

/-- Why the text cannot be read, if it cannot. -/
def error? : Reading → Option MarkupError
  | done => none
  | failed e => some e
  | next _ rest => rest.error?

end Reading

/-- The byte-order mark. -/
def byteOrderMark : Char := '\ufeff'

/-- The text without a byte-order mark in front, and whether there was one. -/
def passMark : List Char → Bool × List Char
  | [] => (false, [])
  | c :: s => if c = byteOrderMark then (true, s) else (false, c :: s)

/-- The parts before and after the first occurrence of `mark`, whatever the case of its
letters. -/
def cutCaseless (mark : List Char) : List Char → Option (List Char × List Char)
  | [] => none
  | c :: s =>
    if lower ((c :: s).take mark.length) = lower mark then
      some ([], (c :: s).drop mark.length)
    else (cutCaseless mark s).map fun r => (c :: r.1, r.2)

/-- The content of a raw-text element and what follows its end tag. Without an end tag all is
content. -/
def rawContent (name : String) (s : List Char) : List Char × List Char :=
  match cutCaseless ('<' :: '/' :: name.toList) s with
  | none => (s, [])
  | some (content, rest) => (content, (rest.dropWhile (· ≠ '>')).drop 1)

/-- The last characters of a text that have `size` bytes together. A size that ends inside a
character has none. -/
def lastBytes? (size : Nat) (s : List Char) : Option (List Char) :=
  go size s.reverse []
where
  /-- Moves characters from a reversed text to the front of `taken`. -/
  go : Nat → List Char → List Char → Option (List Char)
    | 0, _, taken => some taken
    | _ + 1, [], _ => none
    | size + 1, c :: s, taken =>
      if c.utf8Size ≤ size + 1 then go (size + 1 - c.utf8Size) s (c :: taken) else none

/-- The text in which the content of a raw-text element is sought: what stands behind its start
tag, and if a byte-order mark was passed over, the last bytes of the start tag too. If these do
not begin between characters, all is lost. -/
def rawSource (marked : Bool) (content rest : List Char) : List Char :=
  if marked then
    match lastBytes? byteOrderMark.utf8Size (content ++ ['>']) with
    | some lead => lead ++ rest
    | none => []
  else rest

/-- For the text behind an ampersand: the name of the reference that it begins with, and the
rest behind the semicolon. -/
def referenceName? : List Char → Option (List Char × List Char)
  | [] => none
  | c :: s =>
    if c = ';' then some ([], s)
    else if c = '&' ∨ c = '<' then none
    else (referenceName? s).map fun r => (c :: r.1, r.2)

/-! ### Reading makes progress -/

theorem suffix_passMark (s : List Char) : (passMark s).2 <:+ s := by
  cases s with
  | nil => simp [passMark]
  | cons c s =>
    by_cases h : c = byteOrderMark
    · simp [passMark, h]
    · simp [passMark, h]

theorem suffix_of_cutCaseless {mark s before rest : List Char}
    (h : cutCaseless mark s = some (before, rest)) : rest <:+ s := by
  induction s generalizing before with
  | nil => simp [cutCaseless] at h
  | cons c s ih =>
    rw [cutCaseless] at h
    split at h
    · cases h
      exact List.drop_suffix _ _
    · obtain ⟨⟨b, r⟩, hb, he⟩ := Option.map_eq_some_iff.mp h
      cases he
      exact (ih hb).trans (List.suffix_cons _ _)

theorem suffix_rawContent (name : String) (s : List Char) : (rawContent name s).2 <:+ s := by
  rw [rawContent]
  split
  · exact List.nil_suffix
  · next content rest h =>
    exact ((List.drop_suffix _ _).trans (List.dropWhile_suffix _)).trans (suffix_of_cutCaseless h)

/-- An end of a text that has a byte at least ends in the last character of the text. -/
theorem suffix_concat_and_byteSize_iff {size : Nat} {s lead : List Char} {c : Char} :
    (lead <:+ s ++ [c] ∧ byteSize lead = size + 1) ↔
      ∃ l, lead = l ++ [c] ∧ l <:+ s ∧ byteSize l + c.utf8Size = size + 1 := by
  have hsize (l : List Char) : byteSize (l ++ [c]) = byteSize l + c.utf8Size := by
    rw [byteSize_append, byteSize_cons, byteSize_nil, Nat.add_zero]
  constructor
  · rintro ⟨hsuffix, hlead⟩
    rcases List.suffix_concat_iff.mp hsuffix with rfl | ⟨l, rfl, hl⟩
    · cases hlead
    · exact ⟨l, rfl, hl, (hsize l).symm.trans hlead⟩
  · rintro ⟨l, rfl, hl, hlead⟩
    exact ⟨List.suffix_append_self_iff.mpr hl, (hsize l).trans hlead⟩

/-- The characters that are moved to the front of a text are those at the end of the other that have
the given size together. -/
private theorem lastBytes?_go_eq_some_iff {size : Nat} {s taken lead : List Char} :
    lastBytes?.go size s taken = some lead ↔
      ∃ l, lead = l ++ taken ∧ l <:+ s.reverse ∧ byteSize l = size := by
  fun_induction lastBytes?.go size s taken with
  | case1 s taken =>
    constructor
    · intro h
      cases h
      exact ⟨[], rfl, List.nil_suffix, rfl⟩
    · rintro ⟨l, rfl, -, hsize⟩
      cases l with
      | nil => rfl
      | cons c l =>
        have hpos := c.utf8Size_pos
        rw [byteSize_cons] at hsize
        omega
  | case2 size taken =>
    refine iff_of_false nofun ?_
    rintro ⟨l, -, hsuffix, hsize⟩
    rw [List.reverse_nil, List.suffix_nil] at hsuffix
    subst hsuffix
    cases hsize
  | case3 size c s taken hfits ih =>
    -- The character fits, so it stands between what is still to come and what was taken.
    rw [ih, List.reverse_cons]
    constructor
    · rintro ⟨l, rfl, hsuffix, hsize⟩
      exact ⟨l ++ [c], List.append_cons l c taken,
        suffix_concat_and_byteSize_iff.mpr ⟨l, rfl, hsuffix, by omega⟩⟩
    · rintro ⟨l, rfl, hl⟩
      obtain ⟨l, rfl, hsuffix, hsize⟩ := suffix_concat_and_byteSize_iff.mp hl
      exact ⟨l, (List.append_cons l c taken).symm, hsuffix, by omega⟩
  | case4 size c s taken hfits =>
    -- The size ends inside the character, while every end of the text has all of it.
    refine iff_of_false nofun ?_
    rintro ⟨l, -, hl⟩
    rw [List.reverse_cons] at hl
    obtain ⟨l, -, -, hsize⟩ := suffix_concat_and_byteSize_iff.mp hl
    omega

/-- The last bytes of a text are the characters at its end that have this size together. -/
theorem lastBytes?_eq_some_iff {size : Nat} {s lead : List Char} :
    lastBytes? size s = some lead ↔ lead <:+ s ∧ byteSize lead = size := by
  simp [lastBytes?, lastBytes?_go_eq_some_iff]

theorem suffix_rawSource (marked : Bool) (content rest : List Char) :
    rawSource marked content rest <:+ content ++ '>' :: rest := by
  rw [rawSource]
  split
  · split
    · next lead h =>
      have hlead : lead ++ rest <:+ content ++ ['>'] ++ rest :=
        List.suffix_append_self_iff.mpr (lastBytes?_eq_some_iff.mp h).1
      rwa [List.append_assoc] at hlead
    · exact List.nil_suffix
  · exact (List.suffix_cons _ _).trans (List.suffix_append _ _)

theorem append_of_referenceName? {s name rest : List Char}
    (h : referenceName? s = some (name, rest)) : s = name ++ ';' :: rest := by
  induction s generalizing name with
  | nil => simp [referenceName?] at h
  | cons c s ih =>
    rw [referenceName?] at h
    split at h
    · next hc =>
      cases h
      simp [hc]
    · split at h
      · cases h
      · obtain ⟨⟨n, r⟩, hn, he⟩ := Option.map_eq_some_iff.mp h
        cases he
        simp [ih hn]

/-- What stands between the angle brackets, if a token is the start tag of a raw-text element. -/
def rawTextTag? : Token → Option (List Char)
  | .tag .opening content => if isRawText (tagName content) then some content else none
  | _ => none

/-- The content of the raw-text element whose start tag was read, and what follows its end tag. -/
def rawElement (marked : Bool) (content rest : List Char) : List Char × List Char :=
  rawContent (tagName content) (rawSource marked content rest)

theorem suffix_rawElement (marked : Bool) (content rest : List Char) :
    (rawElement marked content rest).2 <:+ content ++ '>' :: rest :=
  (suffix_rawContent _ _).trans (suffix_rawSource _ _ _)

theorem rawTextTag?_eq_some_iff {token : Token} {content : List Char} :
    rawTextTag? token = some content ↔
      token = .tag .opening content ∧ isRawText (tagName content) = true := by
  constructor
  · intro h
    unfold rawTextTag? at h
    split at h
    · split at h
      · next hname =>
        cases h
        exact ⟨rfl, hname⟩
      · cases h
    · cases h
  · rintro ⟨rfl, hname⟩
    rw [rawTextTag?, if_pos hname]

theorem append_of_rawTextTag? {s rest content : List Char} {token : Token}
    (h : construct s = .ok (token, rest)) (hc : rawTextTag? token = some content) :
    s = content ++ '>' :: rest := by
  obtain ⟨rfl, -⟩ := rawTextTag?_eq_some_iff.mp hc
  exact append_of_construct_opening h

theorem length_of_rawTextTag? {s rest content : List Char} {token : Token} (marked : Bool)
    (h : construct s = .ok (token, rest)) (hc : rawTextTag? token = some content) :
    (passMark (rawElement marked content rest).2).2.length ≤ s.length := by
  rw [append_of_rawTextTag? h hc]
  exact ((suffix_passMark _).trans (suffix_rawElement _ _ _)).length_le

/-- Reads a text. `marked` says whether a byte-order mark was passed over at its front and no
raw-text element has come since. -/
def readFrom (marked : Bool) (s : List Char) : Reading :=
  match s with
  | [] => .done
  | '<' :: s =>
    match _h : construct s with
    | .error e => .failed e
    | .ok (token, rest) =>
      match _hc : rawTextTag? token with
      | some content =>
        .next (.tag (.raw (rawElement marked content rest).1) content)
          (readFrom (passMark (rawElement marked content rest).2).1
            (passMark (rawElement marked content rest).2).2)
      | none => .next token (readFrom marked rest)
  | '&' :: s =>
    match _h : referenceName? s with
    | some (name, rest) => .next (.reference name) (readFrom marked rest)
    | none => .next (.character '&') (readFrom marked s)
  | c :: s => .next (.character c) (readFrom marked s)
termination_by s.length
decreasing_by
  · exact Nat.lt_succ_of_le (length_of_rawTextTag? _ _h _hc)
  · exact Nat.lt_succ_of_le (length_of_construct _h)
  · simp [append_of_referenceName? _h]
    omega
  · simp
  · simp

/-- Reads a text from its front on. -/
def read (s : List Char) : Reading := readFrom (passMark s).1 (passMark s).2

end BoundMarkup.Markup
