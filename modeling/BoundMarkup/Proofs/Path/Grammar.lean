import BoundMarkup.Path.Basic
import BoundMarkup.Proofs.Text.Lemmas

/-!
# The grammar of paths

A path is an identifier with any number of steps behind it, each of them an identifier behind a
point or a number in brackets. A text is checked against this form from one end to the other, and
then its steps are picked out from left to right, wherever the next one stands. That both readings
agree rests on what may follow a step: nothing, a point or a bracket. None of these continues an
identifier, so an identifier is never cut short or run on, and a point is the only thing that is
passed over between two steps.

## Main definitions

* `Path.Continues`, `Path.Derives`: a text is derived in the grammar, with these steps;
* `Path.IsBounded`: all numbers among the steps fit into 64 bits;
* `Path.render`: steps as the text of a path.

## Main results

* `isValid_iff`: the texts that pass the check are those with a derivation;
* `stepsIn_of_derives`: what is picked out of such a text are the steps of its derivation;
* `derives_render`: a rendering is derived, with the steps that were rendered;
* `parse_iff_derives`: what is read of a text, for every text, and that renderings are read back.
-/

namespace BoundMarkup

open Number Text

namespace Path

/-! ### The grammar -/

/-- An identifier begins with a letter of ASCII, an underscore or a dollar sign. -/
def IsInitial (c : Char) : Prop :=
  ('A' ≤ c ∧ c ≤ 'Z') ∨ ('a' ≤ c ∧ c ≤ 'z') ∨ c = '_' ∨ c = '$'

/-- The decimal digits. -/
def IsDecimal (c : Char) : Prop := '0' ≤ c ∧ c ≤ '9'

/-- Identifiers: an initial character, and then such characters and digits. -/
inductive IsIdentifier : List Char → Prop
  | cons {c : Char} {s : List Char} (hinitial : IsInitial c)
      (hrest : ∀ d ∈ s, IsInitial d ∨ IsDecimal d) : IsIdentifier (c :: s)

/-- Numbers: one digit or more, with or without zeros in front. -/
structure IsNumeral (s : List Char) : Prop where
  /-- There is a digit. -/
  ne_nil : s ≠ []
  /-- There is nothing else. -/
  isDecimal : ∀ d ∈ s, IsDecimal d

/-- A text consists of these steps, each with its point or its brackets. -/
inductive Continues : List Char → List Segment → Prop
  | nil : Continues [] []
  | key {name rest : List Char} {steps : List Segment} (hname : IsIdentifier name)
      (hrest : Continues rest steps) :
      Continues ('.' :: (name ++ rest)) (.key (String.ofList name) :: steps)
  | index {digits rest : List Char} {steps : List Segment} (hdigits : IsNumeral digits)
      (hrest : Continues rest steps) :
      Continues ('[' :: (digits ++ ']' :: rest)) (.index (Nat.ofDigitChars 10 digits 0) :: steps)

/-- A text is a path of these steps, the first of them an identifier. -/
inductive Derives : List Char → List Segment → Prop
  | key {name rest : List Char} {steps : List Segment} (hname : IsIdentifier name)
      (hrest : Continues rest steps) :
      Derives (name ++ rest) (.key (String.ofList name) :: steps)

/-- The numbers among the steps fit into 64 bits. -/
def IsBounded (steps : List Segment) : Prop := ∀ n, Segment.index n ∈ steps → n < Nat.pow 2 64

variable {s rest name digits : List Char} {segment : Segment} {steps : List Segment}

/-! ### Characters -/

theorem isKeyStart_iff {c : Char} : isKeyStart c = true ↔ IsInitial c := by
  simp only [isKeyStart, isLetter, isLowerAscii, IsInitial, Bool.or_eq_true, Bool.and_eq_true,
    decide_eq_true_eq, beq_iff_eq]
  rw [or_assoc, or_assoc, or_left_comm]

theorem isDigit_iff {c : Char} : isDigit c = true ↔ IsDecimal c := by
  simp [isDigit, IsDecimal]

theorem isKeyChar_iff {c : Char} : isKeyChar c = true ↔ IsInitial c ∨ IsDecimal c := by
  rw [isKeyChar, Bool.or_eq_true, isKeyStart_iff, isDigit_iff]

/-- What continues a path does not continue an identifier. -/
theorem Continues.isKeyChar_head? (h : Continues s steps) : ∀ c ∈ s.head?, isKeyChar c = false := by
  intro c hc
  cases h with
  | nil => cases hc
  | key hname hrest =>
    cases hc
    decide
  | index hdigits hrest =>
    cases hc
    decide

/-- The characters that occur in paths. -/
def IsPathChar (c : Char) : Prop :=
  isKeyChar c = true ∨ c = '.' ∨ c = '[' ∨ c = ']'

theorem IsIdentifier.isKeyChar {c : Char} (h : IsIdentifier name) (hc : c ∈ name) :
    isKeyChar c = true := by
  obtain ⟨hinitial, hrest⟩ := h
  rcases List.mem_cons.mp hc with rfl | hc
  · exact isKeyChar_iff.mpr (.inl hinitial)
  · exact isKeyChar_iff.mpr (hrest c hc)

theorem Continues.isPathChar {c : Char} (h : Continues s steps) (hc : c ∈ s) : IsPathChar c := by
  induction h with
  | nil => cases hc
  | key hname hrest ih =>
    rcases List.mem_cons.mp hc with rfl | hc
    · exact .inr (.inl rfl)
    · rcases List.mem_append.mp hc with hc | hc
      · exact .inl (hname.isKeyChar hc)
      · exact ih hc
  | index hdigits hrest ih =>
    rcases List.mem_cons.mp hc with rfl | hc
    · exact .inr (.inr (.inl rfl))
    · rcases List.mem_append.mp hc with hc | hc
      · exact .inl (isKeyChar_iff.mpr (.inr (hdigits.isDecimal c hc)))
      · rcases List.mem_cons.mp hc with rfl | hc
        · exact .inr (.inr (.inr rfl))
        · exact ih hc

theorem Derives.isPathChar {c : Char} (h : Derives s steps) (hc : c ∈ s) : IsPathChar c := by
  obtain ⟨hname, hrest⟩ := h
  rcases List.mem_append.mp hc with hc | hc
  · exact .inl (hname.isKeyChar hc)
  · exact hrest.isPathChar hc

/-! ### Single steps -/

/-- An identifier is read up to where no character continues it. -/
theorem key?_append (hname : IsIdentifier name) (hrest : ∀ c ∈ rest.head?, isKeyChar c = false) :
    key? (name ++ rest) = some (.key (String.ofList name), rest) := by
  obtain ⟨hinitial, htail⟩ := hname
  obtain ⟨htake, hdrop⟩ := span_append (fun d hd => isKeyChar_iff.mpr (htail d hd)) hrest
  rw [List.cons_append, key?, if_pos (isKeyStart_iff.mpr hinitial), htake, hdrop]

/-- A number is read up to its closing bracket. -/
theorem index?_append (hdigits : IsNumeral digits) (rest : List Char) :
    index? (digits ++ ']' :: rest) = some (.index (Nat.ofDigitChars 10 digits 0), rest) := by
  have hbracket : ∀ c ∈ (']' :: rest).head?, isDigit c = false := by
    intro c hc
    cases hc
    decide
  obtain ⟨htake, hdrop⟩ :=
    span_append (fun d hd => isDigit_iff.mpr (hdigits.isDecimal d hd)) hbracket
  have hne : digits.isEmpty = false := List.isEmpty_eq_false_iff.mpr hdigits.ne_nil
  simp only [index?, htake, hdrop, hne]
  rfl

theorem exists_of_key? (h : key? s = some (segment, rest)) :
    ∃ name, IsIdentifier name ∧ s = name ++ rest ∧ segment = .key (String.ofList name) := by
  cases s with
  | nil => cases h
  | cons c t =>
    rw [key?] at h
    split at h
    · next hc =>
      cases h
      refine ⟨c :: t.takeWhile isKeyChar, .cons (isKeyStart_iff.mp hc) ?_, ?_, rfl⟩
      · intro d hd
        exact isKeyChar_iff.mp (List.all_eq_true.mp List.all_takeWhile d hd)
      · rw [List.cons_append, List.takeWhile_append_dropWhile]
    · cases h

theorem exists_of_index? (h : index? s = some (segment, rest)) :
    ∃ digits, IsNumeral digits ∧ s = digits ++ ']' :: rest ∧
      segment = .index (Nat.ofDigitChars 10 digits 0) := by
  rw [index?] at h
  split at h
  · next t ht =>
    split at h
    · cases h
    · next hne =>
      cases h
      refine ⟨s.takeWhile isDigit, ⟨?_, ?_⟩, ?_, rfl⟩
      · intro hnil
        exact hne (List.isEmpty_iff.mpr hnil)
      · intro d hd
        exact isDigit_iff.mp (List.all_eq_true.mp List.all_takeWhile d hd)
      · rw [← ht, List.takeWhile_append_dropWhile]
  · cases h

/-- A step that is read in front of what continues a path continues it, too. -/
theorem continues_of_step? (h : step? s = some (segment, rest)) (hrest : Continues rest steps) :
    Continues s (segment :: steps) := by
  rw [step?.eq_def] at h
  split at h
  · obtain ⟨name, hname, rfl, rfl⟩ := exists_of_key? h
    exact .key hname hrest
  · obtain ⟨digits, hdigits, rfl, rfl⟩ := exists_of_index? h
    exact .index hdigits hrest
  · cases h

/-! ### Checking the form -/

theorem isSteps_of_step? (h : step? s = some (segment, rest)) : isSteps s = isSteps rest := by
  cases s with
  | nil => cases h
  | cons c t =>
    rw [isSteps]
    split
    · next segment' rest' h' =>
      rw [h] at h'
      cases h'
      rfl
    · next h' =>
      rw [h] at h'
      cases h'

theorem Continues.isSteps (h : Continues s steps) : isSteps s = true := by
  induction h with
  | nil => rw [Path.isSteps]
  | @key name rest steps hname hrest ih =>
    -- What is behind the identifier does not continue it, so it ends where the derivation says.
    have hstep : step? ('.' :: (name ++ rest)) = some (.key (String.ofList name), rest) :=
      key?_append hname hrest.isKeyChar_head?
    rw [isSteps_of_step? hstep, ih]
  | @index digits rest steps hdigits hrest ih =>
    have hstep : step? ('[' :: (digits ++ ']' :: rest)) =
        some (.index (Nat.ofDigitChars 10 digits 0), rest) := index?_append hdigits rest
    rw [isSteps_of_step? hstep, ih]

theorem exists_continues_of_isSteps (h : isSteps s = true) : ∃ steps, Continues s steps := by
  fun_induction isSteps s with
  | case1 => exact ⟨[], .nil⟩
  | case2 c t segment rest hstep ih =>
    obtain ⟨steps, hrest⟩ := ih h
    exact ⟨segment :: steps, continues_of_step? hstep hrest⟩
  | case3 c t hstep => cases h

/-- The texts of the form of a path are those with a derivation. -/
theorem isValid_iff {source : String} :
    isValid source = true ↔ ∃ steps, Derives source.toList steps := by
  constructor
  · intro h
    rw [isValid] at h
    split at h
    · next segment rest hkey =>
      obtain ⟨name, hname, hsource, -⟩ := exists_of_key? hkey
      obtain ⟨steps, hrest⟩ := exists_continues_of_isSteps h
      rw [hsource]
      exact ⟨_, .key hname hrest⟩
    · cases h
  · rintro ⟨steps, h⟩
    generalize hsource : source.toList = s at h
    obtain ⟨hname, hrest⟩ := h
    rw [isValid, hsource, key?_append hname hrest.isKeyChar_head?]
    exact hrest.isSteps

/-! ### Picking out the steps -/

theorem stepsIn_of_bare? (h : bare? s = some (segment, rest)) :
    stepsIn s = segment :: stepsIn rest := by
  cases s with
  | nil => cases h
  | cons c t =>
    rw [stepsIn]
    split
    · next segment' rest' h' =>
      rw [h] at h'
      cases h'
      rfl
    · next h' =>
      rw [h] at h'
      cases h'

/-- A point is passed over. -/
theorem stepsIn_point (s : List Char) : stepsIn ('.' :: s) = stepsIn s := by
  have hnone : bare? ('.' :: s) = none := rfl
  rw [stepsIn]
  split
  · next h =>
    rw [hnone] at h
    cases h
  · rfl

/-- An identifier does not begin with a bracket, so it is taken for what it is. -/
theorem bare?_append (hname : IsIdentifier name) (hrest : ∀ c ∈ rest.head?, isKeyChar c = false) :
    bare? (name ++ rest) = some (.key (String.ofList name), rest) := by
  have hkey := key?_append hname hrest
  obtain ⟨hinitial, -⟩ := hname
  rw [bare?.eq_def]
  split
  · next t ht =>
    cases ht
    exact absurd (isKeyStart_iff.mpr hinitial) (by decide)
  · exact hkey

theorem stepsIn_of_continues (h : Continues s steps) : stepsIn s = steps := by
  induction h with
  | nil => rw [stepsIn]
  | key hname hrest ih =>
    rw [stepsIn_point, stepsIn_of_bare? (bare?_append hname hrest.isKeyChar_head?), ih]
  | @index digits rest steps hdigits hrest ih =>
    have hbare : bare? ('[' :: (digits ++ ']' :: rest)) =
        some (.index (Nat.ofDigitChars 10 digits 0), rest) := index?_append hdigits rest
    rw [stepsIn_of_bare? hbare, ih]

/-- What is picked out of a path are the steps of its derivation, so it has one derivation only. -/
theorem stepsIn_of_derives (h : Derives s steps) : stepsIn s = steps := by
  obtain ⟨hname, hrest⟩ := h
  rw [stepsIn_of_bare? (bare?_append hname hrest.isKeyChar_head?), stepsIn_of_continues hrest]

/-! ### Reading -/

theorem all_fits_iff : steps.all Segment.fits = true ↔ IsBounded steps := by
  rw [List.all_eq_true]
  constructor
  · intro h n hn
    exact of_decide_eq_true (h _ hn)
  · intro h segment hsegment
    cases segment with
    | key name => rfl
    | index n => exact decide_eq_true (h n hsegment)

theorem Derives.ne_nil (h : Derives s steps) : s ≠ [] := by
  obtain ⟨⟨_, _⟩, _⟩ := h
  exact List.cons_ne_nil _ _

/-- A text with a derivation is read as its steps if they are bounded. -/
theorem parse_of_derives {source : String} (h : Derives source.toList steps) :
    parse source =
      if steps.all Segment.fits then .ok { source, segments := steps }
      else .error (.indexOverflow source) := by
  have hempty : source.isEmpty = false := by
    rw [String.isEmpty_eq_false_iff]
    rintro rfl
    exact h.ne_nil rfl
  have hvalid : isValid source = true := isValid_iff.mpr ⟨steps, h⟩
  rw [parse, hempty, hvalid, stepsIn_of_derives h]
  rfl

/-- A text without a derivation is refused, and the empty text in its own way. -/
theorem parse_of_not_derives {source : String} (h : ¬∃ steps, Derives source.toList steps) :
    parse source = .error (if source.isEmpty then .empty else .rejected source) := by
  have hvalid : isValid source = false := Bool.eq_false_iff.mpr (mt isValid_iff.mp h)
  rw [parse, hvalid]
  split <;> rfl

/-- A text is a path with bounded numbers, a path with a number that is out of bounds, empty, or of
another form. -/
theorem parse_cases (source : String) :
    (∃ steps, Derives source.toList steps ∧ IsBounded steps ∧
        parse source = .ok { source, segments := steps }) ∨
      (∃ steps, Derives source.toList steps ∧ ¬IsBounded steps ∧
        parse source = .error (.indexOverflow source)) ∨
      (source = "" ∧ parse source = .error .empty) ∨
      ((¬∃ steps, Derives source.toList steps) ∧ source ≠ "" ∧
        parse source = .error (.rejected source)) := by
  by_cases hderives : ∃ steps, Derives source.toList steps
  · obtain ⟨steps, hsteps⟩ := hderives
    have hparse := parse_of_derives hsteps
    by_cases hfits : steps.all Segment.fits = true
    · rw [if_pos hfits] at hparse
      exact .inl ⟨steps, hsteps, all_fits_iff.mp hfits, hparse⟩
    · rw [if_neg hfits] at hparse
      exact .inr (.inl ⟨steps, hsteps, mt all_fits_iff.mpr hfits, hparse⟩)
  · by_cases hempty : source = ""
    · subst hempty
      exact .inr (.inr (.inl ⟨rfl, rfl⟩))
    · have hparse := parse_of_not_derives hderives
      rw [String.isEmpty_eq_false_iff.mpr hempty] at hparse
      exact .inr (.inr (.inr ⟨hderives, hempty, hparse⟩))

section

variable {source text : String} {path : Path}

theorem parse_eq_ok_iff : parse source = .ok path ↔
    path.source = source ∧ Derives source.toList path.segments ∧ IsBounded path.segments := by
  constructor
  · intro h
    rcases parse_cases source with ⟨steps, hsteps, hbounded, hparse⟩ | ⟨_, _, _, hparse⟩ |
      ⟨_, hparse⟩ | ⟨_, _, hparse⟩
    all_goals
      rw [hparse] at h
      cases h
    exact ⟨rfl, hsteps, hbounded⟩
  · rintro ⟨rfl, hderives, hbounded⟩
    rw [parse_of_derives hderives, if_pos (all_fits_iff.mpr hbounded)]

theorem parse_eq_indexOverflow_iff : parse source = .error (.indexOverflow text) ↔
    text = source ∧ ∃ steps, Derives source.toList steps ∧ ¬IsBounded steps := by
  constructor
  · intro h
    rcases parse_cases source with ⟨_, _, _, hparse⟩ | ⟨steps, hsteps, hbounded, hparse⟩ |
      ⟨_, hparse⟩ | ⟨_, _, hparse⟩
    all_goals
      rw [hparse] at h
      cases h
    exact ⟨rfl, steps, hsteps, hbounded⟩
  · rintro ⟨rfl, steps, hderives, hbounded⟩
    rw [parse_of_derives hderives, if_neg (mt all_fits_iff.mp hbounded)]

theorem parse_eq_empty_iff : parse source = .error .empty ↔ source = "" := by
  constructor
  · intro h
    rcases parse_cases source with ⟨_, _, _, hparse⟩ | ⟨_, _, _, hparse⟩ | ⟨hempty, hparse⟩ |
      ⟨_, _, hparse⟩
    all_goals
      rw [hparse] at h
      cases h
    exact hempty
  · rintro rfl
    rfl

theorem parse_eq_rejected_iff : parse source = .error (.rejected text) ↔
    text = source ∧ source ≠ "" ∧ ¬∃ steps, Derives source.toList steps := by
  constructor
  · intro h
    rcases parse_cases source with ⟨_, _, _, hparse⟩ | ⟨_, _, _, hparse⟩ | ⟨_, hparse⟩ |
      ⟨hderives, hempty, hparse⟩
    all_goals
      rw [hparse] at h
      cases h
    exact ⟨rfl, hempty, hderives⟩
  · rintro ⟨rfl, hempty, hderives⟩
    rw [parse_of_not_derives hderives, String.isEmpty_eq_false_iff.mpr hempty]
    rfl

end

/-! ### Rendering -/

/-- A step as it stands behind another one. -/
def continued : Segment → List Char
  | .key name => '.' :: (Segment.key name).display.toList
  | .index n => (Segment.index n).display.toList

/-- Steps as a text: keys behind points, except for the first, and indices in brackets. -/
def render : List Segment → String
  | [] => ""
  | first :: rest => String.ofList (first.display.toList ++ rest.flatMap continued)

/-- The digits of a number are a numeral, and it is the number that they stand for. -/
theorem isNumeral_natDigits (n : Nat) :
    IsNumeral (natDigits n) ∧ Nat.ofDigitChars 10 (natDigits n) 0 = n := by
  refine ⟨⟨Nat.toDigits_ne_nil, ?_⟩, Nat.ofDigitChars_toDigits (by decide) (by decide)⟩
  intro d hd
  have hdigit := Nat.isDigit_of_mem_toDigits (by decide) (by decide) hd
  rw [Char.isDigit, Bool.and_eq_true] at hdigit
  exact ⟨of_decide_eq_true hdigit.1, of_decide_eq_true hdigit.2⟩

theorem continues_continued (h : ∀ name, Segment.key name ∈ steps → IsIdentifier name.toList) :
    Continues (steps.flatMap continued) steps := by
  induction steps with
  | nil => exact .nil
  | cons segment steps ih =>
    have hrest := ih fun name hname => h name (List.mem_cons_of_mem _ hname)
    cases segment with
    | key name =>
      have hkey := Continues.key (h name List.mem_cons_self) hrest
      rwa [String.ofList_toList] at hkey
    | index n =>
      obtain ⟨hnumeral, hvalue⟩ := isNumeral_natDigits n
      have hindex := Continues.index hnumeral hrest
      rw [hvalue] at hindex
      simpa [continued, Segment.display] using hindex

/-- A rendering is derived, with the steps that were rendered. -/
theorem derives_render {first : String}
    (h : ∀ name, Segment.key name ∈ Segment.key first :: steps → IsIdentifier name.toList) :
    Derives (render (.key first :: steps)).toList (.key first :: steps) := by
  have hrest := continues_continued fun name hname => h name (List.mem_cons_of_mem _ hname)
  have hderives := Derives.key (h first List.mem_cons_self) hrest
  rw [String.ofList_toList] at hderives
  rwa [render, String.toList_ofList]

/-- A text is read as a path if and only if it has a derivation with bounded numbers, and then its
steps are those of the derivation, of which there is no other. It is refused as empty if and only if
it is, for its numbers if and only if it has a derivation with one that is out of bounds, and else
for its form. And steps that begin with a key and have identifiers for keys are read back from their
rendering. -/
theorem parse_iff_derives :
    (∀ source path, parse source = .ok path ↔
      path.source = source ∧ Derives source.toList path.segments ∧ IsBounded path.segments) ∧
    (∀ source steps steps', Derives source steps → Derives source steps' → steps = steps') ∧
    (∀ source, parse source = .error .empty ↔ source = "") ∧
    (∀ source text, parse source = .error (.indexOverflow text) ↔
      text = source ∧ ∃ steps, Derives source.toList steps ∧ ¬IsBounded steps) ∧
    (∀ source text, parse source = .error (.rejected text) ↔
      text = source ∧ source ≠ "" ∧ ¬∃ steps, Derives source.toList steps) ∧
    ∀ first rest,
      (∀ name, Segment.key name ∈ Segment.key first :: rest → IsIdentifier name.toList) →
      IsBounded (.key first :: rest) →
      parse (render (.key first :: rest)) =
        .ok { source := render (.key first :: rest), segments := .key first :: rest } := by
  refine ⟨fun _ _ => parse_eq_ok_iff, fun s steps steps' h h' => ?_,
    fun _ => parse_eq_empty_iff, fun _ _ => parse_eq_indexOverflow_iff,
    fun _ _ => parse_eq_rejected_iff, fun first rest hkeys hbounded => ?_⟩
  · -- Both are what is picked out of the text.
    exact (stepsIn_of_derives h).symm.trans (stepsIn_of_derives h')
  · exact parse_eq_ok_iff.mpr ⟨rfl, derives_render hkeys, hbounded⟩

example : parse "posts[007].$t" =
    .ok { source := "posts[007].$t", segments := [.key "posts", .index 7, .key "$t"] } := by
  with_unfolding_all rfl

end Path

end BoundMarkup
