import BoundMarkup.Proofs.Markup.LeadingMark
import BoundMarkup.Proofs.Markup.RawText

/-!
# Parsing by offsets

A text can be parsed in place, in rounds. Each round begins at an offset with a tokenizer for what
stands there, and its tokens are added to the tree up to the first start tag of a raw-text element.
The content of this element is cut out of the text by hand, and the next round begins at the offset
behind its end tag.

The tokenizer counts the bytes that it has passed, and where the content begins is known from this
count alone. Since a byte-order mark is passed over without being counted, the content may begin
early and even inside a character. All that is asked of the count is that behind a start tag it is
neither zero nor more than there is. This is enough: every round begins between two characters and
nothing is cut out anywhere else, since the mark that ends raw text is found only there; and every
round begins behind the one before, so there are at most as many as the text has bytes. What is
parsed in place is what is parsed by passing on the rest of the text.

## Main definitions

* `Tokenizer`: what reads tokens and counts bytes, and `Tokenizer.markup`, which reads those of
  markup;
* `Tokenizer.IsBounded`: the count behind a start tag lies in the text;
* `cutRawText`: the content of a raw-text element by its offset;
* `Tokenizer.round`, `Tokenizer.run`: one round, and so many rounds from a stage on;
* `Tokenizer.Reaches`: the stages between the rounds.

## Main results

* `endTagOffset?_eq`: an end tag is found in the bytes where it stands in the text;
* `cutRawText_offsetOf`: what is cut out of the text is the raw content of what stands there;
* `Tokenizer.exists_round`: what one round does;
* `Tokenizer.exists_run`: rounds come to an end;
* `run_markup`: parsing in place;
* `run_eq_parse`: parsing in place asks for no range that is not within the text, always goes on
  and ends, and yields the same tree.
-/

namespace BoundMarkup.Markup

open Text

/-! ### Tokenizers -/

/-- What a tokenizer reads: tokens with its count of bytes behind each of them. -/
inductive Events where
  /-- The text is at its end. -/
  | done
  /-- The text cannot be read further. -/
  | failed (error : MarkupError)
  /-- A token is read, then so many bytes are counted, and then the rest. -/
  | next (token : Token) (position : Nat) (rest : Events)

/-- Whether the count behind every start tag is neither zero nor more than `size`. -/
def Events.IsBounded (size : Nat) : Events → Prop
  | next token position rest =>
    (∀ text, token = .tag .opening text → 0 < position ∧ position ≤ size) ∧ rest.IsBounded size
  | _ => True

/-- A tokenizer takes a text apart without knowing of raw text. -/
structure Tokenizer where
  /-- What it reads of a text. -/
  events : String → Events

/-- A tokenizer whose count behind every start tag lies in the text. -/
def Tokenizer.IsBounded (t : Tokenizer) : Prop :=
  ∀ text, (t.events text).IsBounded text.utf8ByteSize

/-- Reads a text of which `size` bytes are counted. -/
def eventsFrom (size : Nat) (s : List Char) : Events :=
  match s with
  | [] => .done
  | '<' :: s =>
    match _h : construct s with
    | .error e => .failed e
    | .ok (token, rest) => .next token (size - byteSize rest) (eventsFrom size rest)
  | '&' :: s =>
    match _h : referenceName? s with
    | some (name, rest) => .next (.reference name) (size - byteSize rest) (eventsFrom size rest)
    | none => .next (.character '&') (size - byteSize s) (eventsFrom size s)
  | c :: s => .next (.character c) (size - byteSize s) (eventsFrom size s)
termination_by s.length
decreasing_by
  · exact Nat.lt_succ_of_le (length_of_construct _h)
  · simp [append_of_referenceName? _h]
    omega
  · simp
  · simp

/-- The tokenizer of markup. It passes over a byte-order mark without counting it. -/
def Tokenizer.markup : Tokenizer where
  events text := eventsFrom (byteSize (passMark text.toList).2) (passMark text.toList).2

/-! ### Rounds -/

/-- The offset at which the end tag of an element begins. -/
def endTagOffset? (s : String) (name : String) : Option Nat :=
  offsetCaseless? ("</" ++ name).toByteArray.data.toList s.toByteArray.data.toList

/-- The offset behind the first closing bracket of an end of the text that begins at `close`. -/
def resumeOffset (source : String) (close : Nat) (closing : String) : Nat :=
  (closing.find? '>').elim source.utf8ByteSize (close + ·.offset.byteIdx + 1)

/-- The content of a raw-text element that begins at `start`, and the offset behind its end tag.
Without an end tag all is content. If the content does not begin between characters, all is lost. -/
def cutRawText (source : String) (start : Nat) (name : String) :
    Except ByteRange (String × Nat) :=
  let rest := (part source ⟨start, source.utf8ByteSize⟩).toOption.getD ""
  match endTagOffset? rest name with
  | none => .ok (rest, source.utf8ByteSize)
  | some relative => do
    let closing ← part source ⟨start + relative, source.utf8ByteSize⟩
    let content ← part source ⟨start, start + relative⟩
    return (content, resumeOffset source (start + relative) closing)

/-- Where a tokenizer is left. -/
inductive Stop where
  /-- All is read. -/
  | done (tree : Assembly)
  /-- The text cannot be read further. -/
  | failed (error : MarkupError)
  /-- The start tag of a raw-text element is read, and then so many bytes are counted. -/
  | rawText (tree : Assembly) (text : List Char) (position : Nat)

/-- Adds what is read up to the first start tag of a raw-text element. -/
def Assembly.addEvents (a : Assembly) : Events → Stop
  | .done => .done a
  | .failed e => .failed e
  | .next token position rest =>
    match rawTextTag? token with
    | some text => .rawText a text position
    | none => (a.add token).addEvents rest

/-- How far parsing has come: the tree so far, and the offset at which it goes on. -/
structure Stage where
  /-- The tree of what stands in front. -/
  tree : Assembly := {}
  /-- The offset at which the next round begins. -/
  offset : Nat := 0

/-- What comes of a round. -/
inductive Round where
  /-- Parsing is at its end. -/
  | ended (result : Except MarkupError Fragment)
  /-- Parsing goes on behind a raw-text element. -/
  | resumed (stage : Stage)

/-- How parsing ends. -/
inductive Ending where
  /-- There is a tree, or the text cannot be read. -/
  | parsed (result : Except MarkupError Fragment)
  /-- A range was asked for that is not within the text. -/
  | outOfRange (range : ByteRange)
  /-- The rounds are used up. -/
  | unfinished

/-- What comes of a round that began at an offset, by where its tokenizer is left. -/
def Stop.round (source : String) (offset : Nat) : Stop → Except ByteRange Round
  | .done tree => .ok (.ended (.ok tree.finish))
  | .failed e => .ok (.ended (.error e))
  | .rawText tree text position => do
    let (content, resume) ← cutRawText source (offset + position) (tagName text)
    return .resumed { tree := tree.add (.tag (.raw content.toList) text), offset := resume }

namespace Tokenizer

/-- One round. It fails with the range that it asked for if that is not within the text. -/
def round (t : Tokenizer) (source : String) (stage : Stage) : Except ByteRange Round :=
  if stage.offset < source.utf8ByteSize then do
    let text ← part source ⟨stage.offset, source.utf8ByteSize⟩
    (stage.tree.addEvents (t.events text)).round source stage.offset
  else .ok (.ended (.ok stage.tree.finish))

/-- Parses a text from a stage on, in so many rounds at most. -/
def run (t : Tokenizer) (source : String) : Nat → Stage → Ending
  | 0, _ => .unfinished
  | rounds + 1, stage =>
    match t.round source stage with
    | .error range => .outOfRange range
    | .ok (.ended result) => .parsed result
    | .ok (.resumed stage) => t.run source rounds stage

/-- The stages at which rounds begin. -/
inductive Reaches (t : Tokenizer) (source : String) : Stage → Prop
  | start : Reaches t source {}
  | resume {stage next : Stage} (hstage : Reaches t source stage)
      (hround : t.round source stage = .ok (.resumed next)) : Reaches t source next

end Tokenizer

/-! ### End tags -/

/-- The end tag of an element is found in the bytes of a text where it stands in the text. -/
theorem endTagOffset?_eq (s : List Char) (name : String) :
    endTagOffset? (String.ofList s) name =
      (cutCaseless ('<' :: '/' :: name.toList) s).map fun cut => byteSize cut.1 := by
  have hmark : ("</" ++ name).toList = '<' :: '/' :: name.toList := by simp
  have hbytes : bytes ('<' :: '/' :: name.toList) = 0x3C :: bytes ('/' :: name.toList) := rfl
  rw [endTagOffset?, toList_toByteArray, toList_toByteArray, hmark, String.toList_ofList]
  induction s with
  | nil => rfl
  | cons c s ih =>
    rw [hbytes, offsetCaseless?_bytes_cons (by decide), ← hbytes, ih, cutCaseless]
    by_cases hfront : lower ((c :: s).take ('<' :: '/' :: name.toList).length) =
        lower ('<' :: '/' :: name.toList)
    · rw [if_pos (map_toAsciiLower_take_iff.mpr hfront), if_pos hfront]
      rfl
    · rw [if_neg (mt map_toAsciiLower_take_iff.mp hfront), if_neg hfront, Option.map_map,
        Option.map_map]
      congr 1
      funext cut
      exact Nat.add_comm _ _

/-- Parsing goes on behind the closing bracket. -/
theorem resumeOffset_offsetOf {source : String} {s : List Char} (h : s <:+ source.toList) :
    resumeOffset source (offsetOf source s) (String.ofList s) =
      offsetOf source ((s.dropWhile (· ≠ '>')).drop 1) := by
  have hsplit : s.takeWhile (· ≠ '>') ++ s.dropWhile (· ≠ '>') = s :=
    List.takeWhile_append_dropWhile
  have hfront : '>' ∉ s.takeWhile (· ≠ '>') := fun hmem => by
    have hne := List.all_eq_true.mp (List.all_takeWhile (l := s) (p := (· ≠ '>'))) _ hmem
    simp at hne
  have hfirst := List.head?_dropWhile_not (fun c => decide (c ≠ '>')) s
  -- The text in front of the first closing bracket, and what begins with it.
  generalize s.takeWhile (· ≠ '>') = front at *
  generalize s.dropWhile (· ≠ '>') = rest at *
  subst hsplit
  cases rest with
  | nil =>
    have hnone : (String.ofList (front ++ [])).find? '>' = none := by
      apply find?_eq_none
      rwa [String.toList_ofList, List.append_nil]
    rw [resumeOffset, hnone, List.drop_nil, offsetOf_nil]
    rfl
  | cons c rest =>
    have hc : c = '>' := by simpa using hfirst
    subst hc
    obtain ⟨p, hp, hoffset⟩ :=
      exists_find?_eq (s := String.ofList (front ++ '>' :: rest)) String.toList_ofList hfront
    have hopen := offsetOf_append_add h
    have hrest : ['>'] ++ rest <:+ source.toList := (List.suffix_append _ _).trans h
    have hclose := offsetOf_append_add hrest
    have hsize : byteSize ['>'] = 1 := rfl
    rw [resumeOffset, hp, Option.elim_some, hoffset, List.drop_one, List.tail_cons]
    rw [List.singleton_append] at hclose
    omega

/-- What is cut out of a text is the raw content of what stands there. -/
theorem cutRawText_offsetOf {source : String} {rest : List Char} (h : rest <:+ source.toList)
    {name : String} (hname : '>' ∉ name.toList) :
    cutRawText source (offsetOf source rest) name =
      .ok (String.ofList (rawContent name rest).1, offsetOf source (rawContent name rest).2) := by
  rw [cutRawText, part_offsetOf_end h, Except.toOption, Option.getD_some, endTagOffset?_eq,
    rawContent]
  cases hcut : cutCaseless ('<' :: '/' :: name.toList) rest with
  | none => rw [Option.map_none, offsetOf_nil]
  | some cut =>
    obtain ⟨before, after⟩ := cut
    obtain ⟨piece, rfl, hpiece⟩ := exists_append_of_cutCaseless hcut
    have hpass : ∀ c ∈ piece, decide (c ≠ '>') = true := by
      intro c hc
      refine decide_eq_true ?_
      rintro rfl
      rw [← mem_lower_iff (by decide), hpiece, mem_lower_iff (by decide)] at hc
      simp [hname] at hc
    rw [List.append_assoc] at h
    have hclosing : piece ++ after <:+ source.toList := (List.suffix_append _ _).trans h
    rw [List.append_assoc, Option.map_some]
    dsimp only
    rw [offsetOf_append_add h, part_offsetOf_end hclosing, part_offsetOf h]
    show Except.ok _ = _
    rw [resumeOffset_offsetOf hclosing, List.dropWhile_append_of_pos hpass]

/-- If the content of a raw-text element does not begin between characters, all is lost. -/
theorem cutRawText_of_not_isValid {source : String} {start : Nat}
    (h : ¬String.Pos.Raw.IsValid source ⟨start⟩) (name : String) :
    cutRawText source start name = .ok ("", source.utf8ByteSize) := by
  have hnone : endTagOffset? "" name = none := endTagOffset?_eq [] name
  rw [cutRawText, part_of_not_isValid h, Except.toOption, Option.getD_none, hnone]

/-- Wherever the content of a raw-text element begins, it can be cut out, and parsing goes on
between characters and behind it. -/
theorem exists_cutRawText {source : String} {start : Nat} (hstart : start ≤ source.utf8ByteSize)
    {name : String} (hname : '>' ∉ name.toList) :
    ∃ content resume, cutRawText source start name = .ok (content, resume) ∧
      String.Pos.Raw.IsValid source ⟨resume⟩ ∧ start ≤ resume := by
  by_cases hvalid : String.Pos.Raw.IsValid source ⟨start⟩
  · obtain ⟨rest, hrest, rfl⟩ := isValid_iff_exists_suffix.mp hvalid
    have hbehind := suffix_rawContent name rest
    exact ⟨_, _, cutRawText_offsetOf hrest hname, isValid_offsetOf (hbehind.trans hrest),
      offsetOf_le_of_suffix hbehind⟩
  · exact ⟨_, _, cutRawText_of_not_isValid hvalid name, String.Pos.Raw.isValid_rawEndPos, hstart⟩

/-- The name of a raw-text element has no bracket in it. -/
theorem not_mem_of_isRawText {name : String} (h : isRawText name = true) : '>' ∉ name.toList :=
  fun hc => Bool.noConfusion (of_mem_elementName (validElementName_of_isRawText h) hc).1

/-! ### Rounds of any tokenizer -/

theorem Stop.round_rawText {source : String} {offset position : Nat} {text : List Char}
    {content : String} {resume : Nat}
    (h : cutRawText source (offset + position) (tagName text) = .ok (content, resume))
    (tree : Assembly) :
    (Stop.rawText tree text position).round source offset =
      .ok (.resumed { tree := tree.add (.tag (.raw content.toList) text), offset := resume }) := by
  rw [Stop.round, h]
  rfl

/-- If a tokenizer is left at a raw-text element, its count lies in the text. -/
theorem of_addEvents_eq_rawText {size : Nat} {events : Events} (h : events.IsBounded size)
    {a tree : Assembly} {text : List Char} {position : Nat}
    (hstop : a.addEvents events = .rawText tree text position) :
    isRawText (tagName text) = true ∧ 0 < position ∧ position ≤ size := by
  induction events generalizing a with
  | done => cases hstop
  | failed e => cases hstop
  | next token count rest ih =>
    obtain ⟨htag, hrest⟩ := h
    rw [Assembly.addEvents] at hstop
    split at hstop
    · next hraw =>
      cases hstop
      obtain ⟨rfl, hname⟩ := rawTextTag?_eq_some_iff.mp hraw
      exact ⟨hname, htag _ rfl⟩
    · exact ih hrest hstop

namespace Tokenizer

variable {t : Tokenizer} {source : String} {stage : Stage}

/-- A round begins with the end of the text at its offset. -/
theorem round_offsetOf {s : List Char} (h : s <:+ source.toList) (hs : s ≠ []) (tree : Assembly) :
    t.round source { tree, offset := offsetOf source s } =
      (tree.addEvents (t.events (String.ofList s))).round source (offsetOf source s) := by
  have hlt : offsetOf source s < source.utf8ByteSize := by
    have hadd := offsetOf_add h
    have hlength := length_le_byteSize s
    have hpos := List.length_pos_iff.mpr hs
    omega
  rw [round, if_pos hlt, part_offsetOf_end h]
  rfl

/-- At the end of the text there is nothing to do. -/
theorem round_offsetOf_nil (tree : Assembly) :
    t.round source { tree, offset := offsetOf source [] } = .ok (.ended (.ok tree.finish)) := by
  rw [round, offsetOf_nil, if_neg (Nat.lt_irrefl _)]

/-- A round that begins between characters asks for nothing that is not within the text, and the
next one begins between characters and behind it. -/
theorem exists_round (h : t.IsBounded)
    (hvalid : String.Pos.Raw.IsValid source ⟨stage.offset⟩) :
    ∃ round, t.round source stage = .ok round ∧ ∀ next, round = .resumed next →
      String.Pos.Raw.IsValid source ⟨next.offset⟩ ∧ stage.offset < next.offset := by
  obtain ⟨tree, offset⟩ := stage
  obtain ⟨s, hs, rfl⟩ := isValid_iff_exists_suffix.mp hvalid
  by_cases hnil : s = []
  · -- There is nothing left, so this is the last round.
    subst hnil
    exact ⟨_, round_offsetOf_nil tree, nofun⟩
  · rw [round_offsetOf hs hnil]
    cases hstop : tree.addEvents (t.events (String.ofList s)) with
    | done tree => exact ⟨_, rfl, nofun⟩
    | failed e => exact ⟨_, rfl, nofun⟩
    | rawText tree text position =>
      -- The content begins in the text and behind the offset, though maybe inside a character.
      obtain ⟨hraw, hpos, hle⟩ := of_addEvents_eq_rawText (h _) hstop
      have hstart : offsetOf source s + position ≤ source.utf8ByteSize := by
        rw [utf8ByteSize_ofList] at hle
        have hadd := offsetOf_add hs
        omega
      obtain ⟨content, resume, hcut, hresume, hstartle⟩ :=
        exists_cutRawText hstart (not_mem_of_isRawText hraw)
      refine ⟨_, Stop.round_rawText hcut tree, fun next hnext => ?_⟩
      cases hnext
      exact ⟨hresume, (Nat.lt_add_of_pos_right hpos).trans_le hstartle⟩

/-- Every round begins between characters. -/
theorem isValid_of_reaches (h : t.IsBounded) (hstage : t.Reaches source stage) :
    String.Pos.Raw.IsValid source ⟨stage.offset⟩ := by
  induction hstage with
  | start => exact String.Pos.Raw.isValid_zero
  | resume hstage hround ih =>
    obtain ⟨round, heq, hresumed⟩ := exists_round h ih
    rw [hround] at heq
    cases heq
    exact (hresumed _ rfl).1

/-- Parsing ends with a result, the same in any number of rounds that is greater than that of the
bytes left. -/
theorem exists_run (h : t.IsBounded) (hvalid : String.Pos.Raw.IsValid source ⟨stage.offset⟩) :
    ∃ result, ∀ rounds, source.utf8ByteSize - stage.offset < rounds →
      t.run source rounds stage = .parsed result := by
  -- The induction is on the number of bytes left.
  induction hleft : source.utf8ByteSize - stage.offset using Nat.strong_induction_on
    generalizing stage with
  | _ left ih =>
    obtain ⟨round, hround, hresumed⟩ := exists_round h hvalid
    cases round with
    | ended result =>
      refine ⟨result, fun rounds hrounds => ?_⟩
      obtain ⟨rounds, rfl⟩ := Nat.exists_eq_succ_of_ne_zero (Nat.ne_zero_of_lt hrounds)
      rw [run, hround]
    | resumed next =>
      obtain ⟨hnext, hlt⟩ := hresumed next rfl
      have hle : next.offset ≤ source.utf8ByteSize := hnext.le_rawEndPos
      obtain ⟨result, hresult⟩ := ih _ (by omega) hnext rfl
      refine ⟨result, fun rounds hrounds => ?_⟩
      obtain ⟨rounds, rfl⟩ := Nat.exists_eq_succ_of_ne_zero (Nat.ne_zero_of_lt hrounds)
      rw [run, hround]
      exact hresult rounds (by omega)

end Tokenizer

/-! ### The tokenizer of markup -/

/-- The count behind a start tag lies in the text. -/
theorem isBounded_eventsFrom {size : Nat} {s : List Char} (h : byteSize s ≤ size) :
    (eventsFrom size s).IsBounded size := by
  fun_induction eventsFrom size s with
  | case1 => trivial
  | case2 => trivial
  | case3 s token rest hconstruct ih =>
    have hrest := byteSize_le_of_suffix (suffix_of_construct hconstruct)
    have hpos := Char.utf8Size_pos '<'
    rw [byteSize_cons] at h
    exact ⟨fun _ _ => ⟨by omega, Nat.sub_le _ _⟩, ih (by omega)⟩
  | case4 s name rest hname ih =>
    rw [append_of_referenceName? hname, byteSize_cons, byteSize_append, byteSize_cons] at h
    exact ⟨nofun, ih (by omega)⟩
  | case5 s hname ih => exact ⟨nofun, ih ((Nat.le_add_left _ _).trans h)⟩
  | case6 c s hlt hamp ih => exact ⟨nofun, ih ((Nat.le_add_left _ _).trans h)⟩

theorem Events.IsBounded.mono {size bound : Nat} (h : size ≤ bound) {events : Events}
    (hevents : events.IsBounded size) : events.IsBounded bound := by
  induction events with
  | done => trivial
  | failed e => trivial
  | next token position rest ih =>
    refine ⟨fun text htext => ?_, ih hevents.2⟩
    obtain ⟨hpos, hle⟩ := hevents.1 text htext
    exact ⟨hpos, hle.trans h⟩

theorem Tokenizer.events_markup (s : List Char) :
    Tokenizer.markup.events (String.ofList s) =
      eventsFrom (byteSize (passMark s).2) (passMark s).2 := by
  simp only [markup, String.toList_ofList]

/-- The tokenizer of markup counts no byte that there is not. -/
theorem isBounded_markup : Tokenizer.markup.IsBounded := by
  intro text
  have hle := byteSize_le_of_suffix (suffix_passMark text.toList)
  rw [← utf8ByteSize_eq] at hle
  exact (isBounded_eventsFrom (Nat.le_refl _)).mono hle

/-- How a tokenizer that is left goes on with the reading of a text `s`, if that has the given
result: behind the content of a raw-text element with a text of its own. -/
def Stop.GoesOn (marked : Bool) (size : Nat) (s : List Char)
    (result : Except MarkupError Assembly) : Stop → Prop
  | done tree => result = .ok tree
  | failed e => result = .error e
  | rawText tree text position =>
    ∃ front rest, s = front ++ '<' :: (text ++ '>' :: rest) ∧ isRawText (tagName text) = true ∧
      position = size - byteSize rest ∧
      result = (tree.add (.tag (.raw (rawElement marked text rest).1) text)).addReading
        (read (rawElement marked text rest).2)

theorem Stop.GoesOn.append {marked : Bool} {size : Nat} {s : List Char}
    {result : Except MarkupError Assembly} {stop : Stop} (h : stop.GoesOn marked size s result)
    (lead : List Char) : stop.GoesOn marked size (lead ++ s) result := by
  cases stop with
  | done tree => exact h
  | failed e => exact h
  | rawText tree text position =>
    obtain ⟨front, rest, rfl, hgoes⟩ := h
    exact ⟨lead ++ front, rest, (List.append_assoc _ _ _).symm, hgoes⟩

/-- Up to the first raw-text element the tokenizer reads what there is to read. -/
theorem goesOn_addEvents (marked : Bool) (size : Nat) (s : List Char) (a : Assembly) :
    (a.addEvents (eventsFrom size s)).GoesOn marked size s (a.addReading (readFrom marked s)) := by
  fun_induction eventsFrom size s generalizing a with
  | case1 => rw [readFrom]; rfl
  | case2 s e h => rw [readFrom_error h]; rfl
  | case3 s token rest h ih =>
    obtain ⟨lead, rfl⟩ := suffix_of_construct h
    rw [Assembly.addEvents]
    cases hraw : rawTextTag? token with
    | none =>
      rw [readFrom_construct h hraw]
      exact (ih (a.add token)).append ('<' :: lead)
    | some text =>
      rw [readFrom_rawElement h hraw]
      exact ⟨[], rest, congrArg (List.cons '<') (append_of_rawTextTag? h hraw),
        (rawTextTag?_eq_some_iff.mp hraw).2, rfl, rfl⟩
  | case4 s name rest h ih =>
    obtain rfl := append_of_referenceName? h
    rw [readFrom_reference h]
    have hgoes := (ih (a.add (.reference name))).append ('&' :: (name ++ [';']))
    rwa [List.cons_append, List.append_assoc] at hgoes
  | case5 s h ih =>
    rw [readFrom_ampersand h]
    exact (ih (a.add (.character '&'))).append ['&']
  | case6 c s hlt hamp ih =>
    rw [readFrom_character hlt hamp]
    exact (ih (a.add (.character c))).append [c]

/-- The start tag of a raw-text element has two bytes at least in front of its bracket, which are as
many as a byte-order mark has beyond one for the bracket. -/
theorem two_le_byteSize_of_isRawText {text : List Char} (h : isRawText (tagName text) = true) :
    2 ≤ byteSize text := by
  have hname : (tagName text).toList.length ≤ text.length := by
    rw [tagName, String.toList_ofList, length_lower]
    exact (List.takeWhile_sublist _).length_le
  have hlength := length_le_byteSize text
  rcases isRawText_iff.mp h with heq | heq <;> rw [heq] at hname
  · have hscript : "script".toList.length = 6 := rfl
    omega
  · have hstyle : "style".toList.length = 5 := rfl
    omega

/-- If the content of a raw-text element begins as much too early as a byte-order mark is long, then
the end of its start tag is cut out with it, unless it begins inside a character. -/
theorem cutRawText_early {source : String} {text rest : List Char}
    (h : text ++ '>' :: rest <:+ source.toList) (hraw : isRawText (tagName text) = true)
    {start : Nat} (hstart : start + byteOrderMark.utf8Size = offsetOf source rest) :
    cutRawText source start (tagName text) =
      .ok (String.ofList (rawElement true text rest).1,
        offsetOf source (rawElement true text rest).2) := by
  have hname := not_mem_of_isRawText hraw
  have htag : (text ++ ['>']) ++ rest <:+ source.toList := by
    rwa [List.append_assoc]
  rw [rawElement, rawSource, if_pos rfl]
  cases hlead : lastBytes? byteOrderMark.utf8Size (text ++ ['>']) with
  | some lead =>
    obtain ⟨hsuffix, hsize⟩ := lastBytes?_eq_some_iff.mp hlead
    have hfrom : lead ++ rest <:+ source.toList :=
      (List.suffix_append_self_iff.mpr hsuffix).trans htag
    have hoffset := offsetOf_append_add hfrom
    rw [hsize] at hoffset
    have heq : start = offsetOf source (lead ++ rest) := by omega
    rw [heq, cutRawText_offsetOf hfrom hname]
  | none =>
    refine cutRawText_of_not_isValid (fun hvalid => ?_) (tagName text)
    obtain ⟨s, hs, rfl⟩ := isValid_iff_exists_suffix.mp hvalid
    have hsize : byteSize s = byteOrderMark.utf8Size + byteSize rest := by
      have hadd := offsetOf_add hs
      have haddRest := offsetOf_add ((List.suffix_append _ _).trans htag)
      omega
    have hle : byteOrderMark.utf8Size ≤ byteSize (text ++ ['>']) := by
      rw [byteSize_append]
      exact Nat.add_le_add_right (two_le_byteSize_of_isRawText hraw) 1
    obtain ⟨lead, hsome, -⟩ := exists_lastBytes?_of_suffix htag hs hsize hle
    rw [hlead] at hsome
    cases hsome

/-- The content of a raw-text element is cut out where the count of the tokenizer says that it
begins, early behind a byte-order mark. -/
theorem cutRawText_position {source : String} {s front text rest : List Char}
    (h : s <:+ source.toList) (hs : (passMark s).2 = front ++ '<' :: (text ++ '>' :: rest))
    (hraw : isRawText (tagName text) = true) :
    cutRawText source (offsetOf source s + (byteSize (passMark s).2 - byteSize rest))
        (tagName text) =
      .ok (String.ofList (rawElement (passMark s).1 text rest).1,
        offsetOf source (rawElement (passMark s).1 text rest).2) := by
  have hpassed : front ++ '<' :: (text ++ '>' :: rest) <:+ source.toList := by
    rw [← hs]
    exact (suffix_passMark s).trans h
  have htag : text ++ '>' :: rest <:+ source.toList :=
    ((List.suffix_cons _ _).trans (List.suffix_append _ _)).trans hpassed
  have hrest : rest <:+ source.toList :=
    ((List.suffix_cons _ _).trans (List.suffix_append _ _)).trans htag
  have hcount : byteSize rest ≤ byteSize (passMark s).2 := by
    rw [hs]
    simp only [byteSize_append, byteSize_cons]
    omega
  have hadd := offsetOf_add h
  have haddRest := offsetOf_add hrest
  -- Where the content begins is counted from behind the mark, and the offset is in front of it.
  cases hmark : (passMark s).1 with
  | false =>
    have hself : (passMark s).2 = s := by rw [passMark_eq_self hmark]
    have hstart : offsetOf source s + (byteSize (passMark s).2 - byteSize rest) =
        offsetOf source rest := by
      rw [hself] at hcount ⊢
      omega
    rw [hstart, cutRawText_offsetOf hrest (not_mem_of_isRawText hraw)]
    rfl
  | true =>
    have hsize := congrArg byteSize (eq_cons_of_passMark hmark)
    rw [byteSize_cons] at hsize
    exact cutRawText_early htag hraw (by omega)

/-- Parsing in place from the offset of an end of the text yields what is read of this end. -/
theorem run_markup {source : String} {s : List Char} (h : s <:+ source.toList) {rounds : Nat}
    (hrounds : byteSize s < rounds) (a : Assembly) :
    Tokenizer.markup.run source rounds { tree := a, offset := offsetOf source s } =
      .parsed ((a.addReading (read s)).map Assembly.finish) := by
  induction rounds generalizing s a with
  | zero => omega
  | succ rounds ih =>
    rw [Tokenizer.run]
    by_cases hnil : s = []
    · subst hnil
      rw [Tokenizer.round_offsetOf_nil, read, passMark, readFrom]
      rfl
    · rw [Tokenizer.round_offsetOf h hnil, Tokenizer.events_markup]
      have hgoes := goesOn_addEvents (passMark s).1 (byteSize (passMark s).2) (passMark s).2 a
      rw [← read] at hgoes
      cases hstop : a.addEvents (eventsFrom (byteSize (passMark s).2) (passMark s).2) with
      | done tree =>
        rw [hstop] at hgoes
        have hresult : a.addReading (read s) = .ok tree := hgoes
        rw [hresult]
        rfl
      | failed e =>
        rw [hstop] at hgoes
        have hresult : a.addReading (read s) = .error e := hgoes
        rw [hresult]
        rfl
      | rawText tree text position =>
        rw [hstop] at hgoes
        obtain ⟨front, rest, hs, hraw, rfl, hresult⟩ := hgoes
        rw [Stop.round_rawText (cutRawText_position h hs hraw), hresult, String.toList_ofList]
        have hbehind := suffix_rawElement (passMark s).1 text rest
        have htag : '<' :: (text ++ '>' :: rest) <:+ s :=
          (hs ▸ List.suffix_append _ _).trans (suffix_passMark s)
        -- Less is left, since the start tag is behind.
        have hless : byteSize (rawElement (passMark s).1 text rest).2 < byteSize s := by
          have hpos := Char.utf8Size_pos '<'
          have htagle := byteSize_le_of_suffix htag
          have hbehindle := byteSize_le_of_suffix hbehind
          rw [byteSize_cons] at htagle
          omega
        exact ih ((hbehind.trans (List.suffix_cons _ _)).trans (htag.trans h)) (by omega) _

/-- Parsing in place with a tokenizer whose count lies in the text. Every round begins between
characters, asks for no range that is not within the text, and goes on behind where it began. So
parsing ends with a result, however many rounds there may be beyond one for each byte, and with the
tokenizer of markup this is the result of `parse`. -/
theorem run_eq_parse {t : Tokenizer} (h : t.IsBounded) (source : String) :
    (∀ stage, t.Reaches source stage →
      stage.offset ≤ source.utf8ByteSize ∧ String.Pos.Raw.IsValid source ⟨stage.offset⟩ ∧
      (∃ round, t.round source stage = .ok round) ∧
      ∀ next, t.round source stage = .ok (.resumed next) → stage.offset < next.offset) ∧
    (∃ result, ∀ rounds, source.utf8ByteSize < rounds →
      t.run source rounds {} = .parsed result) ∧
    ∀ rounds, source.utf8ByteSize < rounds →
      Tokenizer.markup.run source rounds {} = .parsed (parse source) := by
  refine ⟨fun stage hstage => ?_, ?_, fun rounds hrounds => ?_⟩
  · have hvalid := Tokenizer.isValid_of_reaches h hstage
    obtain ⟨round, hround, hresumed⟩ := Tokenizer.exists_round h hvalid
    refine ⟨hvalid.le_rawEndPos, hvalid, ⟨round, hround⟩, fun next hnext => ?_⟩
    rw [hround] at hnext
    exact (hresumed next (Except.ok.inj hnext)).2
  · exact Tokenizer.exists_run h (Tokenizer.isValid_of_reaches h .start)
  · rw [utf8ByteSize_eq] at hrounds
    have hrun := run_markup List.suffix_rfl hrounds {}
    rwa [offsetOf_toList] at hrun

/-- The second round begins at a byte-order mark, and there the content begins inside a
character. -/
theorem run_eq_parse_marked :
    Tokenizer.markup.IsBounded ∧
      Tokenizer.markup.run "<style>é</STYLE ü>\ufeff<script 日>x</script>y" 47 {} =
        .parsed (.ok [.element { name := "style" } [.text "é"],
          .element { name := "script", attributes := [{ name := "日", value := "" }] } []]) := by
  have hsize : "<style>é</STYLE ü>\ufeff<script 日>x</script>y".utf8ByteSize < 47 := by decide
  have hparse : parse "<style>é</STYLE ü>\ufeff<script 日>x</script>y" =
      .ok [.element { name := "style" } [.text "é"],
        .element { name := "script", attributes := [{ name := "日", value := "" }] } []] := by
    with_unfolding_all rfl
  obtain ⟨-, -, hrun⟩ :=
    run_eq_parse isBounded_markup "<style>é</STYLE ü>\ufeff<script 日>x</script>y"
  rw [← hparse]
  exact ⟨isBounded_markup, hrun 47 hsize⟩

end BoundMarkup.Markup
