import BoundMarkup.Proofs.Markup.Assembly
import BoundMarkup.Proofs.Markup.Doctype
import BoundMarkup.Proofs.Markup.TagText

/-!
# Written markup is read as its tokens

Every node is written as a sequence of tokens, and reading the written form of a fragment gives
these tokens back, whatever stands behind it.

Reading starts anew behind a raw-text element, and a byte-order mark that comes next is passed over
there. So what follows such an element must not begin with one; where there are no raw-text
elements, nothing is asked of texts. A document type declaration is read back if it is whole and
says something, since an empty one is refused.

## Main definitions

* `Fragment.tokens`: the tokens of the written form of a fragment;
* `Node.IsReadable`: a node that has one text at most if it holds raw text, and is whole and not
  empty if it is a document type declaration;
* `Node.IsRawFree`: a node that does not hold raw text;
* `Node.IsUnmarked`: a node that is no text with a byte-order mark in front;
* `Fragment.lostMarks`: how many byte-order marks are written where reading starts anew.

## Main results

* `Fragment.readFrom_written`: the written form of a fragment is read as the tokens of the fragment;
* `read_written_of_readsOn`: this is so for a whole text with no byte-order mark in front;
* `read_written_of_isRawFree`: without raw text, such a mark is the only token that may be missing.
-/

namespace BoundMarkup.Markup

open Text

/-- Tokens in front of a reading. -/
def Reading.prepend (tokens : List Token) (r : Reading) : Reading := tokens.foldr .next r

/-- The token as which a character of text is written. -/
def textToken (c : Char) : Token :=
  if c = '&' then .reference "amp".toList
  else if c = '<' then .reference "lt".toList
  else if c = '>' then .reference "gt".toList
  else .character c

mutual

/-- The tokens of the written form of a node. -/
def Node.tokens : Node → List Token
  | .element tag children =>
    if validElementName tag.name then
      if isVoid tag.name then [.tag .opening tag.writtenText]
      else if isRawText tag.name then
        [.tag (.raw (Fragment.rawWritten children)) tag.writtenText]
      else
        .tag .opening tag.writtenText :: (Fragment.tokens children ++ [.closing tag.name.toList])
    else Fragment.tokens children
  | .text s => s.toList.map textToken
  | .comment s => [.comment (escapeComment s.toList)]
  | .doctype s => [.doctype s.toList]

/-- The tokens of the written form of a fragment. -/
def Fragment.tokens : List Node → List Token
  | [] => []
  | n :: rest => n.tokens ++ Fragment.tokens rest

end

namespace Node

/-- A node that has one text at most if it holds raw text, and is whole and not empty if it is a
document type declaration. -/
def IsReadable : Node → Prop
  | element tag children => isRawText tag.name = true → children = [] ∨ ∃ s, children = [.text s]
  | text _ => True
  | comment _ => True
  | doctype s => IsDeclaration s.toList ∧ s ≠ ""

/-- A node that does not hold raw text. -/
def IsRawFree : Node → Prop
  | element tag _ => isRawText tag.name = false
  | text _ => True
  | comment _ => True
  | doctype _ => True

/-- A node that is no text with a byte-order mark in front. -/
def IsUnmarked : Node → Prop
  | element _ _ => True
  | text s => s.toList.head? ≠ some byteOrderMark
  | comment _ => True
  | doctype _ => True

end Node

mutual

/-- How many byte-order marks are written where reading starts anew inside a node or behind it. Such
a place is behind every element that holds raw text; `rest` is what is written behind the node. -/
def Node.lostMarks (rest : List Char) : Node → Nat
  | .element tag children =>
    if validElementName tag.name then
      if isVoid tag.name then 0
      else if isRawText tag.name then (passMark rest).1.toNat
      else Fragment.lostMarks (tag.writtenEnd ++ rest) children
    else Fragment.lostMarks rest children
  | .text _ => 0
  | .comment _ => 0
  | .doctype _ => 0

/-- How many byte-order marks are written where reading starts anew inside a fragment or behind
it. -/
def Fragment.lostMarks (rest : List Char) : List Node → Nat
  | [] => 0
  | n :: f => n.lostMarks (Fragment.written f ++ rest) + Fragment.lostMarks rest f

end

/-- A byte-order mark has no effect in reading the written form of a fragment and what stands behind
it: there is no raw text, or there is no such mark where reading starts anew. -/
def Fragment.ReadsOn (marked : Bool) (f : List Node) (rest : List Char) : Prop :=
  Fragment.Each Node.IsRawFree f ∨ (marked = false ∧ Fragment.lostMarks rest f = 0)

namespace Reading

@[simp]
theorem prepend_nil (r : Reading) : prepend [] r = r := rfl

@[simp]
theorem prepend_cons (t : Token) (ts : List Token) (r : Reading) :
    prepend (t :: ts) r = .next t (prepend ts r) := rfl

@[simp]
theorem prepend_append (ts us : List Token) (r : Reading) :
    prepend (ts ++ us) r = prepend ts (prepend us r) := List.foldr_append

@[simp]
theorem error?_prepend (ts : List Token) (r : Reading) : (prepend ts r).error? = r.error? := by
  induction ts with
  | nil => rfl
  | cons t ts ih => rw [prepend_cons, error?, ih]

@[simp]
theorem tokens_prepend_done (ts : List Token) : (prepend ts done).tokens = ts := by
  induction ts with
  | nil => rfl
  | cons t ts ih => rw [prepend_cons, tokens, ih]

end Reading

/-! ### Single tokens -/

/-- A character that begins no markup is a token. -/
theorem readFrom_character {c : Char} (hlt : c ≠ '<') (hamp : c ≠ '&') (marked : Bool)
    (s : List Char) : readFrom marked (c :: s) = .next (.character c) (readFrom marked s) := by
  rw [readFrom.eq_def]
  split
  · next h => cases h
  · next h => exact absurd (List.cons.inj h).1 hlt
  · next h => exact absurd (List.cons.inj h).1 hamp
  · next h =>
    cases h
    rfl

/-- An ampersand with a name and a semicolon behind it is a token. -/
theorem readFrom_reference {s name rest : List Char} (h : referenceName? s = some (name, rest))
    (marked : Bool) :
    readFrom marked ('&' :: s) = .next (.reference name) (readFrom marked rest) := by
  rw [readFrom]
  split
  · next heq =>
    rw [h] at heq
    cases heq
    rfl
  · next heq =>
    rw [h] at heq
    cases heq

/-- An ampersand that begins no reference is a character. -/
theorem readFrom_ampersand {s : List Char} (h : referenceName? s = none) (marked : Bool) :
    readFrom marked ('&' :: s) = .next (.character '&') (readFrom marked s) := by
  rw [readFrom]
  split
  · next heq =>
    rw [h] at heq
    cases heq
  · rfl

/-- A construct that cannot be read ends the reading. -/
theorem readFrom_error {s : List Char} {e : MarkupError} (h : construct s = .error e)
    (marked : Bool) : readFrom marked ('<' :: s) = .failed e := by
  rw [readFrom]
  split
  · next heq =>
    rw [h] at heq
    cases heq
    rfl
  · next heq =>
    rw [h] at heq
    cases heq

/-- A construct that opens no raw text is a token. -/
theorem readFrom_construct {s rest : List Char} {token : Token}
    (h : construct s = .ok (token, rest)) (hraw : rawTextTag? token = none) (marked : Bool) :
    readFrom marked ('<' :: s) = .next token (readFrom marked rest) := by
  rw [readFrom]
  split
  · next heq =>
    rw [h] at heq
    cases heq
  · next heq =>
    rw [h] at heq
    cases heq
    split
    · next hsome =>
      rw [hraw] at hsome
      cases hsome
    · rfl

/-- The start tag of a raw-text element is a token together with its content and its end tag. -/
theorem readFrom_rawElement {s content rest : List Char} {token : Token} {marked : Bool}
    (h : construct s = .ok (token, rest)) (hraw : rawTextTag? token = some content) :
    readFrom marked ('<' :: s) =
      .next (.tag (.raw (rawElement marked content rest).1) content)
        (readFrom (passMark (rawElement marked content rest).2).1
          (passMark (rawElement marked content rest).2).2) := by
  rw [readFrom]
  split
  · next heq =>
    rw [h] at heq
    cases heq
  · next heq =>
    rw [h] at heq
    cases heq
    split
    · next hsome =>
      rw [hraw] at hsome
      cases hsome
      rfl
    · next hnone =>
      rw [hraw] at hnone
      cases hnone

/-! ### Written tokens -/

/-- A character of escaped text is read as its token. -/
theorem readFrom_escapeTextChar (c : Char) (marked : Bool) (rest : List Char) :
    readFrom marked (escapeTextChar c ++ rest) = .next (textToken c) (readFrom marked rest) := by
  unfold escapeTextChar
  split
  · exact readFrom_reference rfl marked
  · exact readFrom_reference rfl marked
  · exact readFrom_reference rfl marked
  · next hamp hlt hgt =>
    rw [textToken, if_neg hamp, if_neg hlt, if_neg hgt]
    exact readFrom_character hlt hamp marked rest

/-- Escaped text is read as the tokens of its characters. -/
theorem readFrom_escapeText (s : List Char) (marked : Bool) (rest : List Char) :
    readFrom marked (escapeText s ++ rest) =
      .prepend (s.map textToken) (readFrom marked rest) := by
  induction s with
  | nil => rfl
  | cons c s ih =>
    rw [escapeText, List.flatMap_cons, List.append_assoc, readFrom_escapeTextChar, List.map_cons,
      Reading.prepend_cons]
    exact congrArg _ ih

/-- Nothing is trimmed off a text without white space of tags. -/
private theorem trimTagEnd_eq_self {s : List Char} (h : ∀ c ∈ s, isTagSpace c = false) :
    trimTagEnd s = s := by
  rw [trimTagEnd]
  cases hrev : s.reverse with
  | nil => simpa using hrev.symm
  | cons c t =>
    have hc : c ∈ s := List.mem_reverse.mp (hrev ▸ List.mem_cons_self)
    rw [List.dropWhile_cons_of_neg (by simp [h c hc]), ← hrev, List.reverse_reverse]

/-- The written end tag is read as the end tag of that name. -/
theorem construct_writtenEnd {name : String} (h : validElementName name = true)
    (rest : List Char) :
    construct ('/' :: (name.toList ++ '>' :: rest)) = .ok (.closing name.toList, rest) := by
  have htrim : trimTagEnd name.toList = name.toList :=
    trimTagEnd_eq_self fun c hc => isTagSpace_eq_false (of_mem_elementName h hc).1
  rw [construct, (isClosed_elementName h).tagText_eq rest]
  simp [Except.map, htrim, lower_elementName h]

/-- A written comment is read as a comment. -/
theorem construct_comment (s rest : List Char) :
    construct ('!' :: '-' :: '-' :: (escapeComment s ++ "-->".toList ++ rest)) =
      .ok (.comment (escapeComment s), rest) := by
  have hpast : past? "--".toList ('-' :: '-' :: (escapeComment s ++ "-->".toList ++ rest)) =
      some (escapeComment s ++ "-->".toList ++ rest) := past?_eq_some_iff.mpr rfl
  rw [construct, declaration, List.head?_cons]
  simp only [enclosed, hpast, cutAt_escapeComment]

/-- The written end tag is a token. -/
theorem readFrom_writtenEnd {tag : Tag} (h : validElementName tag.name = true) (marked : Bool)
    (rest : List Char) :
    readFrom marked (tag.writtenEnd ++ rest) =
      .next (.closing tag.name.toList) (readFrom marked rest) := by
  rw [Tag.writtenEnd, List.cons_append, List.cons_append, List.append_assoc,
    List.singleton_append]
  exact readFrom_construct (construct_writtenEnd h rest) rfl marked

/-- A written comment is a token. -/
theorem readFrom_comment (s : List Char) (marked : Bool) (rest : List Char) :
    readFrom marked ("<!--".toList ++ escapeComment s ++ "-->".toList ++ rest) =
      .next (.comment (escapeComment s)) (readFrom marked rest) := by
  rw [List.append_assoc "<!--".toList, List.append_assoc "<!--".toList]
  exact readFrom_construct (construct_comment s rest) rfl marked

/-- A written declaration is a token unless it is empty: then reading ends with it. -/
theorem readFrom_doctype {s : List Char} (h : IsDeclaration s) (marked : Bool)
    (rest : List Char) :
    readFrom marked ("<!DOCTYPE ".toList ++ s ++ ['>'] ++ rest) =
      if s = [] then .failed .unnamedDoctype else .next (.doctype s) (readFrom marked rest) := by
  have hread := construct_doctype h rest
  rw [List.append_assoc, List.singleton_append]
  split at hread
  · next hs =>
    rw [if_pos hs]
    exact readFrom_error hread marked
  · next hs =>
    rw [if_neg hs]
    exact readFrom_construct hread rfl marked

/-- The written start tag of an element that holds no raw text is read as a start tag. -/
theorem readFrom_writtenTag {tag : Tag} (h : validElementName tag.name = true)
    (hraw : isRawText tag.name = false) (marked : Bool) (rest : List Char) :
    readFrom marked (tag.written ++ rest) =
      .next (.tag .opening tag.writtenText) (readFrom marked rest) := by
  rw [Tag.written_eq, List.cons_append, List.append_assoc, List.singleton_append]
  exact readFrom_construct (construct_writtenText h rest)
    (by rw [rawTextTag?, tagName_writtenText h, hraw, if_neg Bool.false_ne_true]) marked

/-- An element name has no bracket in it. -/
theorem not_mem_elementName {name : String} (h : validElementName name = true) :
    '<' ∉ '/' :: name.toList := by
  rw [List.mem_cons, not_or]
  exact ⟨by decide, fun hc => Bool.noConfusion (of_mem_elementName h hc).1⟩

/-- The content of a written raw-text element ends in front of its end tag, if it has none in it. -/
theorem rawContent_written {tag : Tag} (h : validElementName tag.name = true) {s : List Char}
    (hs : cutCaseless ('<' :: '/' :: tag.name.toList) s = none) (rest : List Char) :
    rawContent tag.name (s ++ tag.writtenEnd ++ rest) = (s, rest) := by
  have hcut := cutCaseless_append (not_mem_elementName h) hs ('>' :: rest)
  have hend : s ++ tag.writtenEnd ++ rest =
      s ++ '<' :: '/' :: tag.name.toList ++ '>' :: rest := by
    simp [Tag.writtenEnd]
  rw [rawContent, hend, hcut]
  simp

/-- This is so for the written form of raw text. -/
theorem rawElement_written {tag : Tag} (h : validElementName tag.name = true)
    (s rest : List Char) :
    rawElement false tag.writtenText (escapeRawText s ++ tag.writtenEnd ++ rest) =
      (escapeRawText s, rest) := by
  rw [rawElement, tagName_writtenText h, rawSource, if_neg Bool.false_ne_true,
    rawContent_written h (cutCaseless_escapeRawText _ s)]

/-! ### Fragments -/

theorem Node.written_element (tag : Tag) (children : List Node) :
    (Node.element tag children).written =
      if validElementName tag.name then
        tag.written ++
          if isVoid tag.name then []
          else if isRawText tag.name then Fragment.rawWritten children ++ tag.writtenEnd
          else Fragment.written children ++ tag.writtenEnd
      else Fragment.written children := by
  rw [Node.written.eq_def]

theorem Node.written_text (s : String) : (Node.text s).written = escapeText s.toList := by
  rw [Node.written.eq_def]

theorem Node.written_comment (s : String) :
    (Node.comment s).written = "<!--".toList ++ escapeComment s.toList ++ "-->".toList := by
  rw [Node.written.eq_def]

theorem Node.written_doctype (s : String) :
    (Node.doctype s).written = "<!DOCTYPE ".toList ++ s.toList ++ ['>'] := by
  rw [Node.written.eq_def]

theorem Fragment.written_append (f g : List Node) :
    Fragment.written (f ++ g) = Fragment.written f ++ Fragment.written g := by
  induction f with
  | nil => rfl
  | cons n f ih => rw [List.cons_append, Fragment.written, Fragment.written, ih, List.append_assoc]

/-- No byte-order mark is passed over in front of a text that does not begin with one. -/
theorem fst_passMark_eq_false_iff {s : List Char} :
    (passMark s).1 = false ↔ s.head? ≠ some byteOrderMark := by
  cases s with
  | nil => simp [passMark]
  | cons c s =>
    by_cases hc : c = byteOrderMark
    · simp [passMark, hc]
    · simp [passMark, hc]

/-- What is passed over in front of a text is a byte-order mark. -/
theorem eq_cons_of_passMark {s : List Char} (h : (passMark s).1 = true) :
    s = byteOrderMark :: (passMark s).2 := by
  cases s with
  | nil => cases h
  | cons c s =>
    by_cases hc : c = byteOrderMark
    · rw [passMark, if_pos hc, hc]
    · rw [passMark, if_neg hc] at h
      cases h

/-- A text without a byte-order mark in front is passed on as it is. -/
theorem passMark_eq_self {s : List Char} (h : (passMark s).1 = false) :
    passMark s = (false, s) := by
  cases s with
  | nil => rfl
  | cons c s =>
    by_cases hc : c = byteOrderMark
    · rw [passMark, if_pos hc] at h
      cases h
    · rw [passMark, if_neg hc]

/-- Behind texts that do not begin with a byte-order mark there is none in front. -/
private theorem passMark_escapeText {s rest : List Char} (h : s.head? ≠ some byteOrderMark)
    (hrest : (passMark rest).1 = false) : (passMark (escapeText s ++ rest)).1 = false := by
  cases s with
  | nil => exact hrest
  | cons c s =>
    rw [escapeText, List.flatMap_cons, List.append_assoc]
    unfold escapeTextChar
    split
    · rfl
    · rfl
    · rfl
    · rw [List.singleton_append, passMark, if_neg fun hc => h (congrArg some hc)]

mutual

/-- The written form of a node has no byte-order mark in front if no text has. -/
private theorem Node.passMark_written : ∀ {n : Node} {rest : List Char}, n.Each Node.IsUnmarked →
    (passMark rest).1 = false → (passMark (n.written ++ rest)).1 = false
  | .element tag children, rest, h, hrest => by
    rw [Node.Each] at h
    rw [Node.written_element]
    split
    · rw [Tag.written_eq]
      rfl
    · exact Fragment.passMark_written h.2 hrest
  | .text s, rest, h, hrest => by
    rw [Node.Each] at h
    rw [Node.written_text]
    exact passMark_escapeText h hrest
  | .comment s, _, _, _ => by
    rw [Node.written_comment]
    rfl
  | .doctype s, _, _, _ => by
    rw [Node.written_doctype]
    rfl

/-- The written form of a fragment has no byte-order mark in front if no text has. -/
theorem Fragment.passMark_written : ∀ {f : List Node} {rest : List Char},
    Fragment.Each Node.IsUnmarked f → (passMark rest).1 = false →
      (passMark (Fragment.written f ++ rest)).1 = false
  | [], _, _, hrest => by rwa [Fragment.written, List.nil_append]
  | n :: f, rest, h, hrest => by
    rw [Fragment.each_cons] at h
    rw [Fragment.written, List.append_assoc]
    exact Node.passMark_written h.1 (Fragment.passMark_written h.2 hrest)

end

theorem Fragment.lostMarks_cons {n : Node} {f : List Node} {rest : List Char} :
    Fragment.lostMarks rest (n :: f) =
      n.lostMarks (Fragment.written f ++ rest) + Fragment.lostMarks rest f := by
  rw [Fragment.lostMarks]

theorem Fragment.lostMarks_cons_eq_zero {n : Node} {f : List Node} {rest : List Char} :
    Fragment.lostMarks rest (n :: f) = 0 ↔
      n.lostMarks (Fragment.written f ++ rest) = 0 ∧ Fragment.lostMarks rest f = 0 := by
  rw [Fragment.lostMarks_cons, Nat.add_eq_zero_iff]

mutual

/-- No byte-order mark is written where reading starts anew in a node if no text has one in
front. -/
private theorem Node.lostMarks_of_isUnmarked : ∀ {n : Node} {rest : List Char},
    n.Each Node.IsUnmarked → (passMark rest).1 = false → n.lostMarks rest = 0
  | .element tag children, rest, h, hrest => by
    rw [Node.Each] at h
    rw [Node.lostMarks]
    split
    · split
      · rfl
      · split
        · rw [hrest, Bool.toNat_false]
        · -- What stands behind the children is the end tag, which begins with a bracket.
          exact Fragment.lostMarks_of_isUnmarked h.2 rfl
    · exact Fragment.lostMarks_of_isUnmarked h.2 hrest
  | .text s, _, _, _ => by rw [Node.lostMarks]
  | .comment s, _, _, _ => by rw [Node.lostMarks]
  | .doctype s, _, _, _ => by rw [Node.lostMarks]

/-- No byte-order mark is written where reading starts anew if no text has one in front. -/
theorem Fragment.lostMarks_of_isUnmarked : ∀ {f : List Node} {rest : List Char},
    Fragment.Each Node.IsUnmarked f → (passMark rest).1 = false → Fragment.lostMarks rest f = 0
  | [], _, _, _ => by rw [Fragment.lostMarks]
  | n :: f, _, h, hrest => by
    rw [Fragment.each_cons] at h
    rw [Fragment.lostMarks_cons_eq_zero]
    exact ⟨Node.lostMarks_of_isUnmarked h.1 (Fragment.passMark_written h.2 hrest),
      Fragment.lostMarks_of_isUnmarked h.2 hrest⟩

end

namespace Fragment.ReadsOn

variable {marked : Bool} {n : Node} {f : List Node} {rest : List Char} {tag : Tag}

/-- What stands behind the first node is the written form of the others and what follows. -/
theorem head (h : ReadsOn marked (n :: f) rest) :
    ReadsOn marked [n] (Fragment.written f ++ rest) := by
  rcases h with h | ⟨hm, h⟩
  · exact .inl (by simpa using (Fragment.each_cons.mp h).1)
  · rw [lostMarks_cons_eq_zero] at h
    refine .inr ⟨hm, lostMarks_cons_eq_zero.mpr ⟨?_, by rw [lostMarks]⟩⟩
    rw [Fragment.written, List.nil_append]
    exact h.1

theorem tail (h : ReadsOn marked (n :: f) rest) : ReadsOn marked f rest :=
  h.imp (fun h => (Fragment.each_cons.mp h).2) fun ⟨hm, h⟩ => ⟨hm, (lostMarks_cons_eq_zero.mp h).2⟩

/-- A node is read on if it has no raw text or no mark where reading starts anew. -/
private theorem of_singleton (h : ReadsOn marked [n] rest) :
    n.Each Node.IsRawFree ∨ (marked = false ∧ n.lostMarks rest = 0) := by
  refine h.imp (fun h => (Fragment.each_cons.mp h).1) fun ⟨hm, h⟩ => ⟨hm, ?_⟩
  have hn := (lostMarks_cons_eq_zero.mp h).1
  rwa [Fragment.written, List.nil_append] at hn

/-- Behind the children of an element stands its end tag. -/
theorem children (h : ReadsOn marked [.element tag f] rest)
    (hvalid : validElementName tag.name = true) (hvoid : isVoid tag.name = false)
    (hraw : isRawText tag.name = false) : ReadsOn marked f (tag.writtenEnd ++ rest) := by
  rcases h.of_singleton with h | ⟨hm, h⟩
  · rw [Node.Each] at h
    exact .inl h.2
  · rw [Node.lostMarks, if_pos hvalid, if_neg (Bool.eq_false_iff.mp hvoid),
      if_neg (Bool.eq_false_iff.mp hraw)] at h
    exact .inr ⟨hm, h⟩

/-- An element whose name is not valid has no end tag. -/
theorem children_of_not_valid (h : ReadsOn marked [.element tag f] rest)
    (hvalid : ¬validElementName tag.name = true) : ReadsOn marked f rest := by
  rcases h.of_singleton with h | ⟨hm, h⟩
  · rw [Node.Each] at h
    exact .inl h.2
  · rw [Node.lostMarks, if_neg hvalid] at h
    exact .inr ⟨hm, h⟩

/-- Behind a raw-text element there is no mark that could be passed over. -/
theorem passMark_eq (h : ReadsOn marked [.element tag f] rest)
    (hvalid : validElementName tag.name = true) (hvoid : isVoid tag.name = false)
    (hraw : isRawText tag.name = true) : marked = false ∧ passMark rest = (false, rest) := by
  rcases h.of_singleton with h | ⟨hm, h⟩
  · rw [Node.Each, Node.IsRawFree, hraw] at h
    exact Bool.noConfusion h.1
  · rw [Node.lostMarks, if_pos hvalid, if_neg (Bool.eq_false_iff.mp hvoid), if_pos hraw,
      Bool.toNat_eq_zero] at h
    exact ⟨hm, passMark_eq_self h⟩

end Fragment.ReadsOn

/-- What shows a text is that text, or nothing. -/
theorem textChildren_eq_nil_or (s : String) :
    textChildren s = [] ∨ ∃ t, textChildren s = [.text t] := by
  unfold textChildren
  split
  · exact .inl rfl
  · exact .inr ⟨s, rfl⟩

/-- One text is written as raw text by escaping it. -/
theorem Fragment.rawWritten_textChildren (s : String) :
    Fragment.rawWritten (textChildren s) = escapeRawText s.toList := by
  unfold textChildren
  split
  · next hs =>
    rw [String.isEmpty_iff] at hs
    rw [hs, Fragment.rawWritten]
    rfl
  · rw [Fragment.rawWritten, Fragment.rawWritten, List.append_nil]

/-- Raw text that can be read again is written as one escaped text. -/
private theorem exists_rawWritten_eq {children : List Node}
    (h : children = [] ∨ ∃ s, children = [.text s]) :
    ∃ s, Fragment.rawWritten children = escapeRawText s := by
  rcases h with rfl | ⟨s, rfl⟩
  · exact ⟨[], by rw [Fragment.rawWritten, escapeRawText]⟩
  · exact ⟨s.toList, by rw [Fragment.rawWritten, Fragment.rawWritten, List.append_nil]⟩

mutual

/-- The written form of a node is read as its tokens. -/
theorem Node.readFrom_written : ∀ {n : Node} {marked : Bool} {rest : List Char},
    n.Each Node.IsReadable → Fragment.ReadsOn marked [n] rest →
      readFrom marked (n.written ++ rest) = .prepend n.tokens (readFrom marked rest)
  | .element tag children, marked, rest, h, hon => by
    rw [Node.Each, Node.IsReadable] at h
    obtain ⟨hchildren, h⟩ := h
    rw [Node.written_element, Node.tokens]
    split
    · next hvalid =>
      split
      · -- A void element is its start tag.
        next hvoid =>
        rw [List.append_nil, readFrom_writtenTag hvalid (of_isVoid hvoid).2]
        rfl
      · next hvoid =>
        rw [Bool.not_eq_true] at hvoid
        split
        · -- A raw-text element is a single token, and reading starts anew behind it.
          next hraw =>
          obtain ⟨rfl, hpass⟩ := hon.passMark_eq hvalid hvoid hraw
          obtain ⟨s, hs⟩ := exists_rawWritten_eq (hchildren hraw)
          rw [hs, Tag.written_eq, List.cons_append, List.cons_append, List.append_assoc,
            List.append_assoc, List.singleton_append]
          rw [readFrom_rawElement (construct_writtenText hvalid _)
            (by rw [rawTextTag?, tagName_writtenText hvalid, if_pos hraw]),
            rawElement_written hvalid, hpass]
          rfl
        · -- Any other element has the tokens of its children between those of its tags.
          next hraw =>
          rw [Bool.not_eq_true] at hraw
          rw [List.append_assoc, readFrom_writtenTag hvalid hraw, List.append_assoc,
            Fragment.readFrom_written h (hon.children hvalid hvoid hraw),
            readFrom_writtenEnd hvalid]
          simp
    · -- Of an element without a valid name only the children are written.
      next hvalid => exact Fragment.readFrom_written h (hon.children_of_not_valid hvalid)
  | .text s, marked, rest, _, _ => by
    rw [Node.written_text, Node.tokens, readFrom_escapeText]
  | .comment s, marked, rest, _, _ => by
    rw [Node.written_comment, Node.tokens, readFrom_comment]
    rfl
  | .doctype s, marked, rest, h, _ => by
    rw [Node.Each, Node.IsReadable] at h
    obtain ⟨hwhole, hsome⟩ := h
    rw [Node.written_doctype, Node.tokens, readFrom_doctype hwhole, if_neg (by simpa using hsome)]
    rfl

/-- The written form of a fragment is read as its tokens. -/
theorem Fragment.readFrom_written : ∀ {f : List Node} {marked : Bool} {rest : List Char},
    Fragment.Each Node.IsReadable f → Fragment.ReadsOn marked f rest →
      readFrom marked (Fragment.written f ++ rest) =
        .prepend (Fragment.tokens f) (readFrom marked rest)
  | [], _, _, _, _ => by
    rw [Fragment.written, Fragment.tokens]
    rfl
  | n :: f, marked, rest, h, hon => by
    rw [Fragment.each_cons] at h
    rw [Fragment.written, Fragment.tokens, List.append_assoc,
      Node.readFrom_written h.1 hon.head, Fragment.readFrom_written h.2 hon.tail,
      Reading.prepend_append]

end

/-! ### Whole texts -/

/-- A readable fragment with no byte-order mark where reading starts is read as its tokens. -/
theorem read_written_of_readsOn {f : List Node} (h : Fragment.Each Node.IsReadable f)
    (hmark : (passMark (Fragment.written f)).1 = false) (hon : Fragment.ReadsOn false f []) :
    read (Fragment.written f) = .prepend (Fragment.tokens f) .done := by
  have hread := Fragment.readFrom_written h hon
  rw [List.append_nil, readFrom] at hread
  rw [read, passMark_eq_self hmark]
  exact hread

/-- A readable fragment in which no text has a byte-order mark in front is read as its tokens. -/
theorem read_written {f : List Node} (h : Fragment.Each Node.IsReadable f)
    (hmark : Fragment.Each Node.IsUnmarked f) :
    read (Fragment.written f) = .prepend (Fragment.tokens f) .done := by
  have hfront : (passMark (Fragment.written f ++ [])).1 = false :=
    Fragment.passMark_written hmark rfl
  rw [List.append_nil] at hfront
  exact read_written_of_readsOn h hfront
    (.inr ⟨rfl, Fragment.lostMarks_of_isUnmarked hmark rfl⟩)

/-- A readable fragment without raw text is read as its tokens, or as all but the first if that is a
byte-order mark. -/
theorem read_written_of_isRawFree {f : List Node} (h : Fragment.Each Node.IsReadable f)
    (hraw : Fragment.Each Node.IsRawFree f) :
    ∃ ts, read (Fragment.written f) = .prepend ts .done ∧
      (Fragment.tokens f = ts ∨ Fragment.tokens f = .character byteOrderMark :: ts) := by
  -- Without raw text it makes no difference whether the text is taken to have a mark.
  have hread (marked : Bool) :
      readFrom marked (Fragment.written f) = .prepend (Fragment.tokens f) .done := by
    have hon : Fragment.ReadsOn marked f [] := .inl hraw
    rw [← List.append_nil (Fragment.written f), Fragment.readFrom_written h hon, readFrom]
  rw [read]
  cases hw : Fragment.written f with
  | nil =>
    rw [hw] at hread
    exact ⟨_, hread false, .inl rfl⟩
  | cons c s =>
    rw [hw] at hread
    by_cases hc : c = byteOrderMark
    · -- The mark is the first token, and what is read is the rest.
      have htrue := hread true
      rw [hc, readFrom_character (by decide) (by decide)] at htrue
      rw [passMark, if_pos hc]
      cases hts : Fragment.tokens f with
      | nil =>
        rw [hts] at htrue
        cases htrue
      | cons t ts =>
        rw [hts, Reading.prepend_cons] at htrue
        obtain ⟨rfl, hrest⟩ := Reading.next.inj htrue
        exact ⟨ts, hrest, .inr rfl⟩
    · rw [passMark, if_neg hc]
      exact ⟨_, hread false, .inl rfl⟩

/-- A text that is read to its end is parsed as the assembly of its tokens. -/
theorem parse_of_read {markup : String} {ts : List Token}
    (h : read markup.toList = .prepend ts .done) :
    parse markup = .ok (ts.foldl Assembly.add {}).finish := by
  rw [parse, h, Assembly.addReading_eq, Reading.error?_prepend, Reading.tokens_prepend_done]
  rfl

end BoundMarkup.Markup
