import BoundMarkup.Proofs.Markup.Reread

/-!
# Byte-order marks are lost for good

A byte-order mark is a character like any other, but where reading starts it is passed over. So a
tree that is written and read again has no more of these marks than were written, and one less for
every place in the written form where reading starts and a mark comes next.

This is counted, since nothing simpler compares the two trees: what a mark was passed over in front
of may read its raw text from the middle of a start tag, or be lost altogether.

## Main definitions

* `marks`: how many byte-order marks a text has;
* `Token.marks`, `Assembly.marks`: how many are written for what a token adds, and for a tree under
  construction;
* `Loses k s`: reading the text `s` loses at least `k` of its marks.

## Main results

* `marks_parse_le`: a parsed tree has no more marks than its tokens;
* `Fragment.loses_written`: where reading starts in the written form of a fragment, marks are lost;
* `marks_parse_toHtml_le`: a tree that is written and read again has lost these marks.
-/

namespace BoundMarkup.Markup

open Text

/-- How many byte-order marks a text has. -/
def marks (s : List Char) : Nat := s.count byteOrderMark

@[simp]
theorem marks_nil : marks [] = 0 := rfl

@[simp]
theorem marks_append (s t : List Char) : marks (s ++ t) = marks s + marks t := List.count_append

theorem marks_cons (c : Char) (s : List Char) : marks (c :: s) = marks [c] + marks s :=
  marks_append [c] s

theorem marks_eq_zero {s : List Char} (h : byteOrderMark ∉ s) : marks s = 0 :=
  List.count_eq_zero.mpr h

/-- A mark in front of a text is one of its marks. -/
theorem marks_passMark (s : List Char) :
    (passMark s).1.toNat + marks (passMark s).2 = marks s := by
  cases s with
  | nil => rfl
  | cons c s =>
    rw [passMark]
    split
    · next hc =>
      rw [hc, marks_cons]
      rfl
    · exact Nat.zero_add _

/-! ### What is written -/

@[simp]
theorem marks_escapeText (s : List Char) : marks (escapeText s) = marks s := by
  have hchar (c : Char) : marks (escapeTextChar c) = marks [c] := by
    unfold escapeTextChar
    split <;> rfl
  induction s with
  | nil => rfl
  | cons c s ih =>
    rw [escapeText, List.flatMap_cons, marks_append, hchar, marks_cons c s]
    exact congrArg _ ih

@[simp]
theorem marks_escapeComment (s : List Char) : marks (escapeComment s) = marks s := by
  fun_induction escapeComment s with
  | case1 s ih =>
    have hmark : marks ('-' :: '-' :: '>' :: s) = marks s :=
      (marks_append ['-', '-', '>'] s).trans (Nat.zero_add _)
    rw [marks_append, ih, hmark]
    exact Nat.zero_add _
  | case2 c s h ih => rw [marks_cons, ih, ← marks_cons]
  | case3 => rfl

@[simp]
theorem marks_escapeRawText (s : List Char) : marks (escapeRawText s) = marks s := by
  fun_induction escapeRawText s with
  | case1 s ih =>
    have hmark : marks ('<' :: '/' :: s) = marks s :=
      (marks_append ['<', '/'] s).trans (Nat.zero_add _)
    have hescaped := marks_append ['<', '\\', '/'] (escapeRawText s)
    rw [ih] at hescaped
    rw [hmark]
    exact hescaped.trans (Nat.zero_add _)
  | case2 c s h ih => rw [marks_cons, ih, ← marks_cons]
  | case3 => rfl

theorem marks_comment (s : List Char) :
    marks ("<!--".toList ++ escapeComment s ++ "-->".toList) = marks s := by
  have hopen : marks "<!--".toList = 0 := by decide
  have hclose : marks "-->".toList = 0 := by decide
  rw [marks_append, marks_append, marks_escapeComment, hopen, hclose, Nat.zero_add, Nat.add_zero]

theorem marks_doctype (s : List Char) :
    marks ("<!DOCTYPE ".toList ++ s ++ ['>']) = marks s := by
  have hopen : marks "<!DOCTYPE ".toList = 0 := by decide
  have hclose : marks ['>'] = 0 := by decide
  rw [marks_append, marks_append, hopen, hclose, Nat.zero_add, Nat.add_zero]

/-- There is no mark in an end tag. -/
theorem marks_writtenEnd {tag : Tag} (h : validElementName tag.name = true) :
    marks tag.writtenEnd = 0 := by
  have hname : byteOrderMark ∉ tag.name.toList := by
    intro hc
    obtain ⟨-, -, -, -, hall⟩ := exists_of_validElementName h
    exact absurd (hall byteOrderMark hc) (by decide)
  have hparts : tag.writtenEnd = ['<', '/'] ++ tag.name.toList ++ ['>'] := rfl
  rw [hparts, marks_append, marks_append, marks_eq_zero hname]
  rfl

/-- Raw text has the marks of the same nodes as markup. -/
theorem marks_rawWritten (f : List Node) :
    marks (Fragment.rawWritten f) = marks (Fragment.written f) := by
  induction f with
  | nil => rw [Fragment.rawWritten, Fragment.written]
  | cons n f ih =>
    cases n with
    | text s => simp [Fragment.rawWritten, Fragment.written, Node.written_text, ih]
    | element tag children => simp [Fragment.rawWritten, Fragment.written, ih]
    | comment s => simp [Fragment.rawWritten, Fragment.written, ih]
    | doctype s => simp [Fragment.rawWritten, Fragment.written, ih]

theorem marks_written_cons (n : Node) (f : List Node) :
    marks (Fragment.written (n :: f)) = marks n.written + marks (Fragment.written f) := by
  rw [Fragment.written, marks_append]

@[simp]
theorem marks_written_reverse (f : List Node) :
    marks (Fragment.written f.reverse) = marks (Fragment.written f) := by
  induction f with
  | nil => rfl
  | cons n f ih =>
    rw [List.reverse_cons, Fragment.written_append, marks_append, ih, marks_written_cons,
      marks_written_cons, Fragment.written, marks_nil, Nat.add_zero, Nat.add_comm]

/-- An element has the marks of its start tag and those of its children, as far as these are
written. -/
theorem marks_written_element_le (tag : Tag) (children : List Node) :
    marks (Node.element tag children).written ≤
      marks tag.written + marks (Fragment.written children) := by
  rw [Node.written_element]
  split
  · next hvalid =>
    rw [marks_append]
    refine Nat.add_le_add_left ?_ _
    -- The children of a void element are not written; otherwise there is an end tag behind them.
    split
    · exact Nat.zero_le _
    · split
      · rw [marks_append, marks_writtenEnd hvalid, marks_rawWritten, Nat.add_zero]
      · rw [marks_append, marks_writtenEnd hvalid, Nat.add_zero]
  · exact Nat.le_add_left _ _

/-! ### Assembling -/

/-- The marks of an open element's start tag and of the nodes in front of it. -/
def OpenElement.marks (e : OpenElement) : Nat :=
  Markup.marks e.tag.written + Markup.marks (Fragment.written e.before)

namespace Assembly

/-- The marks of a tree under construction. -/
def marks (a : Assembly) : Nat :=
  Markup.marks (Fragment.written a.nodes) + a.enclosing.foldr (·.marks + ·) 0

variable {a : Assembly}

@[simp]
theorem marks_empty : marks {} = 0 := rfl

@[simp]
theorem marks_append (n : Node) : (a.append n).marks = a.marks + Markup.marks n.written := by
  simp only [marks, append, marks_written_cons]
  omega

@[simp]
theorem marks_appendText (s : String) :
    (a.appendText s).marks = a.marks + Markup.marks s.toList := by
  unfold appendText
  split
  · next hs =>
    rw [String.isEmpty_iff] at hs
    rw [hs]
    rfl
  · split
    · next t rest hnodes =>
      simp only [marks, hnodes, marks_written_cons, Node.written_text, marks_escapeText,
        String.toList_append, Markup.marks_append]
      omega
    · simp only [marks, marks_written_cons, Node.written_text, marks_escapeText]
      omega

@[simp]
theorem marks_openElement (tag : Tag) :
    (a.openElement tag).marks = a.marks + Markup.marks tag.written := by
  have hnone : Markup.marks (Fragment.written []) = 0 := rfl
  simp only [marks, openElement, OpenElement.marks, List.foldr_cons, hnone]
  omega

/-- Closing an element adds no marks. -/
theorem marks_closed_le (e : OpenElement) (nodes : List Node) :
    Markup.marks (Fragment.written (e.closed nodes)) ≤
      Markup.marks (Fragment.written nodes) + e.marks := by
  have hle := marks_written_element_le e.tag nodes.reverse
  rw [marks_written_reverse] at hle
  rw [OpenElement.closed, marks_written_cons, OpenElement.marks]
  omega

theorem marks_le_of_closed? {name : String} {nodes : List Node} {enclosing : List OpenElement}
    {b : Assembly} (h : closed? name nodes enclosing = some b) :
    b.marks ≤ marks { nodes, enclosing } := by
  induction enclosing generalizing nodes with
  | nil => cases h
  | cons e outer ih =>
    have hstep : marks { nodes := e.closed nodes, enclosing := outer } ≤
        marks { nodes, enclosing := e :: outer } := by
      have hclosed := marks_closed_le e nodes
      simp only [marks, List.foldr_cons]
      omega
    rw [closed?] at h
    split at h
    · cases h
      exact hstep
    · exact (ih h).trans hstep

theorem marks_close_le (name : String) : (a.close name).marks ≤ a.marks := by
  unfold close
  cases h : closed? name a.nodes a.enclosing with
  | none => exact Nat.le_refl _
  | some b => exact marks_le_of_closed? h

theorem marks_foldl_closed_le (nodes : List Node) (enclosing : List OpenElement) :
    Markup.marks (Fragment.written (enclosing.foldl (fun nodes e => e.closed nodes) nodes)) ≤
      marks { nodes, enclosing } := by
  induction enclosing generalizing nodes with
  | nil => exact Nat.le_refl _
  | cons e outer ih =>
    have hclosed := marks_closed_le e nodes
    refine (ih (e.closed nodes)).trans ?_
    simp only [marks, List.foldr_cons]
    omega

theorem marks_finish_le : Markup.marks (Fragment.written a.finish) ≤ a.marks := by
  rw [finish, marks_written_reverse]
  exact marks_foldl_closed_le a.nodes a.enclosing

/-- A tag adds its marks wherever it is added. -/
theorem marks_appendTag (form : TagForm) (tag : Tag) :
    (a.appendTag form tag).marks = a.marks + (({} : Assembly).appendTag form tag).marks := by
  unfold appendTag
  split
  · split
    · simp
    · simp
  · simp
  · simp

end Assembly

/-! ### Reading -/

/-- The marks of what a token adds. -/
def Token.marks (t : Token) : Nat := (({} : Assembly).add t).marks

/-- The marks of what is read, up to where reading fails. -/
def Reading.marks : Reading → Nat
  | .next token rest => token.marks + rest.marks
  | _ => 0

namespace Assembly

variable {a b : Assembly}

/-- A token adds no marks but its own. -/
theorem marks_add_le (t : Token) : (a.add t).marks ≤ a.marks + t.marks := by
  cases t with
  | character c => simp [Token.marks, add]
  | reference name => simp [Token.marks, add]
  | literal text => simp [Token.marks, add]
  | tag form content =>
    simp only [Token.marks, add]
    split
    · exact (marks_appendTag form _).le
    · simp
  | closing name => exact (marks_close_le _).trans (Nat.le_add_right _ _)
  | comment text => simp [Token.marks, add]
  | doctype text => simp [Token.marks, add]
  | instruction text => exact Nat.le_add_right _ _

theorem marks_addReading_le {r : Reading} (h : a.addReading r = .ok b) :
    b.marks ≤ a.marks + r.marks := by
  induction r generalizing a with
  | done =>
    cases h
    exact Nat.le_add_right _ _
  | failed e => cases h
  | next t r ih =>
    have hadd := marks_add_le (a := a) t
    have hrest := ih h
    rw [Reading.marks]
    omega

end Assembly

/-- A parsed tree has no more marks than its tokens. -/
theorem marks_parse_le {markup : String} {f : Fragment} (h : parse markup = .ok f) :
    marks (Fragment.written f) ≤ (read markup.toList).marks := by
  obtain ⟨a, ha, rfl⟩ := exists_addReading_of_parse h
  have hadd := Assembly.marks_addReading_le ha
  rw [Assembly.marks_empty, Nat.zero_add] at hadd
  exact Assembly.marks_finish_le.trans hadd

namespace Reading

@[simp]
theorem marks_done : marks done = 0 := rfl

@[simp]
theorem marks_failed (e : MarkupError) : marks (failed e) = 0 := rfl

@[simp]
theorem marks_next (t : Token) (r : Reading) : marks (next t r) = t.marks + r.marks := rfl

end Reading

/-! ### Single tokens -/

/-- A character of text is written as a token with the same marks. -/
theorem marks_textToken (c : Char) : (textToken c).marks = marks [c] := by
  unfold textToken
  split
  · next hc =>
    rw [hc]
    rfl
  · split
    · next hc =>
      rw [hc]
      rfl
    · split
      · next hc =>
        rw [hc]
        rfl
      · simp [Token.marks, Assembly.add]

/-- A start tag that is written and read has its marks. -/
theorem marks_opening {tag : Tag} (h : tag.IsNormal) :
    (Token.tag .opening tag.writtenText).marks = marks tag.written := by
  rw [Token.marks, Assembly.add, ofText?_writtenText h.name, h.readBack_eq]
  dsimp only
  rw [Assembly.appendTag]
  split
  · next hvoid => simp [Node.written_element, h.name, hvoid]
  · simp

/-- A raw-text element has the marks of its start tag and its text. -/
theorem marks_raw {tag : Tag} (h : tag.IsNormal) (hraw : isRawText tag.name = true)
    (content : List Char) :
    (Token.tag (.raw content) tag.writtenText).marks = marks tag.written + marks content := by
  rw [Token.marks, Assembly.add, ofText?_writtenText h.name, h.readBack_eq]
  simp [Assembly.appendTag, Node.written_element, h.name, isVoid_eq_false hraw, hraw,
    marks_writtenEnd h.name, Fragment.rawWritten_textChildren]

/-! ### Texts -/

/-- At least `k` of the byte-order marks of a text are not among those of what is read, whether one
was passed over in front of the text or not. -/
def Loses (k : Nat) (s : List Char) : Prop :=
  ∀ marked, (readFrom marked s).marks + k ≤ marks s

namespace Loses

variable {k : Nat} {s rest : List Char}

theorem nil : Loses 0 [] := by
  intro marked
  rw [readFrom]
  exact Nat.le_refl _

theorem le_marks (h : Loses k s) : k ≤ marks s := (Nat.le_add_left _ _).trans (h false)

/-- Where a mark is passed over, as many of the others are lost as before. -/
theorem passMark (h : Loses k s) : Loses k (passMark s).2 := by
  cases s with
  | nil => exact h
  | cons c s =>
    rw [Markup.passMark]
    split
    · next hc =>
      -- Without being passed over, the mark would have been read as text.
      intro marked
      have hread := h marked
      have hone : (Token.character byteOrderMark).marks = 1 := rfl
      rw [hc, readFrom_character (by decide) (by decide), Reading.marks_next, hone,
        marks_cons] at hread
      have hmark : marks [byteOrderMark] = 1 := rfl
      dsimp only
      omega
    · exact h

/-- A token in front of a text has its marks in the text too. -/
theorem next (h : Loses k rest) {t : Token}
    (hread : ∀ marked, readFrom marked s = .next t (readFrom marked rest))
    (hmarks : t.marks + marks rest = marks s) : Loses k s := by
  intro marked
  have hle := h marked
  rw [hread, Reading.marks_next]
  omega

theorem escapeText (h : Loses k rest) (s : List Char) : Loses k (escapeText s ++ rest) := by
  induction s with
  | nil => exact h
  | cons c s ih =>
    have hcons : Markup.escapeText (c :: s) ++ rest =
        escapeTextChar c ++ (Markup.escapeText s ++ rest) := by
      rw [Markup.escapeText, List.flatMap_cons, List.append_assoc]
      rfl
    refine ih.next (t := textToken c) (fun marked => ?_) ?_
    · rw [hcons, readFrom_escapeTextChar]
    · rw [marks_textToken, marks_append, marks_append, marks_escapeText, marks_escapeText,
        marks_cons c s, Nat.add_assoc]

theorem writtenTag (h : Loses k rest) {tag : Tag} (htag : tag.IsNormal)
    (hraw : isRawText tag.name = false) : Loses k (tag.written ++ rest) := by
  refine h.next (readFrom_writtenTag htag.name hraw · rest) ?_
  rw [marks_opening htag, marks_append]

theorem writtenEnd (h : Loses k rest) {tag : Tag} (htag : tag.IsNormal) :
    Loses k (tag.writtenEnd ++ rest) := by
  refine h.next (readFrom_writtenEnd htag.name · rest) ?_
  rw [marks_append, marks_writtenEnd htag.name]
  rfl

theorem comment (h : Loses k rest) (s : List Char) :
    Loses k ("<!--".toList ++ escapeComment s ++ "-->".toList ++ rest) := by
  refine h.next (readFrom_comment s · rest) ?_
  have htoken : (Token.comment (escapeComment s)).marks = marks s := by
    rw [Token.marks, Assembly.add, Assembly.marks_append, Node.written_comment, marks_comment,
      String.toList_ofList, marks_escapeComment]
    exact Nat.zero_add _
  rw [marks_append, marks_comment, htoken]

/-- Where a declaration is refused, nothing more is read. -/
theorem doctype (h : Loses k rest) {s : List Char} (hs : IsDeclaration s) :
    Loses k ("<!DOCTYPE ".toList ++ s ++ ['>'] ++ rest) := by
  by_cases hempty : s = []
  · intro marked
    have hle := h.le_marks
    rw [readFrom_doctype hs, if_pos hempty, Reading.marks_failed, marks_append]
    omega
  · refine h.next (t := .doctype s) (fun marked => ?_) ?_
    · rw [readFrom_doctype hs, if_neg hempty]
    · have htoken : (Token.doctype s).marks = marks s := by
        rw [Token.marks, Assembly.add, Assembly.marks_append, Node.written_doctype, marks_doctype,
          String.toList_ofList]
        exact Nat.zero_add _
      rw [marks_append, marks_doctype, htoken]

/-- Behind an element that holds raw text, reading starts anew, and a mark that comes next is lost
too. -/
theorem rawElement (h : Loses k rest) {tag : Tag} (htag : tag.IsNormal)
    (hraw : isRawText tag.name = true) {s : List Char}
    (hs : cutCaseless ('<' :: '/' :: tag.name.toList) s = none) :
    Loses ((Markup.passMark rest).1.toNat + k)
      (tag.written ++ (s ++ tag.writtenEnd ++ rest)) := by
  intro marked
  have hopens : rawTextTag? (.tag .opening tag.writtenText) = some tag.writtenText := by
    rw [rawTextTag?, tagName_writtenText htag.name, if_pos hraw]
  have hmark := marks_passMark rest
  rw [marks_append, marks_append, marks_append, marks_writtenEnd htag.name, Tag.written_eq,
    List.cons_append, List.append_assoc, List.singleton_append,
    readFrom_rawElement (construct_writtenText htag.name _) hopens, Reading.marks_next,
    marks_raw htag hraw]
  rcases rawElement_written_eq_or htag.name hs marked rest with ⟨lead, hlead, heq⟩ | heq
  · -- What comes in front of the raw text has no mark, and the rest is read without the one that
    -- comes next.
    have hread := h.passMark (Markup.passMark rest).1
    rw [heq, marks_append, marks_eq_zero hlead, ← Tag.written_eq]
    dsimp only
    omega
  · -- All that follows is lost, and with it the marks.
    have hle := h.passMark.le_marks
    have hnone : readFrom (Markup.passMark []).1 (Markup.passMark []).2 = .done := by
      rw [Markup.passMark, readFrom]
    rw [heq, hnone, Reading.marks_done, marks_nil, ← Tag.written_eq]
    omega

end Loses

/-! ### Fragments -/

mutual

/-- Where reading starts inside a sound and plain node or behind it, marks are lost. -/
theorem Node.loses_written : ∀ {n : Node} {rest : List Char} {k : Nat}, n.Each Node.IsSound →
    n.Each Node.IsPlain → Loses k rest → Loses (n.lostMarks rest + k) (n.written ++ rest)
  | .element tag children, rest, k, hsound, hplain, h => by
    rw [Node.Each] at hsound hplain
    obtain ⟨htag, hsound⟩ := hsound
    rw [Node.IsSound] at htag
    rw [Node.written_element, Node.lostMarks, if_pos htag.name, if_pos htag.name,
      List.append_assoc]
    by_cases hvoid : isVoid tag.name = true
    · rw [if_pos hvoid, if_pos hvoid, Nat.zero_add]
      exact h.writtenTag htag (of_isVoid hvoid).2
    · rw [if_neg hvoid, if_neg hvoid]
      by_cases hraw : isRawText tag.name = true
      · -- Here reading starts anew, and nothing in the raw text ends it early.
        obtain ⟨s, rfl⟩ := hplain.1 hraw
        rw [if_pos hraw, if_pos hraw, Fragment.rawWritten_textChildren]
        exact h.rawElement htag hraw (cutCaseless_escapeRawText _ _)
      · rw [if_neg hraw, if_neg hraw, List.append_assoc]
        exact (Fragment.loses_written hsound hplain.2 (h.writtenEnd htag)).writtenTag htag
          (Bool.eq_false_iff.mpr hraw)
  | .text s, rest, k, _, _, h => by
    rw [Node.written_text, Node.lostMarks, Nat.zero_add]
    exact h.escapeText s.toList
  | .comment s, rest, k, _, _, h => by
    rw [Node.written_comment, Node.lostMarks, Nat.zero_add]
    exact h.comment s.toList
  | .doctype s, rest, k, hsound, _, h => by
    rw [Node.Each, Node.IsSound] at hsound
    rw [Node.written_doctype, Node.lostMarks, Nat.zero_add]
    exact h.doctype hsound

/-- Where reading starts inside a sound and plain fragment or behind it, marks are lost. -/
theorem Fragment.loses_written : ∀ {f : List Node} {rest : List Char} {k : Nat},
    Fragment.Each Node.IsSound f → Fragment.Each Node.IsPlain f → Loses k rest →
      Loses (Fragment.lostMarks rest f + k) (Fragment.written f ++ rest)
  | [], rest, k, _, _, h => by
    rw [Fragment.written, Fragment.lostMarks, Nat.zero_add]
    exact h
  | n :: f, rest, k, hsound, hplain, h => by
    rw [Fragment.each_cons] at hsound hplain
    have hf := Fragment.loses_written hsound.2 hplain.2 h
    rw [Fragment.written, Fragment.lostMarks_cons, List.append_assoc, Nat.add_assoc]
    exact Node.loses_written hsound.1 hplain.1 hf

end

/-- A tree that is written and read again has lost the marks that stand where reading starts. -/
theorem marks_parse_toHtml_le {f g : Fragment} (hsound : Fragment.Each Node.IsSound f)
    (hplain : Fragment.Each Node.IsPlain f) (hg : parse (Fragment.toHtml f) = .ok g) :
    marks (Fragment.written g) + (passMark (Fragment.written f)).1.toNat +
      Fragment.lostMarks [] f ≤ marks (Fragment.written f) := by
  have hloses := Fragment.loses_written hsound hplain Loses.nil
  rw [List.append_nil, Nat.add_zero] at hloses
  -- Reading starts in front of the text too.
  have hread := hloses.passMark (passMark (Fragment.written f)).1
  have hmark := marks_passMark (Fragment.written f)
  have hle := marks_parse_le hg
  rw [Fragment.toHtml, String.toList_ofList, read] at hle
  omega

end BoundMarkup.Markup
