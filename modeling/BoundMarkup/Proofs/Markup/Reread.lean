import BoundMarkup.Proofs.Markup.LeadingMark
import BoundMarkup.Proofs.Markup.Order

/-!
# Written markup shows no further element

When the written form of a fragment is read, every element that is read is one of the fragment, and
they come in the same order. Some may be missing: the children of a void element are not written,
and raw text hides what is in it. That none is added rests on the escapes, and for raw text on
nothing in it being taken for the end tag, since what follows an end tag is read as markup.

A reading is compared with the fragment from its end on: if the text behind a node shows some tags
only, then with the node in front of it, it shows no others than these and those of the node.

## Main definitions

* `Node.IsSealed`: an element whose raw text, if it holds any, has no end tag in it;
* `ShowsOnly`: a text in which certain tags only are read, in order.

## Main results

* `Fragment.showsOnly_written`: writing a sound and sealed fragment in front of a text adds its
  tags only;
* `tags_sublist_of_parse_toHtml`: the tags that are read from the written form of a sound and sealed
  fragment are among those of the fragment, in the same order.
-/

namespace BoundMarkup.Markup

open Text

/-- A node that is no element, or an element whose raw text, if it holds any, has no end tag in it
when it is written. -/
def Node.IsSealed : Node → Prop
  | .element tag children =>
    isRawText tag.name = true →
      cutCaseless ('<' :: '/' :: tag.name.toList) (Fragment.rawWritten children) = none
  | .text _ => True
  | .comment _ => True
  | .doctype _ => True

/-- A text in which certain tags only are read, in this order, whether a byte-order mark was passed
over in front of it or not. -/
def ShowsOnly (s : List Char) (tags : List Tag) : Prop :=
  ∀ marked, ((readFrom marked s).tags).Sublist tags

namespace Reading

@[simp]
theorem tags_done : tags done = [] := rfl

@[simp]
theorem tags_failed (e : MarkupError) : tags (failed e) = [] := rfl

@[simp]
theorem tags_next (t : Token) (r : Reading) : tags (next t r) = t.tags ++ tags r := rfl

@[simp]
theorem tags_prepend (ts : List Token) (r : Reading) :
    tags (prepend ts r) = ts.flatMap Token.tags ++ tags r := by
  induction ts with
  | nil => rfl
  | cons t ts ih => rw [prepend_cons, tags_next, ih, List.flatMap_cons, List.append_assoc]

end Reading

/-! ### Single nodes -/

/-- A written raw-text element with no end tag in it is read up to its end tag. If a byte-order mark
was passed over before, a piece of the start tag without such a mark comes in front, or all is lost
because it would begin inside a character. -/
theorem rawElement_written_eq_or {tag : Tag} (h : validElementName tag.name = true) {s : List Char}
    (hs : cutCaseless ('<' :: '/' :: tag.name.toList) s = none) (marked : Bool)
    (rest : List Char) :
    (∃ lead, byteOrderMark ∉ lead ∧
        rawElement marked tag.writtenText (s ++ tag.writtenEnd ++ rest) = (lead ++ s, rest)) ∨
      rawElement marked tag.writtenText (s ++ tag.writtenEnd ++ rest) = ([], []) := by
  have hread : rawElement false tag.writtenText (s ++ tag.writtenEnd ++ rest) = (s, rest) := by
    rw [rawElement, tagName_writtenText h, rawSource, if_neg Bool.false_ne_true,
      rawContent_written h hs]
  cases marked with
  | false => exact .inl ⟨[], List.not_mem_nil, hread⟩
  | true =>
    have hname : validElementName (tagName tag.writtenText) = true := by
      rwa [tagName_writtenText h]
    rw [rawElement_true hname, hread]
    cases hlead : lead? tag.writtenText with
    | some lead => exact .inl ⟨lead, not_mem_of_lead? hlead, rfl⟩
    | none => exact .inr rfl

/-! ### Texts -/

namespace ShowsOnly

variable {s rest : List Char} {tags : List Tag}

theorem nil (tags : List Tag) : ShowsOnly [] tags := by
  intro marked
  rw [readFrom]
  exact List.nil_sublist tags

theorem mono {tags' : List Tag} (h : ShowsOnly s tags) (hsub : tags.Sublist tags') :
    ShowsOnly s tags' := fun marked => (h marked).trans hsub

/-- A byte-order mark in front of a text is no element. -/
theorem passMark (h : ShowsOnly s tags) : ShowsOnly (passMark s).2 tags := by
  cases s with
  | nil => exact h
  | cons c s =>
    rw [Markup.passMark]
    split
    · next hc =>
      intro marked
      have hread := h marked
      rwa [hc, readFrom_character (by decide) (by decide)] at hread
    · exact h

theorem escapeText (h : ShowsOnly rest tags) (s : List Char) :
    ShowsOnly (escapeText s ++ rest) tags := by
  have htoken (c : Char) : (textToken c).tags = [] := by
    unfold textToken
    split
    · rfl
    · split
      · rfl
      · split <;> rfl
  have htokens : (s.map textToken).flatMap Token.tags = [] := by
    simp [List.flatMap_map, htoken]
  intro marked
  rw [readFrom_escapeText, Reading.tags_prepend, htokens]
  exact h marked

/-- A token in front of a text shows what it stands for. -/
theorem next (h : ShowsOnly rest tags) {t : Token}
    (hread : ∀ marked, readFrom marked s = .next t (readFrom marked rest)) :
    ShowsOnly s (t.tags ++ tags) := by
  intro marked
  rw [hread, Reading.tags_next]
  exact (h marked).append_left t.tags

/-- The start tag of an element that holds no raw text shows just this element. -/
theorem writtenTag (h : ShowsOnly rest tags) {tag : Tag} (htag : tag.IsNormal)
    (hraw : isRawText tag.name = false) : ShowsOnly (tag.written ++ rest) (tag :: tags) := by
  have hshown : Token.tags (.tag .opening tag.writtenText) = [tag] := by
    rw [Token.tags, ofText?_writtenText htag.name, htag.readBack_eq]
    rfl
  have htags := h.next (readFrom_writtenTag htag.name hraw · rest)
  rwa [hshown, List.singleton_append] at htags

/-- Where a declaration is refused, nothing more is read. -/
theorem doctype (h : ShowsOnly rest tags) {s : List Char} (hs : IsDeclaration s) :
    ShowsOnly ("<!DOCTYPE ".toList ++ s ++ ['>'] ++ rest) tags := by
  by_cases hempty : s = []
  · intro marked
    rw [readFrom_doctype hs, if_pos hempty, Reading.tags_failed]
    exact List.nil_sublist tags
  · exact h.next (t := .doctype s) fun marked => by rw [readFrom_doctype hs, if_neg hempty]

/-- An element that holds raw text without an end tag in it shows just this element. -/
theorem rawElement (h : ShowsOnly rest tags) {tag : Tag} (htag : tag.IsNormal)
    (hraw : isRawText tag.name = true) {s : List Char}
    (hs : cutCaseless ('<' :: '/' :: tag.name.toList) s = none) :
    ShowsOnly (tag.written ++ (s ++ tag.writtenEnd ++ rest)) (tag :: tags) := by
  intro marked
  have hopens : rawTextTag? (.tag .opening tag.writtenText) = some tag.writtenText := by
    rw [rawTextTag?, tagName_writtenText htag.name, if_pos hraw]
  have hshown (form : TagForm) : Token.tags (.tag form tag.writtenText) = [tag] := by
    rw [Token.tags, ofText?_writtenText htag.name, htag.readBack_eq]
    rfl
  rw [Tag.written_eq, List.cons_append, List.append_assoc, List.singleton_append,
    readFrom_rawElement (construct_writtenText htag.name _) hopens, Reading.tags_next, hshown]
  refine List.Sublist.cons_cons tag ?_
  -- Reading starts anew behind the end tag, where a byte-order mark is passed over.
  rcases rawElement_written_eq_or htag.name hs marked rest with ⟨lead, -, hrest⟩ | hnil
  · rw [hrest]
    exact h.passMark _
  · rw [hnil]
    exact (ShowsOnly.nil tags).passMark _

end ShowsOnly

/-! ### Fragments -/

mutual

/-- Writing a sound and sealed node in front of a text adds its tags only. -/
theorem Node.showsOnly_written : ∀ {n : Node} {rest : List Char} {tags : List Tag},
    n.Each Node.IsSound → n.Each Node.IsSealed → ShowsOnly rest tags →
      ShowsOnly (n.written ++ rest) (Fragment.tags [n] ++ tags)
  | .element tag children, rest, tags, hsound, hsealed, h => by
    rw [Node.Each, Node.IsSound] at hsound
    rw [Node.Each, Node.IsSealed] at hsealed
    obtain ⟨htag, hchildren⟩ := hsound
    rw [Node.written_element, if_pos htag.name, Fragment.tags_element, Fragment.tags_nil,
      List.append_nil, List.cons_append, List.append_assoc]
    by_cases hvoid : isVoid tag.name = true
    · -- The children of a void element are not written.
      rw [if_pos hvoid, List.nil_append]
      exact (h.mono (List.sublist_append_right _ tags)).writtenTag htag (of_isVoid hvoid).2
    · rw [if_neg hvoid]
      by_cases hraw : isRawText tag.name = true
      · -- What is inside a raw-text element is text, whatever it is.
        rw [if_pos hraw]
        exact (h.mono (List.sublist_append_right _ tags)).rawElement htag hraw (hsealed.1 hraw)
      · -- Any other element has its children between its tags, and what follows behind the end tag.
        rw [if_neg hraw, List.append_assoc]
        have hend : ShowsOnly (tag.writtenEnd ++ rest) tags :=
          h.next (readFrom_writtenEnd htag.name · rest)
        exact (Fragment.showsOnly_written hchildren hsealed.2 hend).writtenTag htag
          (Bool.eq_false_iff.mpr hraw)
  | .text s, rest, tags, _, _, h => by
    rw [Node.written_text, Fragment.tags_text, Fragment.tags_nil, List.nil_append]
    exact h.escapeText s.toList
  | .comment s, rest, tags, _, _, h => by
    rw [Node.written_comment, Fragment.tags_comment, Fragment.tags_nil, List.nil_append]
    exact h.next (readFrom_comment s.toList · rest)
  | .doctype s, rest, tags, hsound, _, h => by
    rw [Node.Each, Node.IsSound] at hsound
    rw [Node.written_doctype, Fragment.tags_doctype, Fragment.tags_nil, List.nil_append]
    exact h.doctype hsound

/-- Writing a sound and sealed fragment in front of a text adds its tags only. -/
theorem Fragment.showsOnly_written : ∀ {f : List Node} {rest : List Char} {tags : List Tag},
    Fragment.Each Node.IsSound f → Fragment.Each Node.IsSealed f → ShowsOnly rest tags →
      ShowsOnly (Fragment.written f ++ rest) (Fragment.tags f ++ tags)
  | [], rest, tags, _, _, h => by
    rw [Fragment.written, Fragment.tags_nil]
    exact h
  | n :: f, rest, tags, hsound, hsealed, h => by
    rw [Fragment.each_cons] at hsound hsealed
    have hf := Fragment.showsOnly_written hsound.2 hsealed.2 h
    have hn := Node.showsOnly_written hsound.1 hsealed.1 hf
    have htags : Fragment.tags (n :: f) = Fragment.tags [n] ++ Fragment.tags f :=
      Fragment.tags_append [n] f
    rw [Fragment.written, List.append_assoc, htags, List.append_assoc]
    exact hn

end

/-- The tags that are read from the written form of a sound and sealed fragment are among those of
the fragment, in the same order. -/
theorem tags_sublist_of_parse_toHtml {f g : Fragment} (hsound : Fragment.Each Node.IsSound f)
    (hsealed : Fragment.Each Node.IsSealed f) (hg : parse (Fragment.toHtml f) = .ok g) :
    (Fragment.tags g).Sublist (Fragment.tags f) := by
  -- Behind the fragment there is nothing.
  have hshows := Fragment.showsOnly_written hsound hsealed (.nil [])
  rw [List.append_nil, List.append_nil] at hshows
  rw [tags_parse hg, Fragment.toHtml, String.toList_ofList, read]
  exact hshows.passMark _

end BoundMarkup.Markup
