import BoundMarkup.Proofs.Markup.Inert
import BoundMarkup.Proofs.Markup.Marks
import BoundMarkup.Proofs.Markup.NormalForm

/-!
# Written markup is stable

A tree that is written is read back as its normal form, and the normal form of a parsed tree is
written as the tree is: its names are such as are read, and its raw text is one text that is escaped
already. So what went through parsing and writing once goes through unchanged from then on.

Two things stand in the way. An empty document type declaration can be parsed, if there are blanks
in it that are trimmed off but are no white space of tags, and it is refused when it is read again;
and a byte-order mark is passed over where reading starts. There is no third: unless one of these
occurs, the text is parsed again and written the same, and if one occurs, it is not.

What was sanitized has neither declarations nor raw text, and it is clean when it is read again, so
that there is nothing left to remove. Only a byte-order mark in front of all can be lost.

## Main definitions

* `Node.IsNamed`: a node that is no empty declaration.

## Main results

* `Fragment.written_normalized`: the normal form of a sound and plain fragment is written as the
  fragment is;
* `Fragment.error?_readFrom_written`: reading ends at an empty declaration;
* `exists_parse_toHtml_eq_iff`: when the written form of a parsed tree is stable;
* `sanitize_sanitize`: sanitizing twice is sanitizing once.
-/

namespace BoundMarkup.Markup

open Text

/-! ### The written form of the normal form -/

theorem escapeText_append (s t : List Char) : escapeText (s ++ t) = escapeText s ++ escapeText t :=
  List.flatMap_append

/-- Texts that are joined are written one behind the other. -/
private theorem written_joinText (s : String) (f : List Node) :
    Fragment.written (Fragment.joinText s f) = escapeText s.toList ++ Fragment.written f := by
  unfold Fragment.joinText
  split
  · next hs =>
    rw [String.isEmpty_iff] at hs
    rw [hs]
    rfl
  · split
    · rw [Fragment.written, Fragment.written, Node.written_text, Node.written_text,
        String.toList_append, escapeText_append, List.append_assoc]
    · rw [Fragment.written, Node.written_text]

/-- Joining texts leaves the written form as it is. -/
private theorem written_joined (f : List Node) :
    Fragment.written (Fragment.joined f) = Fragment.written f := by
  induction f with
  | nil => rw [Fragment.joined]
  | cons n f ih =>
    cases n with
    | text s => rw [Fragment.joined, written_joinText, ih, Fragment.written, Node.written_text]
    | element tag children => simp only [Fragment.joined, Fragment.written, ih]
    | comment s => simp only [Fragment.joined, Fragment.written, ih]
    | doctype s => simp only [Fragment.joined, Fragment.written, ih]

/-- Escaping raw text that was escaped before leaves its written form as it is. -/
private theorem rawWritten_rawEscaped (s : String) :
    Fragment.rawWritten (Fragment.joined ((textChildren s).map Node.rawEscaped)) =
      Fragment.rawWritten (textChildren s) := by
  rw [Fragment.joined_rawEscaped (textChildren_eq_nil_or s), Fragment.rawWritten_textChildren,
    Fragment.rawWritten_textChildren, String.toList_ofList, escapeRawText_escapeRawText]

mutual

/-- What a sound and plain node is read back as is written as the node is. -/
private theorem Node.written_spliced : ∀ {n : Node}, n.Each Node.IsSound → n.Each Node.IsPlain →
    Fragment.written n.spliced = n.written
  | .element tag children, hsound, hplain => by
    rw [Node.Each] at hsound hplain
    obtain ⟨htag, hsound⟩ := hsound
    rw [Node.IsSound] at htag
    have ih := Fragment.written_spliced hsound hplain.2
    rw [Node.spliced, if_pos htag.name, htag.normalized_eq, Fragment.written, Fragment.written,
      List.append_nil, Node.written_element, Node.written_element, if_pos htag.name,
      if_pos htag.name]
    -- A normal tag is its own normal form, so it is what stands behind it that matters.
    congr 1
    split
    · rfl
    · split
      · next hraw =>
        obtain ⟨s, hs⟩ := hplain.1 hraw
        rw [hs, rawWritten_rawEscaped]
      · rw [written_joined, ih]
  | .text s, _, _ => by rw [Node.spliced, Fragment.written, Fragment.written, List.append_nil]
  | .comment s, _, _ => by
    rw [Node.spliced, Fragment.written, Fragment.written, List.append_nil, Node.written_comment,
      Node.written_comment, String.toList_ofList (l := escapeComment s.toList),
      escapeComment_escapeComment]
  | .doctype s, _, _ => by rw [Node.spliced, Fragment.written, Fragment.written, List.append_nil]

/-- What a sound and plain fragment is read back as is written as the fragment is. -/
private theorem Fragment.written_spliced : ∀ {f : List Node}, Fragment.Each Node.IsSound f →
    Fragment.Each Node.IsPlain f → Fragment.written (Fragment.spliced f) = Fragment.written f
  | [], _, _ => by rw [Fragment.spliced]
  | n :: f, hsound, hplain => by
    rw [Fragment.each_cons] at hsound hplain
    rw [Fragment.spliced, Fragment.written_append, Node.written_spliced hsound.1 hplain.1,
      Fragment.written_spliced hsound.2 hplain.2, Fragment.written]

end

/-- The normal form of a sound and plain fragment is written as the fragment is. -/
theorem Fragment.written_normalized {f : Fragment} (hsound : Fragment.Each Node.IsSound f)
    (hplain : Fragment.Each Node.IsPlain f) :
    Fragment.written (Fragment.normalized f) = Fragment.written f := by
  rw [Fragment.normalized, written_joined, Fragment.written_spliced hsound hplain]

theorem Fragment.toHtml_normalized {f : Fragment} (hsound : Fragment.Each Node.IsSound f)
    (hplain : Fragment.Each Node.IsPlain f) :
    Fragment.toHtml (Fragment.normalized f) = Fragment.toHtml f :=
  congrArg String.ofList (Fragment.written_normalized hsound hplain)

/-! ### What is read back -/

/-- A node that is no empty declaration. -/
def Node.IsNamed : Node → Prop
  | .element _ _ => True
  | .text _ => True
  | .comment _ => True
  | .doctype s => s ≠ ""

/-- A sound and plain node that is no empty declaration is read as what its normal form is made
of. -/
theorem Node.isRestorable {n : Node} (hsound : n.IsSound) (hplain : n.IsPlain)
    (hnamed : n.IsNamed) : n.IsRestorable := by
  cases n with
  | element tag children =>
    rw [IsSound] at hsound
    refine ⟨?_, fun hraw => ?_⟩
    · rw [List.map_congr_left hsound.lower]
      exact hsound.nodup
    · obtain ⟨s, rfl⟩ := hplain hraw
      exact textChildren_eq_nil_or s
  | text s => trivial
  | comment s => trivial
  | doctype s => exact ⟨hsound, hnamed⟩

/-- A sound and plain fragment without empty declarations is read back, and written as before, if no
byte-order mark is passed over in its written form. -/
theorem parse_toHtml_of_isSound {f : Fragment} (hsound : Fragment.Each Node.IsSound f)
    (hplain : Fragment.Each Node.IsPlain f) (hnamed : Fragment.Each Node.IsNamed f)
    (hmark : (passMark (Fragment.written f)).1 = false) (hon : Fragment.ReadsOn false f []) :
    parse (Fragment.toHtml f) = .ok (Fragment.normalized f) ∧
      Fragment.toHtml (Fragment.normalized f) = Fragment.toHtml f := by
  have hrestorable : Fragment.Each Node.IsRestorable f :=
    ((hsound.and hplain).and hnamed).imp fun _ h => Node.isRestorable h.1.1 h.1.2 h.2
  exact ⟨parse_toHtml_of_readsOn hrestorable hmark hon,
    Fragment.toHtml_normalized hsound hplain⟩

/-! ### What is refused -/

mutual

/-- Reading ends at an empty declaration in a node. -/
private theorem Node.error?_readFrom_written : ∀ {n : Node} {marked : Bool} {rest : List Char},
    n.Each Node.IsSound → n.Each Node.IsPlain → n.Each Node.IsBare → ¬n.Each Node.IsNamed →
      Fragment.ReadsOn marked [n] rest →
        (readFrom marked (n.written ++ rest)).error? = some .unnamedDoctype
  | .element tag children, marked, rest, hsound, hplain, hbare, hnamed, hon => by
    rw [Node.Each] at hsound hplain hbare hnamed
    obtain ⟨htag, hsound⟩ := hsound
    rw [Node.IsSound] at htag
    have hchildren : ¬Fragment.Each Node.IsNamed children := fun h => hnamed ⟨trivial, h⟩
    have hvoid : isVoid tag.name = false := by
      refine Bool.eq_false_iff.mpr fun hvoid => hchildren ?_
      rw [hbare.1 hvoid]
      exact Fragment.each_nil
    have hraw : isRawText tag.name = false := by
      refine Bool.eq_false_iff.mpr fun hraw => hchildren ?_
      obtain ⟨s, rfl⟩ := hplain.1 hraw
      exact Fragment.each_textChildren (fun _ => trivial) s
    -- So the children are written between the tags, and the declaration is among them.
    rw [Node.written_element, if_pos htag.name, hvoid, hraw, if_neg Bool.false_ne_true,
      if_neg Bool.false_ne_true, List.append_assoc, List.append_assoc,
      readFrom_writtenTag htag.name hraw]
    exact Fragment.error?_readFrom_written hsound hplain.2 hbare.2 hchildren
      (hon.children htag.name hvoid hraw)
  | .text s, _, _, _, _, _, hnamed, _ => by
    rw [Node.Each] at hnamed
    exact absurd trivial hnamed
  | .comment s, _, _, _, _, _, hnamed, _ => by
    rw [Node.Each] at hnamed
    exact absurd trivial hnamed
  | .doctype s, marked, rest, hsound, _, _, hnamed, _ => by
    rw [Node.Each, Node.IsSound] at hsound
    rw [Node.Each, Node.IsNamed, not_not] at hnamed
    rw [Node.written_doctype, readFrom_doctype hsound, hnamed]
    rfl

/-- Reading ends at an empty declaration in a fragment. -/
theorem Fragment.error?_readFrom_written :
    ∀ {f : List Node} {marked : Bool} {rest : List Char}, Fragment.Each Node.IsSound f →
      Fragment.Each Node.IsPlain f → Fragment.Each Node.IsBare f → ¬Fragment.Each Node.IsNamed f →
        Fragment.ReadsOn marked f rest →
          (readFrom marked (Fragment.written f ++ rest)).error? = some .unnamedDoctype
  | [], _, _, _, _, _, hnamed, _ => absurd Fragment.each_nil hnamed
  | n :: f, marked, rest, hsound, hplain, hbare, hnamed, hon => by
    rw [Fragment.each_cons] at hsound hplain hbare
    rw [Fragment.written, List.append_assoc]
    by_cases hn : n.Each Node.IsNamed
    · -- The first node is read, and the declaration is behind it.
      have hf : ¬Fragment.Each Node.IsNamed f :=
        fun hf => hnamed (Fragment.each_cons.mpr ⟨hn, hf⟩)
      have hreadable : n.Each Node.IsReadable :=
        ((hsound.1.and hplain.1).and hn).imp fun _ h =>
          (Node.isRestorable h.1.1 h.1.2 h.2).isReadable
      rw [Node.readFrom_written hreadable hon.head, Reading.error?_prepend]
      exact Fragment.error?_readFrom_written hsound.2 hplain.2 hbare.2 hf hon.tail
    · exact Node.error?_readFrom_written hsound.1 hplain.1 hbare.1 hn hon.head

end

/-- What is parsed was read to its end. -/
theorem error?_read_of_parse {markup : String} {f : Fragment} (h : parse markup = .ok f) :
    (read markup.toList).error? = none := by
  obtain ⟨a, ha, -⟩ := exists_addReading_of_parse h
  exact (Assembly.addReading_eq_ok_iff.mp ha).1

/-! ### Parsed trees -/

/-- A parsed tree is written to a text that is parsed again and written as it is, if and only if no
declaration in the tree is empty and no byte-order mark is written where reading starts: neither in
front of all nor behind an element that holds raw text. -/
theorem exists_parse_toHtml_eq_iff {markup : String} {f : Fragment} (h : parse markup = .ok f) :
    (∃ g, parse (Fragment.toHtml f) = .ok g ∧ Fragment.toHtml g = Fragment.toHtml f) ↔
      Fragment.Each Node.IsNamed f ∧ (Fragment.toHtml f).toList.head? ≠ some byteOrderMark ∧
        Fragment.lostMarks [] f = 0 := by
  have hsound := each_isSound_parse h
  have hplain := each_isPlain_parse h
  constructor
  · rintro ⟨g, hg, hsame⟩
    have hwritten : Fragment.written g = Fragment.written f := String.ofList_injective hsame
    -- No mark is missing, so none was lost, and all of the text was read.
    have hmarks := marks_parse_toHtml_le hsound hplain hg
    rw [hwritten] at hmarks
    have hfront : (passMark (Fragment.written f)).1 = false :=
      Bool.toNat_eq_zero.mp (by omega)
    have hlost : Fragment.lostMarks [] f = 0 := by omega
    refine ⟨?_, ?_, hlost⟩
    · by_contra hnamed
      -- Reading would have failed at the empty declaration.
      have herror := Fragment.error?_readFrom_written hsound hplain (each_isBare_parse h) hnamed
        (.inr ⟨rfl, hlost⟩)
      have hread := error?_read_of_parse hg
      rw [Fragment.toHtml, String.toList_ofList, read, passMark_eq_self hfront] at hread
      rw [List.append_nil, hread] at herror
      cases herror
    · rw [Fragment.toHtml, String.toList_ofList]
      exact fst_passMark_eq_false_iff.mp hfront
  · rintro ⟨hnamed, hfront, hlost⟩
    rw [Fragment.toHtml, String.toList_ofList] at hfront
    exact ⟨_, parse_toHtml_of_isSound hsound hplain hnamed (fst_passMark_eq_false_iff.mpr hfront)
      (.inr ⟨rfl, hlost⟩)⟩

/-- A declaration with blanks, tags without end tags and the other way round, a comment, raw text
with an end tag in it, and text that is taken literally. -/
theorem exists_parse_toHtml_eq_mixed :
    ∃ f, parse ("<!doctype  html ><P CLASS=a>x<br/>&lt;<!-- b -->" ++
        "<script>c</d></SCRIPT></i><![CDATA[<]]>") = .ok f ∧
      Fragment.toHtml f =
        "<!DOCTYPE html><p class=\"a\">x<br>&lt;<!-- b --><script>c<\\/d></script>&lt;</p>" ∧
      ∃ g, parse (Fragment.toHtml f) = .ok g ∧ Fragment.toHtml g = Fragment.toHtml f := by
  have hf : parse ("<!doctype  html ><P CLASS=a>x<br/>&lt;<!-- b -->" ++
      "<script>c</d></SCRIPT></i><![CDATA[<]]>") =
        .ok [.doctype "html", .element ⟨"p", [⟨"class", "a"⟩]⟩
          [.text "x", .element ⟨"br", []⟩ [], .text "<", .comment " b ",
            .element ⟨"script", []⟩ [.text "c</d>"], .text "<"]] := by
    with_unfolding_all rfl
  refine ⟨_, hf, by decide +kernel, (exists_parse_toHtml_eq_iff hf).mpr ⟨?_, ?_, ?_⟩⟩
  · simp [Node.Each, Node.IsNamed]
  · decide +kernel
  · decide +kernel

/-- An empty declaration, which is refused when it is read again, and byte-order marks behind a
raw-text element and in front of all, which are passed over then. -/
theorem exists_parse_toHtml_eq_lost :
    (∃ f, parse "<!DOCTYPE \u00a0>" = .ok f ∧ Fragment.toHtml f = "<!DOCTYPE >" ∧
        parse (Fragment.toHtml f) = .error .unnamedDoctype) ∧
      (∃ f g, parse "<script></script>&#xFEFF;x" = .ok f ∧
        Fragment.toHtml f = "<script></script>\ufeffx" ∧ parse (Fragment.toHtml f) = .ok g ∧
        Fragment.toHtml g = "<script></script>x") ∧
      ∃ f g, parse "&#xFEFF;x" = .ok f ∧ Fragment.toHtml f = "\ufeffx" ∧
        parse (Fragment.toHtml f) = .ok g ∧ Fragment.toHtml g = "x" := by
  refine ⟨⟨[.doctype ""], ?_⟩,
    ⟨[.element ⟨"script", []⟩ [], .text "\ufeffx"], [.element ⟨"script", []⟩ [], .text "x"], ?_⟩,
    ⟨[.text "\ufeffx"], [.text "x"], ?_⟩⟩
  · refine ⟨?_, ?_, ?_⟩ <;> with_unfolding_all rfl
  · refine ⟨?_, ?_, ?_, ?_⟩ <;> with_unfolding_all rfl
  · refine ⟨?_, ?_, ?_, ?_⟩ <;> with_unfolding_all rfl

/-! ### Sanitizing -/

theorem Node.IsKept.isPlain {n : Node} (h : n.IsKept) : n.IsPlain := by
  cases n with
  | element tag children =>
    intro hraw
    rw [isRawText_eq_false h] at hraw
    cases hraw
  | text s => trivial
  | comment s => trivial
  | doctype s => trivial

theorem Node.IsKept.isNamed {n : Node} (h : n.IsKept) : n.IsNamed := by
  cases n with
  | element tag children => trivial
  | text s => trivial
  | comment s => trivial
  | doctype s => exact False.elim h

/-- What is read from the written form of a clean tree is clean, since its tags are read back as
they are. -/
private theorem each_isClean_of_parse {markup : String} {g : Fragment}
    (hg : parse (sanitize markup) = .ok g) : Fragment.Each Node.IsClean g := by
  have hclean := each_clean markup
  obtain ⟨g', hg', hread⟩ := exists_parse_toHtml (hclean.imp fun _ => Node.IsClean.isKept)
  rw [sanitize, hg', Except.ok.injEq] at hg
  subst hg
  -- What is read has the tags that are written, and those are clean.
  refine (hread Node.IsClean Node.ignoresChildren_isClean fun _ => trivial).mpr fun tag htag => ?_
  obtain ⟨children, hkept, hnormal⟩ :=
    Fragment.of_mem_visited (hclean.and (each_isSound_clean markup)) (List.mem_filter.mp htag).1
  rw [Node.IsSound] at hnormal
  rw [hnormal.readBack_eq]
  exact Node.ignoresChildren_isClean tag children [] hkept

/-- What was sanitized is read as the normal form of the clean tree, unless it begins with a
byte-order mark. -/
private theorem parse_sanitize {markup : String}
    (h : (sanitize markup).toList.head? ≠ some byteOrderMark) :
    parse (sanitize markup) = .ok (Fragment.normalized (clean markup)) ∧
      Fragment.toHtml (Fragment.normalized (clean markup)) = sanitize markup := by
  have hkept : Fragment.Each Node.IsKept (clean markup) :=
    (each_clean markup).imp fun _ => Node.IsClean.isKept
  rw [sanitize, Fragment.toHtml, String.toList_ofList] at h
  exact parse_toHtml_of_isSound (each_isSound_clean markup) (hkept.imp fun _ => Node.IsKept.isPlain)
    (hkept.imp fun _ => Node.IsKept.isNamed) (fst_passMark_eq_false_iff.mpr h)
    (.inl (hkept.imp fun _ => Node.IsKept.isRawFree))

/-- A text that is not markup is its own normal form. -/
private theorem normalized_clean_of_error {markup : String} {e : MarkupError}
    (h : parse markup = .error e) : Fragment.normalized (clean markup) = [.text markup] := by
  have hne : markup.isEmpty = false := by
    rw [Bool.eq_false_iff, ne_eq, String.isEmpty_iff]
    -- The empty text is markup.
    rintro rfl
    have hempty : parse "" = .ok [] := by
      with_unfolding_all rfl
    rw [hempty] at h
    cases h
  rw [clean, h]
  simp [Fragment.normalized, Fragment.spliced, Node.spliced, Fragment.joined, Fragment.joinText,
    hne]

/-- Sanitizing what was sanitized changes nothing, unless it begins with a byte-order mark, which is
passed over when it is read. A text that is not markup is escaped as text, and read back as that one
text. -/
theorem sanitize_sanitize {markup : String}
    (h : (sanitize markup).toList.head? ≠ some byteOrderMark) :
    sanitize (sanitize markup) = sanitize markup ∧
      ∀ e, parse markup = .error e →
        (sanitize markup).toList = escapeText markup.toList ∧
          parse (sanitize markup) = .ok [.text markup] := by
  obtain ⟨hparse, hwritten⟩ := parse_sanitize h
  refine ⟨?_, fun e he => ⟨?_, ?_⟩⟩
  · -- What is read is clean, so it is written as it was.
    rw [sanitize, clean, hparse]
    dsimp only
    rw [Fragment.cleaned_eq_self (each_isClean_of_parse hparse), hwritten]
  · rw [sanitize, clean, he, Fragment.toHtml, String.toList_ofList, Fragment.written,
      Node.written_text, Fragment.written, List.append_nil]
  · rw [hparse, normalized_clean_of_error he]

/-- Texts that meet where a comment and a style sheet were, a reference that stands for another, an
end tag of nothing, a tag that is none and an executable link; and a text that is not markup. -/
theorem sanitize_sanitize_mixed :
    sanitize ("a<!--x-->&amp;lt;<style>b</style></i><1>" ++
        "<a href='java&#10;script:x' title='&quot;'>q") =
          "a&amp;lt;&lt;1&gt;<a title=\"&quot;\">q</a>" ∧
      sanitize "a&amp;lt;&lt;1&gt;<a title=\"&quot;\">q</a>" =
        "a&amp;lt;&lt;1&gt;<a title=\"&quot;\">q</a>" ∧
      sanitize "a & <b" = "a &amp; &lt;b" ∧ parse "a &amp; &lt;b" = .ok [.text "a & <b"] := by
  have hmarkup : sanitize ("a<!--x-->&amp;lt;<style>b</style></i><1>" ++
      "<a href='java&#10;script:x' title='&quot;'>q") =
        "a&amp;lt;&lt;1&gt;<a title=\"&quot;\">q</a>" := by
    decide +kernel
  have htext : sanitize "a & <b" = "a &amp; &lt;b" := by
    decide +kernel
  have herror : parse "a & <b" = .error .openTag := by
    with_unfolding_all rfl
  have hagain := (sanitize_sanitize (by rw [hmarkup]; decide)).1
  have hread := (sanitize_sanitize (by rw [htext]; decide)).2 _ herror
  rw [hmarkup] at hagain
  rw [htext] at hread
  exact ⟨hmarkup, hagain, htext, hread.2⟩

end BoundMarkup.Markup
