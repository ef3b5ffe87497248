import BoundMarkup.Proofs.Markup.Content
import BoundMarkup.Proofs.Markup.Tokens

/-!
# Where raw text ends

The content of a raw-text element ends where, in any case of letters, the name of the element stands
behind a bracket and a slash, whatever comes behind the name; what follows the next closing bracket
is read as a text of its own. So a raw-text element in front of a text is the first node of its
tree, and all other nodes are those of the text behind it.

The content is thus all that stands in front of the end tag if the name is not found in it earlier.
It is found in the end tag of an element with a longer name, too, and then the content is cut short.

## Main definitions

* `Assembly.ledBy`: a tree under construction with a node in front of all others.

## Main results

* `cutCaseless_eq_none_iff`: a mark is found if and only if it stands in the text, up to case;
* `Assembly.addReading_ledBy`: what is read behind a node does not depend on it;
* `parse_rawElement`: a raw-text element in front of a text is the first node of its tree;
* `fst_rawContent_written_iff`: when the content of a written raw-text element is all of it;
* `parse_rawElement_iff`: a raw-text element is read as it was written if and only if its end tag
  does not begin in its content.
-/

namespace BoundMarkup.Markup

open Text

/-! ### Finding a mark -/

variable {mark s before after : List Char}

/-- What is cut out of a text is the mark, up to case. -/
theorem exists_append_of_cutCaseless (h : cutCaseless mark s = some (before, after)) :
    ∃ piece, s = before ++ piece ++ after ∧ lower piece = lower mark := by
  induction s generalizing before with
  | nil => cases h
  | cons c s ih =>
    rw [cutCaseless] at h
    split at h
    · next heq =>
      cases h
      exact ⟨_, (List.take_append_drop _ _).symm, heq⟩
    · obtain ⟨⟨b, a⟩, hcut, heq⟩ := Option.map_eq_some_iff.mp h
      cases heq
      obtain ⟨piece, rfl, hpiece⟩ := ih hcut
      exact ⟨piece, rfl, hpiece⟩

/-- What stands in front of a mark in a text is shorter than the text by the mark at least. -/
theorem length_le_of_cutCaseless (h : cutCaseless mark s = some (before, after)) :
    before.length + mark.length ≤ s.length := by
  obtain ⟨piece, rfl, hpiece⟩ := exists_append_of_cutCaseless h
  have hsize := congrArg List.length hpiece
  rw [length_lower, length_lower] at hsize
  simp only [List.length_append]
  omega

/-- A mark that is found in a text is found there whatever stands behind the text. -/
theorem cutCaseless_append_of_eq_some (h : cutCaseless mark s = some (before, after))
    (rest : List Char) : cutCaseless mark (s ++ rest) = some (before, after ++ rest) := by
  induction s generalizing before with
  | nil => cases h
  | cons c s ih =>
    -- The mark is inside the text, so in looking for it what is behind is not reached.
    have hlength : mark.length ≤ (c :: s).length :=
      (Nat.le_add_left _ _).trans (length_le_of_cutCaseless h)
    rw [cutCaseless] at h
    rw [List.cons_append, cutCaseless, ← List.cons_append,
      List.take_append_of_le_length hlength, List.drop_append_of_le_length hlength]
    split at h
    · next heq =>
      cases h
      rw [if_pos heq]
    · next hne =>
      obtain ⟨⟨b, a⟩, hcut, heq⟩ := Option.map_eq_some_iff.mp h
      cases heq
      rw [if_neg hne, ih hcut, Option.map_some]

/-- The mark that is found in a text is the first one, so there is none in front of it. -/
theorem cutCaseless_eq_none_of_eq_some (hmark : mark ≠ [])
    (h : cutCaseless mark s = some (before, after)) : cutCaseless mark before = none := by
  cases hcut : cutCaseless mark before with
  | none => rfl
  | some cut =>
    obtain ⟨b, a⟩ := cut
    obtain ⟨piece, rfl, -⟩ := exists_append_of_cutCaseless h
    -- One in front of it would be found in its place.
    rw [List.append_assoc, cutCaseless_append_of_eq_some hcut] at h
    obtain ⟨rfl, -⟩ := Prod.mk.inj (Option.some.inj h)
    have hlength := length_le_of_cutCaseless hcut
    have hpos := List.length_pos_iff.mpr hmark
    omega

/-- A mark is found in a text if and only if it stands in it, up to case. -/
theorem cutCaseless_eq_none_iff (hmark : mark ≠ []) :
    cutCaseless mark s = none ↔ ¬lower mark <:+: lower s := by
  induction s with
  | nil => simp [cutCaseless, lower, hmark]
  | cons c s ih =>
    have hprefix : lower mark <+: lower (c :: s) ↔ lower ((c :: s).take mark.length) = lower mark := by
      rw [lower_take, List.prefix_iff_eq_take, length_lower, eq_comm]
    rw [lower_cons, List.infix_cons_iff, ← lower_cons, hprefix, not_or, ← ih, cutCaseless]
    split
    · next heq => simp [heq]
    · next hne => simp only [hne, not_false_eq_true, true_and, Option.map_eq_none_iff]

/-! ### Nodes in front of a tree -/

namespace Assembly

/-- The innermost nodes and the open elements around them, with a node in front of all others. -/
def leading (e : Node) : List Node → List OpenElement → Assembly
  | nodes, [] => { nodes := nodes ++ [e] }
  | nodes, o :: outer => {
      nodes
      enclosing :=
        { o with before := (leading e o.before outer).nodes } ::
          (leading e o.before outer).enclosing }

/-- A tree under construction with a node in front of all others. -/
def ledBy (e : Node) (a : Assembly) : Assembly := leading e a.nodes a.enclosing

variable {e : Node}

theorem ledBy_append (n : Node) (a : Assembly) :
    (a.append n).ledBy e = (a.ledBy e).append n := by
  rcases a with ⟨nodes, _ | ⟨o, outer⟩⟩ <;> rfl

theorem ledBy_openElement (tag : Tag) (a : Assembly) :
    (a.openElement tag).ledBy e = (a.ledBy e).openElement tag := rfl

/-- Text is not joined to a node in front of it that is no text. -/
theorem ledBy_appendText (he : e.isText = false) (s : String) (a : Assembly) :
    (a.appendText s).ledBy e = (a.ledBy e).appendText s := by
  by_cases hs : s.isEmpty = true
  · simp [appendText, hs]
  · rcases a with ⟨nodes, _ | ⟨o, outer⟩⟩ <;> rcases nodes with _ | ⟨_ | t | _ | _, nodes⟩ <;>
      cases e <;> simp_all [appendText, ledBy, leading, Node.isText]

/-- An end tag closes the same elements. -/
private theorem closed?_leading (name : String) (nodes : List Node) (enclosing : List OpenElement) :
    closed? name (leading e nodes enclosing).nodes (leading e nodes enclosing).enclosing =
      (closed? name nodes enclosing).map (ledBy e) := by
  induction enclosing generalizing nodes with
  | nil => rfl
  | cons o outer ih =>
    have hclosed : leading e (o.closed nodes) outer =
        (leading e o.before outer).append (.element o.tag nodes.reverse) :=
      ledBy_append (.element o.tag nodes.reverse) { nodes := o.before, enclosing := outer }
    have hstep := ih (o.closed nodes)
    rw [hclosed] at hstep
    rw [leading, closed?, closed?]
    split
    · rw [Option.map_some, ledBy, hclosed]
      rfl
    · exact hstep

theorem ledBy_close (name : String) (a : Assembly) :
    (a.close name).ledBy e = (a.ledBy e).close name := by
  have hclosed : closed? name (a.ledBy e).nodes (a.ledBy e).enclosing =
      (closed? name a.nodes a.enclosing).map (ledBy e) := closed?_leading name a.nodes a.enclosing
  rw [close, close, hclosed]
  cases closed? name a.nodes a.enclosing <;> rfl

/-- The node comes first in the finished tree. -/
theorem finish_ledBy (a : Assembly) : (a.ledBy e).finish = e :: a.finish := by
  obtain ⟨nodes, enclosing⟩ := a
  induction enclosing generalizing nodes with
  | nil => simp [ledBy, leading, finish]
  | cons o outer ih =>
    have hclosed : ledBy e { nodes := o.closed nodes, enclosing := outer } =
        (leading e o.before outer).append (.element o.tag nodes.reverse) :=
      ledBy_append (.element o.tag nodes.reverse) { nodes := o.before, enclosing := outer }
    have hstep := ih (o.closed nodes)
    rw [hclosed] at hstep
    exact hstep

theorem ledBy_appendTag (form : TagForm) (tag : Tag) (a : Assembly) :
    (a.appendTag form tag).ledBy e = (a.ledBy e).appendTag form tag := by
  cases form with
  | opening =>
    rw [appendTag, appendTag]
    split
    · exact ledBy_append _ a
    · exact ledBy_openElement tag a
  | childless => exact ledBy_append _ a
  | raw text => exact ledBy_append _ a

theorem ledBy_add (he : e.isText = false) (t : Token) (a : Assembly) :
    (a.add t).ledBy e = (a.ledBy e).add t := by
  cases t with
  | character c => exact ledBy_appendText he _ a
  | reference name => exact ledBy_appendText he _ a
  | literal text => exact ledBy_appendText he _ a
  | tag form content =>
    rw [add, add]
    cases Tag.ofText? content with
    | some tag => exact ledBy_appendTag form tag a
    | none => exact ledBy_appendText he _ a
  | closing name => exact ledBy_close _ a
  | comment text => exact ledBy_append _ a
  | doctype text => exact ledBy_append _ a
  | instruction text => rfl

/-- What is read behind a node that is no text does not depend on it. -/
theorem addReading_ledBy (he : e.isText = false) (r : Reading) (a : Assembly) :
    (a.ledBy e).addReading r = (a.addReading r).map (ledBy e) := by
  induction r generalizing a with
  | done => rfl
  | failed e => rfl
  | next t r ih => rw [addReading, addReading, ← ledBy_add he, ih]

end Assembly

/-! ### Raw-text elements -/

variable {name : String}

/-- The start tag of a raw-text element at the front of a text is a token together with its content,
and behind its end tag reading starts anew. -/
theorem read_rawElement (h : isRawText name = true) (s : List Char) :
    read ('<' :: (name.toList ++ '>' :: s)) =
      .next (.tag (.raw (rawContent name s).1) name.toList) (read (rawContent name s).2) := by
  have hvalid := validElementName_of_isRawText h
  have htext : Tag.writtenText { name } = name.toList := by
    simp [Tag.writtenText, Tag.writtenAttributes]
  have hconstruct := @construct_writtenText { name } hvalid s
  have htag := @tagName_writtenText { name } hvalid
  rw [htext] at hconstruct htag
  have hopens : rawTextTag? (.tag .opening name.toList) = some name.toList := by
    rw [rawTextTag?, htag, if_pos h]
  have hcontent : rawElement false name.toList s = rawContent name s := by
    rw [rawElement, htag, rawSource, if_neg Bool.false_ne_true]
  have hmark : passMark ('<' :: (name.toList ++ '>' :: s)) =
      (false, '<' :: (name.toList ++ '>' :: s)) := passMark_eq_self rfl
  rw [read, hmark, readFrom_rawElement hconstruct hopens, hcontent]
  rfl

/-- A raw-text element in front of a text is the first node of its tree, with the content in front
of its end tag, and what is behind the end tag is parsed as a text of its own. -/
theorem parse_rawElement (h : isRawText name = true) (s : String) :
    parse ("<" ++ name ++ ">" ++ s) =
      (parse (String.ofList (rawContent name s.toList).2)).map
        (.element { name } (textChildren (String.ofList (rawContent name s.toList).1)) :: ·) := by
  have hmarkup : ("<" ++ name ++ ">" ++ s).toList = '<' :: (name.toList ++ '>' :: s.toList) := by
    simp
  have hvalid := validElementName_of_isRawText h
  have hof : Tag.ofText? name.toList = some { name } := by
    have htext : Tag.writtenText { name } = name.toList := by
      simp [Tag.writtenText, Tag.writtenAttributes]
    have hread := @ofText?_writtenText { name } hvalid
    rw [htext, @readBack_eq_normalized { name } hvalid List.nodup_nil] at hread
    exact hread
  generalize hcontent : rawContent name s.toList = r
  have hadd : ({} : Assembly).add (.tag (.raw r.1) name.toList) =
      ({} : Assembly).ledBy (.element { name } (textChildren (String.ofList r.1))) := by
    rw [Assembly.add, hof]
    rfl
  rw [parse, parse, hmarkup, read_rawElement h, hcontent, Assembly.addReading, hadd,
    Assembly.addReading_ledBy rfl, String.toList_ofList]
  cases ({} : Assembly).addReading (read r.2) with
  | error e => rfl
  | ok a => exact congrArg Except.ok (Assembly.finish_ledBy a)

/-- Texts that are shown alike are the same. -/
theorem textChildren_injective : Function.Injective textChildren := by
  intro s t h
  unfold textChildren at h
  split at h <;> split at h
  · simp_all
  · cases h
  · cases h
  · cases h
    rfl

/-- The content of a raw-text element has no end tag of the element in it. -/
theorem cutCaseless_rawContent (name : String) (s : List Char) :
    cutCaseless ('<' :: '/' :: name.toList) (rawContent name s).1 = none := by
  rw [rawContent]
  split
  · assumption
  · next hcut => exact cutCaseless_eq_none_of_eq_some (List.cons_ne_nil _ _) hcut

/-- The content of a written raw-text element is all that stands in front of the end tag exactly if
the name is not found in there. -/
theorem fst_rawContent_written_iff {tag : Tag} (h : validElementName tag.name = true)
    {s rest : List Char} :
    (rawContent tag.name (s ++ tag.writtenEnd ++ rest)).1 = s ↔
      cutCaseless ('<' :: '/' :: tag.name.toList) s = none := by
  constructor
  · intro heq
    rw [← heq]
    exact cutCaseless_rawContent tag.name _
  · intro hcut
    rw [rawContent_written h hcut]

/-- A raw-text element is read back with the content with which it is written, and the text behind
it as by itself, if and only if its name does not stand in the content, up to case, behind a bracket
and a slash. -/
theorem parse_rawElement_iff (h : isRawText name = true) {body rest : String} {g : Fragment}
    (hrest : parse rest = .ok g) :
    parse ("<" ++ name ++ ">" ++ body ++ "</" ++ name ++ ">" ++ rest) =
        .ok (.element { name } (textChildren body) :: g) ↔
      ¬lower ("</" ++ name).toList <:+: lower body.toList := by
  have hvalid := validElementName_of_isRawText h
  have hmark : ("</" ++ name).toList = '<' :: '/' :: name.toList := by simp
  have hmarkup : "<" ++ name ++ ">" ++ body ++ "</" ++ name ++ ">" ++ rest =
      "<" ++ name ++ ">" ++ (body ++ "</" ++ name ++ ">" ++ rest) := by
    simp only [String.append_assoc]
  have htext : (body ++ "</" ++ name ++ ">" ++ rest).toList =
      body.toList ++ Tag.writtenEnd { name } ++ rest.toList := by
    simp [Tag.writtenEnd]
  rw [hmark, ← cutCaseless_eq_none_iff (List.cons_ne_nil _ _), hmarkup, parse_rawElement h, htext]
  constructor
  · intro heq
    refine (@fst_rawContent_written_iff { name } hvalid _ rest.toList).mp ?_
    generalize parse _ = r at heq
    cases r with
    | error e => cases heq
    | ok f =>
      have hfirst := (List.cons.inj (Except.ok.inj heq)).1
      have hbody := textChildren_injective (Node.element.inj hfirst).2
      exact String.toList_ofList.symm.trans (congrArg String.toList hbody)
  · intro hcut
    have hcontent := @rawContent_written { name } hvalid _ hcut rest.toList
    rw [hcontent, String.ofList_toList, String.ofList_toList, hrest]
    rfl

/-- Tags, quotation marks and the beginning of an end tag are nothing but text in raw text. -/
theorem parse_rawElement_mixed :
    isRawText "script" = true ∧ parse "<p>y" = .ok [.element { name := "p" } [.text "y"]] ∧
      parse "<script>if (a<b) '</p><!-- </SCRIP</script><p>y" =
        .ok [.element { name := "script" } [.text "if (a<b) '</p><!-- </SCRIP"],
          .element { name := "p" } [.text "y"]] := by
  have hraw : isRawText "script" = true := by decide
  have hrest : parse "<p>y" = .ok [.element { name := "p" } [.text "y"]] := by
    with_unfolding_all rfl
  have hbody : ¬lower ("</" ++ "script").toList <:+: lower "if (a<b) '</p><!-- </SCRIP".toList := by
    decide +kernel
  have hmarkup : "<" ++ "script" ++ ">" ++ "if (a<b) '</p><!-- </SCRIP" ++ "</" ++ "script" ++ ">" ++
      "<p>y" = "<script>if (a<b) '</p><!-- </SCRIP</script><p>y" := rfl
  have hread := (parse_rawElement_iff hraw hrest).mpr hbody
  rw [hmarkup] at hread
  exact ⟨hraw, hrest, hread⟩

/-- The end tag of an element with a longer name ends raw text. White space, a slash or a closing
bracket is not asked for behind the name. -/
theorem parse_rawElement_longer :
    isRawText "script" = true ∧ parse "" = .ok [] ∧
      (∀ c ∈ [' ', '\t', '\n', '\x0c', '\r', '/', '>'],
        ¬lower ("</script".toList ++ [c]) <:+: lower "x</scripty>z".toList) ∧
      parse "<script>x</scripty>z</script>" ≠
        .ok [.element { name := "script" } [.text "x</scripty>z"]] := by
  have hread : parse "<script>x</scripty>z</script>" =
      .ok [.element { name := "script" } [.text "x"], .text "z"] := by
    with_unfolding_all rfl
  have hend (c : Char) (hc : c ∈ [' ', '\t', '\n', '\x0c', '\r', '/', '>']) :
      ¬lower ("</script".toList ++ [c]) <:+: lower "x</scripty>z".toList := by
    simp only [List.mem_cons, List.not_mem_nil, or_false] at hc
    rcases hc with rfl | rfl | rfl | rfl | rfl | rfl | rfl <;> decide +kernel
  refine ⟨by decide, by with_unfolding_all rfl, hend, ?_⟩
  rw [hread]
  simp

end BoundMarkup.Markup
