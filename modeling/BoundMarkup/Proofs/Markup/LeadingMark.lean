import BoundMarkup.Proofs.Markup.Content
import BoundMarkup.Proofs.Markup.Parsed
import BoundMarkup.Proofs.Markup.Tokens
import BoundMarkup.Proofs.Text.Bytes

/-!
# A byte-order mark in front of a text

A byte-order mark at the front of a text is no token, and it is not counted either. What is read is
therefore the same with and without it up to the first raw-text element. There the content is taken
as many bytes too early as the mark has, so the end of the start tag is shown in front of it; and if
these bytes begin inside a character, the content and all that follows are lost. Behind that element
a text of its own begins, and the mark is forgotten.

So a mark makes no difference exactly if no raw-text element is read, if reading fails anyway, or if
what would be lost is nothing.

## Main definitions

* `Reading.early`: a reading whose first raw-text element begins early;
* `Reading.IgnoresMark`: a reading for which that makes no difference.

## Main results

* `rawElement_true`: the content of a raw-text element that begins early;
* `read_marked`: with a mark in front, the first raw-text element of a text begins early;
* `parse_marked_iff`: a mark in front makes no difference to the tree of a text, or to there being
  none, if and only if its reading ignores the mark.
-/

namespace BoundMarkup.Markup

open Text

/-! ### Last bytes -/

/-- The last bytes of a text that ends in a character are this character and bytes in front of it. -/
theorem exists_of_lastBytes?_append {size : Nat} {s lead : List Char} {d : Char}
    (hpos : size ≠ 0) (h : lastBytes? size (s ++ [d]) = some lead) :
    ∃ l, lead = l ++ [d] ∧ l <:+ s ∧ byteSize l + d.utf8Size = size := by
  obtain ⟨size, rfl⟩ := Nat.exists_eq_succ_of_ne_zero hpos
  exact suffix_concat_and_byteSize_iff.mp (lastBytes?_eq_some_iff.mp h)

/-- What begins `size` bytes in front of `rest` begins with the last bytes of what stands there. -/
theorem exists_lastBytes?_of_suffix {u s front rest : List Char} (hfront : front ++ rest <:+ u)
    (hs : s <:+ u) {size : Nat} (hsize : byteSize s = size + byteSize rest)
    (hle : size ≤ byteSize front) : ∃ lead, lastBytes? size front = some lead ∧ s = lead ++ rest := by
  have hrest : rest <:+ u := (List.suffix_append _ _).trans hfront
  obtain ⟨lead, rfl⟩ := suffix_of_byteSize_le hrest hs (by omega)
  have hsuffix : lead ++ rest <:+ front ++ rest := by
    refine suffix_of_byteSize_le hs hfront ?_
    rw [hsize, byteSize_append]
    exact Nat.add_le_add_right hle _
  rw [byteSize_append] at hsize
  exact ⟨lead, lastBytes?_eq_some_iff.mpr
    ⟨List.suffix_append_self_iff.mp hsuffix, Nat.add_right_cancel hsize⟩, rfl⟩

/-! ### Raw text that begins early -/

/-- What begins early at most two characters in front of the end of a start tag has no end tag in
these, since an end tag would go on behind the bracket. -/
theorem rawContent_append {name : String} (h : validElementName name = true) {l : List Char}
    (hl : l.length ≤ 2) (rest : List Char) :
    rawContent name (l ++ '>' :: rest) =
      (l ++ '>' :: (rawContent name rest).1, (rawContent name rest).2) := by
  obtain ⟨c, s, hname, -, -⟩ := exists_of_validElementName h
  have hmark : '>' ∉ '<' :: '/' :: name.toList := by
    have hmem : '>' ∉ name.toList := fun hc => Bool.noConfusion (of_mem_elementName h hc).1
    simp [hmem]
  have hlength : l.length < ('<' :: '/' :: name.toList).length := by
    simp only [hname, List.length_cons]
    omega
  rw [rawContent, cutCaseless_append_cons hmark (by decide) hlength, rawContent]
  cases cutCaseless ('<' :: '/' :: name.toList) rest <;> rfl

/-- The bytes in front of the content of a raw-text element that begins early, if they begin between
characters. They are the last bytes of the start tag. -/
def lead? (text : List Char) : Option (List Char) :=
  lastBytes? byteOrderMark.utf8Size (text ++ ['>'])

theorem exists_of_lead? {text lead : List Char} (h : lead? text = some lead) :
    ∃ l, lead = l ++ ['>'] ∧ l <:+ text ∧ byteSize l = 2 := by
  obtain ⟨l, hlead, hl, hsize⟩ := exists_of_lastBytes?_append (by decide) h
  exact ⟨l, hlead, hl, Nat.add_right_cancel hsize⟩

/-- There is no byte-order mark among these bytes, since not all of them belong to one character. -/
theorem not_mem_of_lead? {text lead : List Char} (h : lead? text = some lead) :
    byteOrderMark ∉ lead := by
  obtain ⟨l, rfl, -, hsize⟩ := exists_of_lead? h
  intro hmem
  rcases List.mem_append.mp hmem with hmem | hmem
  · have hle := utf8Size_le_byteSize hmem
    rw [hsize] at hle
    exact absurd hle (by decide)
  · exact absurd hmem (by decide)

/-- If a byte-order mark was passed over, the last bytes of the start tag come in front of the
content of a raw-text element, and if these begin inside a character, all is lost. -/
theorem rawElement_true {text : List Char} (h : validElementName (tagName text) = true)
    (rest : List Char) :
    rawElement true text rest =
      (lead? text).elim ([], []) fun lead =>
        (lead ++ (rawElement false text rest).1, (rawElement false text rest).2) := by
  rw [rawElement, rawElement, rawSource, rawSource, if_pos rfl, if_neg Bool.false_ne_true, ← lead?]
  cases hlead : lead? text with
  | none => rfl
  | some lead =>
    obtain ⟨l, rfl, -, hsize⟩ := exists_of_lead? hlead
    have hl : l.length ≤ 2 := hsize ▸ length_le_byteSize l
    have hcontent := rawContent_append h hl rest
    simpa using hcontent

/-! ### Readings -/

/-- The raw text that comes with a tag, and what stands in the tag. -/
def Token.rawText? : Token → Option (List Char × List Char)
  | .tag (.raw content) text => some (content, text)
  | _ => none

theorem Token.eq_of_rawText? {t : Token} {content text : List Char}
    (h : t.rawText? = some (content, text)) : t = .tag (.raw content) text := by
  unfold Token.rawText? at h
  split at h
  · cases h
    rfl
  · cases h

namespace Reading

/-- A reading whose first raw-text element begins early: with the end of its start tag in front of
its content, or as the last there is and without content. -/
def early : Reading → Reading
  | next token rest =>
    match token.rawText? with
    | some (content, text) =>
      match lead? text with
      | some lead => next (.tag (.raw (lead ++ content)) text) rest
      | none => next (.tag (.raw []) text) done
    | none => next token rest.early
  | r => r

/-- A reading that ends alike if its first raw-text element begins early. If there is one, then
either the end of its start tag would be shown, but reading fails behind it; or all would be lost
behind its start tag, but it has no content and nothing is shown behind it. -/
def IgnoresMark : Reading → Prop
  | next token rest =>
    match token.rawText? with
    | some (content, text) =>
      match lead? text with
      | some _ => rest.error? ≠ none
      | none => rest.error? = none ∧ content = [] ∧ rest.pieces = []
    | none => rest.IgnoresMark
  | _ => True

theorem early_raw (content text : List Char) (rest : Reading) :
    early (next (.tag (.raw content) text) rest) =
      match lead? text with
      | some lead => next (.tag (.raw (lead ++ content)) text) rest
      | none => next (.tag (.raw []) text) done := by
  rw [early]
  rfl

theorem early_of_rawText? {token : Token} (h : token.rawText? = none) (rest : Reading) :
    early (next token rest) = next token rest.early := by
  rw [early, h]

theorem ignoresMark_raw (content text : List Char) (rest : Reading) :
    IgnoresMark (next (.tag (.raw content) text) rest) ↔
      match lead? text with
      | some _ => rest.error? ≠ none
      | none => rest.error? = none ∧ content = [] ∧ rest.pieces = [] := by
  rw [IgnoresMark]
  rfl

theorem ignoresMark_of_rawText? {token : Token} (h : token.rawText? = none) (rest : Reading) :
    IgnoresMark (next token rest) ↔ rest.IgnoresMark := by
  rw [IgnoresMark, h]

end Reading

/-- No construct comes with raw text. -/
theorem rawText?_of_construct {s rest : List Char} {t : Token} (h : construct s = .ok (t, rest)) :
    t.rawText? = none := by
  refine of_construct (p := fun t => t.rawText? = none) (fun _ _ => rfl) (fun _ => rfl) (fun _ => rfl)
    (fun _ => rfl) (fun _ _ => rfl) (fun content => ?_) h
  unfold tagOf
  split <;> rfl

/-- Behind a byte-order mark, the first raw-text element begins early. -/
theorem readFrom_eq_early {marked : Bool} (hmarked : marked = true) (s : List Char) :
    readFrom marked s = (readFrom false s).early := by
  fun_induction readFrom marked s with
  | case1 marked =>
    rw [readFrom]
    rfl
  | case2 marked s e h =>
    rw [readFrom_error h]
    rfl
  | case3 marked s token rest h content hraw ih =>
    -- Behind this element reading starts anew in both cases, so the induction hypothesis is not used.
    have hname := validElementName_of_isRawText (rawTextTag?_eq_some_iff.mp hraw).2
    rw [readFrom_rawElement h hraw, hmarked, rawElement_true hname, Reading.early_raw]
    cases lead? content with
    | some lead => rfl
    | none =>
      have hnone : readFrom false [] = .done := by rw [readFrom]
      exact congrArg (Reading.next _) hnone
  | case4 marked s token rest h hraw ih =>
    rw [readFrom_construct h hraw, Reading.early, rawText?_of_construct h, ih hmarked]
  | case5 marked s name rest h ih =>
    rw [readFrom_reference h, Reading.early, ih hmarked]
    rfl
  | case6 marked s h ih =>
    rw [readFrom_ampersand h, Reading.early, ih hmarked]
    rfl
  | case7 marked c s hlt hamp ih =>
    rw [readFrom_character hlt hamp, Reading.early, ih hmarked]
    rfl

/-- With a byte-order mark in front, what is read of a text differs from what is read of it alone in
that its first raw-text element begins early. -/
theorem read_marked {s : List Char} (h : s.head? ≠ some byteOrderMark) :
    read (byteOrderMark :: s) = (read s).early := by
  have hmark : passMark (byteOrderMark :: s) = (true, s) := by rw [passMark, if_pos rfl]
  rw [read, read, hmark, passMark_eq_self (fst_passMark_eq_false_iff.mpr h), readFrom_eq_early rfl]

/-! ### Trees -/

namespace Assembly

/-- The tree of a reading, if it does not fail. -/
theorem toOption_addReading (a : Assembly) (r : Reading) :
    ((a.addReading r).map finish).toOption =
      if r.error? = none then some (r.tokens.foldl add a).finish else none := by
  rw [addReading_eq]
  cases r.error? <;> rfl

end Assembly

/-- A raw-text element is shown with all of its content. -/
theorem exists_pieces_raw {text : List Char} (h : isRawText (tagName text) = true) :
    ∃ tag, ∀ content, Token.pieces (.tag (.raw content) text) =
      .inl (.element tag) :: content.map .inr := by
  have hof : ∃ tag, Tag.ofText? text = some tag := by
    rw [Tag.ofText?, if_pos (validElementName_of_isRawText h)]
    exact ⟨_, rfl⟩
  obtain ⟨tag, hof⟩ := hof
  refine ⟨tag, fun content => ?_⟩
  rw [Token.pieces, hof]
  rfl

namespace Assembly

/-- Raw texts that are not alike make a difference to the tree, whatever comes behind them. -/
theorem finish_raw_inj {text : List Char} (h : isRawText (tagName text) = true)
    {content content' : List Char} {tokens : List Token} {a : Assembly}
    (heq : (tokens.foldl add (a.add (.tag (.raw content) text))).finish =
      (tokens.foldl add (a.add (.tag (.raw content') text))).finish) : content = content' := by
  obtain ⟨tag, htag⟩ := exists_pieces_raw h
  have hpieces := congrArg Fragment.pieces heq
  rw [pieces_finish, pieces_finish, pieces_foldl_add, pieces_foldl_add, pieces_add, pieces_add,
    htag, htag] at hpieces
  have hcontent := List.append_cancel_left (List.append_cancel_right hpieces)
  exact List.map_injective_iff.mpr (fun _ _ => Sum.inr.inj) (List.cons.inj hcontent).2

/-- If all is lost that follows the start tag of a raw-text element, that makes no difference to the
tree exactly if nothing is shown of it. -/
theorem finish_raw_nil_iff {text : List Char} (h : isRawText (tagName text) = true)
    {content : List Char} {tokens : List Token} {a : Assembly} :
    (a.add (.tag (.raw []) text)).finish =
        (tokens.foldl add (a.add (.tag (.raw content) text))).finish ↔
      content = [] ∧ tokens.flatMap Token.pieces = [] := by
  constructor
  · intro heq
    obtain ⟨tag, htag⟩ := exists_pieces_raw h
    have hpieces := congrArg Fragment.pieces heq
    rw [pieces_finish, pieces_finish, pieces_foldl_add, pieces_add, pieces_add, htag, htag,
      List.append_assoc] at hpieces
    simpa using List.append_cancel_left hpieces
  · rintro ⟨rfl, htokens⟩
    exact (finish_foldl_add_of_pieces_eq_nil htokens _).symm

/-- Whether the first raw-text element begins early makes no difference to the tree, or to there
being none, if and only if the reading ignores it. -/
theorem toOption_addReading_early_iff {r : Reading} (hr : ∀ t ∈ r.tokens, t.IsSound)
    (a : Assembly) :
    ((a.addReading r.early).map finish).toOption = ((a.addReading r).map finish).toOption ↔
      r.IgnoresMark := by
  -- Up to the first raw-text element the tokens are the same, and so is the tree that they are added
  -- to. It may be any.
  induction r generalizing a with
  | done => exact iff_of_true rfl trivial
  | failed e => exact iff_of_true rfl trivial
  | next t rest ih =>
    obtain ⟨ht, hr⟩ := List.forall_mem_cons.mp hr
    cases hraw : t.rawText? with
    | none =>
      rw [Reading.early_of_rawText? hraw, Reading.ignoresMark_of_rawText? hraw]
      exact ih hr (a.add t)
    | some p =>
      obtain ⟨content, text⟩ := p
      obtain rfl := Token.eq_of_rawText? hraw
      rw [Reading.early_raw, Reading.ignoresMark_raw, toOption_addReading, toOption_addReading]
      by_cases herror : rest.error? = none
      · cases hlead : lead? text with
        | some lead =>
          -- The end of the start tag is shown, and there is at least a bracket in it.
          obtain ⟨l, rfl, -, -⟩ := exists_of_lead? hlead
          simp only [Reading.error?, Reading.tokens, herror, if_true, Option.some_inj]
          refine iff_of_false (fun heq => ?_) (fun h => h rfl)
          have hlength := congrArg List.length (finish_raw_inj ht heq)
          simp at hlength
          omega
        | none =>
          simp only [Reading.error?, Reading.tokens, herror, if_true, Option.some_inj, true_and]
          exact finish_raw_nil_iff ht
      · cases hlead : lead? text with
        | some lead => simp [Reading.error?, herror]
        | none => simp [Reading.error?, herror]

end Assembly

/-- With a byte-order mark in front, a text is parsed as if its first raw-text element began early. -/
theorem parse_marked {markup : String} (h : markup.toList.head? ≠ some byteOrderMark) :
    parse (String.singleton byteOrderMark ++ markup) =
      (({} : Assembly).addReading (read markup.toList).early).map Assembly.finish := by
  have hmarkup : (String.singleton byteOrderMark ++ markup).toList =
      byteOrderMark :: markup.toList := by simp
  rw [parse, hmarkup, read_marked h]

/-- A byte-order mark in front of a text that begins with none makes no difference to its tree, or to
there being none, exactly if its reading ignores the mark: no raw-text element is read, or what goes
wrong with the first one makes no difference. -/
theorem parse_marked_iff {markup : String} (h : markup.toList.head? ≠ some byteOrderMark) :
    (parse (String.singleton byteOrderMark ++ markup)).toOption = (parse markup).toOption ↔
      (read markup.toList).IgnoresMark := by
  rw [parse_marked h, parse]
  exact Assembly.toOption_addReading_early_iff (isSound_of_mem_tokens _ _) {}

/-- A paragraph is parsed alike with a byte-order mark in front. -/
theorem parse_marked_paragraph :
    "<p title=a>x<br>y".toList.head? ≠ some byteOrderMark ∧
      (parse (String.singleton byteOrderMark ++ "<p title=a>x<br>y")).toOption =
        (parse "<p title=a>x<br>y").toOption := by
  have hunmarked : "<p title=a>x<br>y".toList.head? ≠ some byteOrderMark := by decide
  have hread : (read "<p title=a>x<br>y".toList).IgnoresMark := by
    with_unfolding_all trivial
  exact ⟨hunmarked, (parse_marked_iff hunmarked).mpr hread⟩

/-- With a byte-order mark in front, the last two letters of the start tag of a script and its
bracket are shown in front of its content. -/
theorem parse_marked_script :
    "<script>x</script>y".toList.head? ≠ some byteOrderMark ∧
      parse "<script>x</script>y" = .ok [.element { name := "script" } [.text "x"], .text "y"] ∧
      parse (String.singleton byteOrderMark ++ "<script>x</script>y") =
        .ok [.element { name := "script" } [.text "pt>x"], .text "y"] ∧
      (parse (String.singleton byteOrderMark ++ "<script>x</script>y")).toOption ≠
        (parse "<script>x</script>y").toOption := by
  have hread : parse "<script>x</script>y" =
      .ok [.element { name := "script" } [.text "x"], .text "y"] := by
    with_unfolding_all rfl
  have hmarked : parse (String.singleton byteOrderMark ++ "<script>x</script>y") =
      .ok [.element { name := "script" } [.text "pt>x"], .text "y"] := by
    with_unfolding_all rfl
  refine ⟨by decide, hread, hmarked, ?_⟩
  rw [hread, hmarked]
  simp [Except.toOption]

end BoundMarkup.Markup
