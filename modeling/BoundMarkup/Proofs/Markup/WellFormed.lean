import BoundMarkup.Proofs.Markup.Parsed
import BoundMarkup.Proofs.Markup.RawText

/-!
# Parsed trees are well formed

Whatever a text looks like, the tree that it is parsed into has a form on which writing, lookup and
cleaning rely. Names are valid and in lowercase, no attribute is repeated, void elements are empty,
and texts are joined. What was cut out of the text up to a fixed mark does not have this mark in it:
neither a comment its end mark nor raw text the end tag of its element. This holds of raw text even
behind a byte-order mark, where it begins early, since it is cut all the same.

## Main definitions

* `Token.IsCut`: a token whose text ends at the first place where it may end;
* `Element.IsWellFormed`, `Node.IsWellFormed`: the form of parsed trees.

## Main results

* `isCut_of_mem_tokens`: every token that is read is cut;
* `each_isCut_parse`: comments and raw text of a parsed tree do not have their end marks in them;
* `each_isWellFormed_parse`: every parsed tree is well formed.
-/

namespace BoundMarkup.Markup

open Text

/-! ### Tokens -/

/-- A token whose text ends at the first place where it may end: a comment has no end mark in it,
and raw text has no end tag of its element, in any case of letters. -/
def Token.IsCut : Token → Prop
  | .comment text => ¬"-->".toList <:+: text
  | .tag (.raw body) content => ¬lower ("</" ++ tagName content).toList <:+: lower body
  | _ => True

/-- A construct is cut where the first end mark stands. -/
private theorem isCut_of_construct {s rest : List Char} {t : Token}
    (h : construct s = .ok (t, rest)) : t.IsCut := by
  refine of_construct (p := Token.IsCut) (fun _ hend => hend) (fun _ => trivial) (fun _ => trivial)
    (fun _ => trivial) (fun _ _ => trivial) (fun content => ?_) h
  -- A tag comes without raw text, which is cut out afterwards.
  unfold tagOf
  split
  · trivial
  · trivial

/-- The content of a raw-text element is cut at its end tag, wherever it begins. -/
private theorem isCut_rawElement (marked : Bool) (content rest : List Char) :
    (Token.tag (.raw (rawElement marked content rest).1) content).IsCut := by
  have hmark : ("</" ++ tagName content).toList = '<' :: '/' :: (tagName content).toList := by simp
  show ¬lower ("</" ++ tagName content).toList <:+: lower (rawElement marked content rest).1
  rw [hmark, ← cutCaseless_eq_none_iff (List.cons_ne_nil _ _)]
  exact cutCaseless_rawContent (tagName content) (rawSource marked content rest)

/-- Every token that is read is cut. -/
theorem isCut_of_mem_tokens (marked : Bool) (s : List Char) :
    ∀ t ∈ (readFrom marked s).tokens, t.IsCut := by
  fun_induction readFrom marked s with
  | case1 => exact List.forall_mem_nil _
  | case2 => exact List.forall_mem_nil _
  | case3 marked s token rest h content hraw ih =>
    exact List.forall_mem_cons.mpr ⟨isCut_rawElement marked content rest, ih⟩
  | case4 marked s token rest h hraw ih =>
    exact List.forall_mem_cons.mpr ⟨isCut_of_construct h, ih⟩
  | case5 marked s name rest h ih => exact List.forall_mem_cons.mpr ⟨trivial, ih⟩
  | case6 marked s h ih => exact List.forall_mem_cons.mpr ⟨trivial, ih⟩
  | case7 marked c s hlt hamp ih => exact List.forall_mem_cons.mpr ⟨trivial, ih⟩

/-! ### Nodes -/

/-- A comment without an end mark in it, an element that has one text at most and no end tag in it
if it holds raw text, or any text or declaration. -/
def Node.IsCut : Node → Prop
  | .element tag children => isRawText tag.name = true →
    ∃ s, children = textChildren s ∧ ¬lower ("</" ++ tag.name).toList <:+: lower s.toList
  | .text _ => True
  | .comment s => ¬"-->".toList <:+: s.toList
  | .doctype _ => True

/-- Comments and raw text of a parsed tree do not have their end marks in them. -/
theorem each_isCut_parse {markup : String} {f : Fragment} (h : parse markup = .ok f) :
    Fragment.Each Node.IsCut f := by
  have hempty (tag : Tag) : Node.IsCut (.element tag []) := by
    intro _
    refine ⟨"", rfl, ?_⟩
    intro hinfix
    have hnil : lower ("</" ++ tag.name).toList = [] := List.infix_nil.mp hinfix
    simp [lower] at hnil
  -- An element that holds raw text is never open, so it has what came with its tag.
  have hopen (tag : Tag) (children : List Node) (htag : isRawText tag.name = false) :
      Node.IsCut (.element tag children) := by
    intro hraw
    exact Bool.noConfusion (htag.symm.trans hraw)
  refine each_parse_of_fits (fun _ => trivial) hempty hopen ?_ h
  intro t ht
  have hsound := isSound_of_mem_tokens _ _ t ht
  have hcut := isCut_of_mem_tokens _ _ t ht
  cases t with
  | tag form content =>
    intro tag hof
    have hname := name_of_ofText? hof
    cases form with
    | opening =>
      intro _
      rw [hname]
      exact hsound
    | childless => trivial
    | raw text =>
      intro _
      refine ⟨String.ofList text, rfl, ?_⟩
      rw [hname, String.toList_ofList]
      exact hcut
  | comment text =>
    show ¬"-->".toList <:+: (String.ofList text).toList
    rw [@String.toList_ofList text]
    exact hcut
  | _ => trivial

/-! ### Trees -/

/-- An element as markup is parsed into. -/
structure Element.IsWellFormed (e : Element) : Prop where
  /-- The name has the form of an element name. -/
  name : validElementName e.tag.name = true
  /-- The names of the attributes can be written. -/
  valid : ∀ a ∈ e.tag.attributes, validAttributeName a.name = true
  /-- The names of the attributes have no capital letters of ASCII. -/
  noCapital : ∀ a ∈ e.tag.attributes, ∀ c ∈ a.name.toList, c.isUpper = false
  /-- No two attributes have the same name. -/
  nodup : (e.tag.attributes.map (·.name)).Nodup
  /-- A void element is empty. -/
  void : isVoid e.tag.name = true → e.children = []
  /-- An element that holds raw text is empty, or it has a single text. That is not empty and has no
  end tag of the element in it, in any case of letters. -/
  rawText : isRawText e.tag.name = true → e.children = [] ∨
    ∃ s, e.children = [.text s] ∧ s ≠ "" ∧ ¬lower ("</" ++ e.tag.name).toList <:+: lower s.toList
  /-- No text is empty, and no two texts meet. -/
  joined : Fragment.IsJoined e.children

/-- A node as markup is parsed into: an element of that form, a comment without an end mark in it, a
declaration without blanks at its ends, or a text, of which its siblings say more. -/
def Node.IsWellFormed : Node → Prop
  | .element tag children => Element.IsWellFormed { tag, children }
  | .text _ => True
  | .comment s => ¬"-->".toList <:+: s.toList
  | .doctype s => trimmed s = s

/-- What is in lowercase has no capital letter. -/
private theorem isUpper_eq_false_of_lowercase {s : String} (h : lowercase s = s) :
    ∀ c ∈ s.toList, c.isUpper = false := by
  intro c hc
  rw [← h, toList_lowercase] at hc
  obtain ⟨d, -, rfl⟩ := List.mem_map.mp hc
  exact isUpper_toLower d

/-- Children that show a text are none, or a text that is not empty. -/
private theorem textChildren_cases (s : String) :
    textChildren s = [] ∨ (textChildren s = [.text s] ∧ s ≠ "") := by
  unfold textChildren
  split
  · exact .inl rfl
  · next hs => exact .inr ⟨rfl, by simpa using hs⟩

/-- What is known of the tag of an element, of raw text in it and of its children makes it well
formed. -/
private theorem isWellFormed_element {tag : Tag} {children : Fragment} (htag : tag.IsNormal)
    (hbare : Node.IsBare (.element tag children)) (hcut : Node.IsCut (.element tag children))
    (hjoined : Fragment.IsJoined children) : Element.IsWellFormed { tag, children } where
  name := htag.name
  valid := htag.valid
  noCapital := fun a ha => isUpper_eq_false_of_lowercase (htag.lower a ha)
  nodup := htag.nodup
  void := hbare
  rawText := by
    intro hraw
    obtain ⟨s, rfl, hend⟩ := hcut hraw
    rcases textChildren_cases s with hnone | ⟨hsome, hs⟩
    · exact .inl hnone
    · exact .inr ⟨s, hsome, hs, hend⟩
  joined := hjoined

/-- Every parsed tree is well formed, at every depth: names are valid, those of attributes have no
capitals and are not repeated, void elements are empty, raw text is a single text without the end
tag of its element, and comments and declarations are as they can be written. Among siblings, also
at the top, no text is empty and no two texts meet. -/
theorem each_isWellFormed_parse {markup : String} {f : Fragment} (h : parse markup = .ok f) :
    Fragment.IsJoined f ∧ Fragment.Each Node.IsWellFormed f := by
  obtain ⟨hjoined, hchildren⟩ := isJoinedThroughout_parse h
  have hsound := each_isSound_parse h
  have hbare := each_isBare_parse h
  have hcut := each_isCut_parse h
  refine ⟨hjoined, ((hsound.and hbare).and (hcut.and hchildren)).imp ?_⟩
  rintro n ⟨⟨hsound, hbare⟩, hcut, hchildren⟩
  cases n with
  | element tag children => exact isWellFormed_element hsound hbare hcut hchildren
  | text s => trivial
  | comment s => exact hcut
  | doctype s =>
    have htrimmed : trim s.toList = s.toList := hsound.trimmed
    rw [Node.IsWellFormed, trimmed, htrimmed, String.ofList_toList]

/-- A mark at the front, tags in capitals, an attribute that is repeated, an element that is not
closed, an end tag of a void element, and raw text that begins early and has a part of an end tag
in it. -/
theorem each_isWellFormed_parse_unclosed :
    ∃ f, parse "\ufeff<!doctype  html ><DIV ID=a id=b><!-- x --->y</br>&amp;<Style></sty</STYLE>z" =
        .ok f ∧
      Fragment.IsJoined f ∧ Fragment.Each Node.IsWellFormed f := by
  have hparse :
      parse "\ufeff<!doctype  html ><DIV ID=a id=b><!-- x --->y</br>&amp;<Style></sty</STYLE>z" =
        .ok [.doctype "html", .element ⟨"div", [⟨"id", "a"⟩]⟩
          [.comment " x -", .text "y&", .element ⟨"style", []⟩ [.text "le></sty"], .text "z"]] := by
    with_unfolding_all rfl
  exact ⟨_, hparse, each_isWellFormed_parse hparse⟩

end BoundMarkup.Markup
