import BoundMarkup.Proofs.Markup.Clean
import BoundMarkup.Proofs.Markup.Tokens

/-!
# The grammar of clean markup

What is written of a cleaned tree is more than text that one reader takes for harmless. It lies in a
small grammar: text, start tags with quoted values, and end tags that match them. In it an angle
bracket is always that of a tag, a quotation mark that of a value, and an ampersand that of an
escape, so there is nothing that readers of markup could disagree about.

The grammar says nothing of trees. It is given by the pieces of a text, each in front of what
follows.

## Main definitions

* `IsEscaped`: a text whose ampersands all begin escapes;
* `IsChunk`, `IsValueText`, `IsAttributeText`, `IsStartTag`: the pieces;
* `IsContent`: the texts that the grammar generates.

## Main results

* `isChunk_escapeText`, `isValueText_escapeValue`: escaped texts and values are such pieces;
* `isStartTag_written`: so is the written form of a clean tag;
* `isContent_toHtml_cleaned`: the grammar generates the written form of every cleaned fragment.
-/

namespace BoundMarkup.Markup

open Text

/-! ### The grammar -/

/-- A text in which every ampersand begins one of the given escapes. -/
def IsEscaped (escapes : List String) (s : List Char) : Prop :=
  ∀ before behind, s = before ++ '&' :: behind → ∃ e ∈ escapes, e.toList <+: '&' :: behind

/-- Text between tags. -/
structure IsChunk (s : List Char) : Prop where
  /-- No tag begins in it. -/
  opening : '<' ∉ s
  /-- No tag ends in it. -/
  closing : '>' ∉ s
  /-- Its ampersands begin escapes. -/
  escaped : IsEscaped ["&amp;", "&lt;", "&gt;"] s

/-- What stands between the quotation marks of a value. -/
structure IsValueText (s : List Char) : Prop where
  /-- The value does not end in it. -/
  quote : '"' ∉ s
  /-- No tag begins in it. -/
  opening : '<' ∉ s
  /-- No tag ends in it. -/
  closing : '>' ∉ s
  /-- Its ampersands begin escapes. -/
  escaped : IsEscaped ["&amp;", "&quot;", "&lt;", "&gt;"] s

/-- An attribute in a tag: a space, a valid name that is no event handler, and a value in quotation
marks that is no executable URL where it is followed as one. -/
inductive IsAttributeText : List Char → Prop where
  | intro {name : String} {value : List Char} (valid : validAttributeName name = true)
      (handler : isEventHandler name = false) (text : IsValueText value)
      (url : isUrlAttribute name = true →
        isExecutableUrl (String.ofList (decodeReferences value)) = false) :
      IsAttributeText (' ' :: name.toList ++ ['=', '"'] ++ value ++ ['"'])

/-- The start tag of an element of that name, which is valid and not denied. -/
inductive IsStartTag (name : String) : List Char → Prop where
  | intro {attributes : List (List Char)} (valid : validElementName name = true)
      (denied : isDenied name = false) (text : ∀ a ∈ attributes, IsAttributeText a) :
      IsStartTag name ('<' :: name.toList ++ attributes.flatten ++ ['>'])

/-- The texts that the grammar generates. A void element is its start tag; any other element has
content between its start tag and an end tag of the same name. -/
inductive IsContent : List Char → Prop where
  | nil : IsContent []
  | chunk {s rest : List Char} (text : IsChunk s) (next : IsContent rest) : IsContent (s ++ rest)
  | voidElement {name : String} {start rest : List Char} (void : isVoid name = true)
      (tag : IsStartTag name start) (next : IsContent rest) : IsContent (start ++ rest)
  | element {name : String} {start content rest : List Char} (void : isVoid name = false)
      (tag : IsStartTag name start) (inside : IsContent content) (next : IsContent rest) :
      IsContent (start ++ content ++ ('<' :: '/' :: name.toList ++ ['>']) ++ rest)

/-! ### Escapes -/

namespace IsEscaped

variable {escapes : List String}

theorem nil : IsEscaped escapes [] := by
  intro before behind h
  simp at h

/-- A character that is no ampersand begins no escape. -/
theorem cons {c : Char} (hc : c ≠ '&') {s : List Char} (h : IsEscaped escapes s) :
    IsEscaped escapes (c :: s) := by
  intro before behind heq
  cases before with
  | nil => exact absurd (List.cons.inj heq).1 hc
  | cons d before => exact h before behind (List.cons.inj heq).2

/-- An escape has no further ampersand in it. -/
theorem append (name : List Char) {s : List Char}
    (he : ∃ e ∈ escapes, e.toList = '&' :: name) (hname : '&' ∉ name)
    (h : IsEscaped escapes s) : IsEscaped escapes ('&' :: name ++ s) := by
  obtain ⟨e, hmem, heq⟩ := he
  have hrest : ∀ t : List Char, '&' ∉ t → IsEscaped escapes (t ++ s) := by
    intro t ht
    induction t with
    | nil => exact h
    | cons c t ih =>
      obtain ⟨hc, ht⟩ := List.ne_and_not_mem_of_not_mem_cons ht
      exact cons (Ne.symm hc) (ih ht)
  intro before behind hsplit
  cases before with
  | nil =>
    refine ⟨e, hmem, s, ?_⟩
    rw [heq, hsplit, List.nil_append]
  | cons c before => exact hrest name hname before behind (List.cons.inj hsplit).2

end IsEscaped

/-- Escaped text is a piece of text between tags. -/
theorem isChunk_escapeText (s : List Char) : IsChunk (escapeText s) := by
  obtain ⟨hlt, hgt⟩ := not_mem_escapeText s
  refine ⟨hlt, hgt, ?_⟩
  clear hlt hgt
  induction s with
  | nil => exact .nil
  | cons c s ih =>
    rw [escapeText, List.flatMap_cons]
    change IsEscaped _ (escapeTextChar c ++ escapeText s)
    -- Three characters are written as escapes; every other one stands for itself.
    unfold escapeTextChar
    split
    · exact .append "amp;".toList ⟨"&amp;", by simp, rfl⟩ (by decide) ih
    · exact .append "lt;".toList ⟨"&lt;", by simp, rfl⟩ (by decide) ih
    · exact .append "gt;".toList ⟨"&gt;", by simp, rfl⟩ (by decide) ih
    · next hamp _ _ => exact .cons hamp ih

/-- An escaped value can stand between quotation marks. -/
theorem isValueText_escapeValue (s : List Char) : IsValueText (escapeValue s) := by
  obtain ⟨hquote, hangle, hlt⟩ := not_mem_escapeValue s
  refine ⟨hquote, hlt, hangle, ?_⟩
  clear hquote hangle hlt
  induction s with
  | nil => exact .nil
  | cons c s ih =>
    rw [escapeValue, List.flatMap_cons]
    change IsEscaped _ (escapeValueChar c ++ escapeValue s)
    unfold escapeValueChar
    split
    · exact .append "amp;".toList ⟨"&amp;", by simp, rfl⟩ (by decide) ih
    · exact .append "quot;".toList ⟨"&quot;", by simp, rfl⟩ (by decide) ih
    · exact .append "lt;".toList ⟨"&lt;", by simp, rfl⟩ (by decide) ih
    · exact .append "gt;".toList ⟨"&gt;", by simp, rfl⟩ (by decide) ih
    · next hamp _ _ _ => exact .cons hamp ih

/-! ### Tags -/

/-- A clean attribute with a valid name is written as an attribute of the grammar. -/
theorem isAttributeText_written {a : Attribute} (hvalid : validAttributeName a.name = true)
    (hclean : a.isClean = true) : IsAttributeText a.written := by
  rw [Attribute.isClean, Bool.and_eq_true, Bool.not_eq_true', Bool.not_eq_true'] at hclean
  refine .intro hvalid hclean.1 (isValueText_escapeValue _) fun hurl => ?_
  -- Decoding an escaped value gives the value.
  have hvalue := hclean.2
  rw [hurl, Bool.true_and] at hvalue
  rwa [decodeReferences_escapeValue, String.ofList_toList]

/-- A clean tag is written as a start tag of the grammar. -/
theorem isStartTag_written {tag : Tag} (hvalid : validElementName tag.name = true)
    (hdenied : isDenied tag.name = false) (hclean : tag.IsClean) :
    IsStartTag tag.name tag.written := by
  rw [Tag.written, List.flatMap]
  refine .intro hvalid hdenied fun s hs => ?_
  obtain ⟨a, ha, rfl⟩ := List.mem_map.mp hs
  obtain ⟨hmem, hname⟩ := List.mem_filter.mp ha
  exact isAttributeText_written hname (hclean a hmem)

/-! ### Fragments -/

mutual

/-- The written form of a clean node, in front of content, is content. -/
theorem Node.isContent_written : ∀ {n : Node} {rest : List Char}, n.Each Node.IsClean →
    IsContent rest → IsContent (n.written ++ rest)
  | .element tag children, rest, h, hrest => by
    rw [Node.Each, Node.IsClean] at h
    obtain ⟨⟨hdenied, hclean⟩, hchildren⟩ := h
    rw [Node.written_element]
    split
    · next hvalid =>
      have htag := isStartTag_written hvalid hdenied hclean
      split
      · next hvoid =>
        rw [List.append_nil]
        exact .voidElement hvoid htag hrest
      · next hvoid =>
        -- An element that is not denied holds no raw text.
        rw [if_neg (by rw [isRawText_eq_false hdenied]; exact Bool.false_ne_true)]
        have hinside := Fragment.isContent_written hchildren .nil
        rw [List.append_nil] at hinside
        rw [← List.append_assoc]
        exact .element (Bool.eq_false_iff.mpr hvoid) htag hinside hrest
    · -- Of an element without a valid name only the children are written.
      exact Fragment.isContent_written hchildren hrest
  | .text s, rest, _, hrest => by
    rw [Node.written_text]
    exact .chunk (isChunk_escapeText _) hrest
  | .comment s, _, h, _ => by
    rw [Node.Each] at h
    exact h.elim
  | .doctype s, _, h, _ => by
    rw [Node.Each] at h
    exact h.elim

/-- The written form of a clean fragment, in front of content, is content. -/
theorem Fragment.isContent_written : ∀ {f : List Node} {rest : List Char},
    Fragment.Each Node.IsClean f → IsContent rest → IsContent (Fragment.written f ++ rest)
  | [], _, _, hrest => by
    rw [Fragment.written]
    exact hrest
  | n :: f, _, h, hrest => by
    rw [Fragment.each_cons] at h
    rw [Fragment.written, List.append_assoc]
    exact Node.isContent_written h.1 (Fragment.isContent_written h.2 hrest)

end

/-- The grammar generates the written form of every cleaned fragment, whatever names, values and
texts the fragment has and however it is nested. -/
theorem isContent_toHtml_cleaned (f : Fragment) :
    IsContent (Fragment.toHtml (Fragment.cleaned f)).toList := by
  have h := Fragment.isContent_written (Fragment.each_cleaned f) .nil
  rw [List.append_nil] at h
  rwa [Fragment.toHtml, String.toList_ofList]

end BoundMarkup.Markup
