import BoundMarkup.Proofs.Markup.Attribute
import BoundMarkup.Proofs.Markup.Clean
import BoundMarkup.Proofs.Markup.Parsed
import BoundMarkup.Proofs.Markup.Tokens

/-!
# Clean markup that is read back

The written form of a clean fragment is read as its tokens, so the elements of the tree that is read
are those that are written, none of them denied, and it has no comment and no declaration. What an
element has in the way of attributes is another matter: where a name is repeated, the reader takes
what stands in the repeated value behind a space for attributes. So the tree is clean if and only if
these strays are, in particular if no written element repeats a name with a value that has a space.
What comes from a text repeats no name, since only the first attribute of a name is read.

## Main definitions

* `Fragment.writtenTags`: the tags that the written form of a fragment has;
* `Tag.IsDistinct`: a tag that repeats no attribute name.

## Main results

* `yields_tokens_iff`: what the tokens of a fragment stand for is what its written tags are read as;
* `readBack_isClean_iff`: a clean tag is read back clean if and only if its strays are clean;
* `parse_toHtml_cleaned`: when a cleaned fragment is clean after it is written and read.
-/

namespace BoundMarkup.Markup

open Text

/-- The tags that the written form of a fragment has, in order: those with a valid name that are not
inside a void element. -/
def Fragment.writtenTags (f : Fragment) : List Tag :=
  (Fragment.visited (!isVoid ·.name) f).filter fun tag => validElementName tag.name

/-- A tag that repeats no attribute name. -/
def Tag.IsDistinct (tag : Tag) : Prop := (tag.attributes.map (·.name)).Nodup

/-! ### The tokens of a fragment -/

section

variable {p : Node → Prop}

/-- A character of text yields every property. -/
theorem yields_textToken (c : Char) : (textToken c).Yields p := by
  unfold textToken
  split
  · trivial
  · split
    · trivial
    · split
      · trivial
      · trivial

/-- The start tag of an element yields what its tag is read back as. -/
theorem yields_writtenText {tag : Tag} (h : validElementName tag.name = true) (form : TagForm) :
    (Token.tag form tag.writtenText).Yields p ↔ p (.element tag.readBack []) := by
  simp [Token.Yields, ofText?_writtenText h]

mutual

/-- What the tokens of a node stand for is what its written tags are read as. -/
private theorem Node.yields_tokens_iff : ∀ {n : Node}, n.Each Node.IsKept →
    ((∀ t ∈ n.tokens, t.Yields p) ↔ ∀ tag ∈ Fragment.writtenTags [n], p (.element tag.readBack []))
  | .element tag children, h => by
    rw [Node.Each, Node.IsKept] at h
    have hraw : isRawText tag.name = false := isRawText_eq_false h.1
    have ih := Fragment.yields_tokens_iff h.2
    rw [Fragment.writtenTags] at ih
    rw [Node.tokens, Fragment.writtenTags, Fragment.visited, Fragment.visited, Node.visited]
    cases hvalid : validElementName tag.name with
    | false =>
      -- An element whose name is not valid is not void, so its children are visited.
      have hvoid : isVoid tag.name = false := by
        refine Bool.eq_false_iff.mpr fun hvoid => ?_
        rw [(of_isVoid hvoid).1] at hvalid
        cases hvalid
      simpa [hvalid, hvoid] using ih
    | true =>
      cases hvoid : isVoid tag.name with
      | true =>
        -- What is inside a void element is neither written nor visited.
        simp [hvalid, yields_writtenText hvalid]
      | false =>
        have hclosing : (Token.closing tag.name.toList).Yields p := trivial
        simp only [hvalid, hraw, Bool.false_eq_true, if_true, if_false, Bool.not_false,
          List.append_nil, List.filter_cons_of_pos, List.forall_mem_cons, List.forall_mem_append,
          yields_writtenText hvalid, ih]
        simp [hclosing]
  | .text s, _ => by
    simp [Node.tokens, Fragment.writtenTags, Fragment.visited, Node.visited, yields_textToken]
  | .comment s, h => by
    rw [Node.Each] at h
    exact h.elim
  | .doctype s, h => by
    rw [Node.Each] at h
    exact h.elim

/-- What the tokens of a fragment stand for is what its written tags are read as, if there are
only texts and elements that hold no raw text. -/
theorem Fragment.yields_tokens_iff : ∀ {f : List Node}, Fragment.Each Node.IsKept f →
    ((∀ t ∈ Fragment.tokens f, t.Yields p) ↔
      ∀ tag ∈ Fragment.writtenTags f, p (.element tag.readBack []))
  | [], _ => by simp [Fragment.tokens, Fragment.writtenTags, Fragment.visited]
  | n :: f, h => by
    rw [Fragment.each_cons] at h
    have hn := Node.yields_tokens_iff h.1
    have hf := Fragment.yields_tokens_iff h.2
    have hsplit : Fragment.writtenTags (n :: f) =
        Fragment.writtenTags [n] ++ Fragment.writtenTags f := by
      simp [Fragment.writtenTags, Fragment.visited]
    rw [Fragment.tokens, hsplit, List.forall_mem_append, List.forall_mem_append, hn, hf]

end

end

/-! ### Attributes -/

/-- A clean tag is read back clean if and only if its strays are clean. -/
theorem readBack_isClean_iff {tag : Tag} (h : tag.IsClean) :
    tag.readBack.IsClean ↔ ∀ a ∈ tag.strays, a.isClean = true := by
  refine ⟨fun hread a ha => hread a (List.mem_filter.mp ha).1, fun hstrays a ha => ?_⟩
  by_cases hmem : a ∈ tag.normalized.attributes
  · -- The attributes that the tag has are read with their names in lowercase.
    obtain ⟨b, hb, rfl⟩ := List.mem_map.mp hmem
    rw [Attribute.isClean_lowercased]
    exact h b (List.mem_filter.mp hb).1
  · exact hstrays a (List.mem_filter.mpr ⟨ha, decide_eq_true hmem⟩)

/-! ### Fragments -/

namespace Node

/-- A node whose tag repeats no attribute name. -/
def IsDistinct : Node → Prop
  | element tag _ => tag.IsDistinct
  | text _ => True
  | comment _ => True
  | doctype _ => True

/-- A normal tag repeats no name. -/
theorem IsSound.isDistinct {n : Node} (h : n.IsSound) : n.IsDistinct := by
  cases n with
  | element tag children => exact h.nodup
  | text s => trivial
  | comment s => trivial
  | doctype s => trivial

theorem IsKept.isReadable {n : Node} (h : n.IsKept) : n.IsReadable := by
  cases n with
  | element tag children =>
    intro hraw
    rw [isRawText_eq_false h] at hraw
    cases hraw
  | text s => trivial
  | comment s => exact False.elim h
  | doctype s => exact False.elim h

theorem IsKept.isRawFree {n : Node} (h : n.IsKept) : n.IsRawFree := by
  cases n with
  | element tag children => exact isRawText_eq_false h
  | text s => trivial
  | comment s => exact False.elim h
  | doctype s => exact False.elim h

end Node

/-- The written form of texts and elements that are not denied is parsed, and the nodes of its tree
are what the written tags are read as. -/
theorem exists_parse_toHtml {f : Fragment} (hf : Fragment.Each Node.IsKept f) :
    ∃ g, parse (Fragment.toHtml f) = .ok g ∧
      ∀ p, IgnoresChildren p → (∀ s, p (.text s)) →
        (Fragment.Each p g ↔ ∀ tag ∈ Fragment.writtenTags f, p (.element tag.readBack [])) := by
  obtain ⟨ts, hread, hts⟩ :=
    read_written_of_isRawFree (hf.imp fun _ => Node.IsKept.isReadable)
      (hf.imp fun _ => Node.IsKept.isRawFree)
  have hlist : read (Fragment.toHtml f).toList = .prepend ts .done := by
    rw [Fragment.toHtml, String.toList_ofList, hread]
  have hparse := parse_of_read hlist
  refine ⟨_, hparse, fun p hp htext => ?_⟩
  rw [each_parse_iff hp htext hparse, hlist, Reading.tokens_prepend_done,
    ← Fragment.yields_tokens_iff hf]
  -- A byte-order mark that is not read would have been text.
  rcases hts with hts | hts
  · rw [hts]
  · rw [hts, List.forall_mem_cons]
    exact (and_iff_right trivial).symm

/-- The tags of the clean tree of a text are normal, since cleaning only takes attributes away. -/
theorem each_isSound_clean (markup : String) : Fragment.Each Node.IsSound (clean markup) := by
  rw [clean]
  split
  · next f hf =>
    exact Fragment.each_cleaned_of (fun tag _ _ _ h => isNormal_cleaned h) (fun _ => trivial)
      (each_isSound_parse hf)
  · exact Fragment.each_text.mpr trivial

/-- No tag of the clean tree of a text repeats an attribute name. -/
theorem each_isDistinct_clean (markup : String) :
    Fragment.Each Node.IsDistinct (clean markup) :=
  (each_isSound_clean markup).imp fun _ => Node.IsSound.isDistinct

/-- A tag that is written is one that the fragment has. -/
private theorem isClean_of_mem_writtenTags {f : Fragment} {tag : Tag}
    (h : tag ∈ Fragment.writtenTags (Fragment.cleaned f)) :
    isDenied tag.name = false ∧ tag.IsClean ∧ validElementName tag.name = true := by
  obtain ⟨hvisited, hvalid⟩ := List.mem_filter.mp h
  obtain ⟨_, hdenied, hclean⟩ := Fragment.of_mem_visited (Fragment.each_cleaned f) hvisited
  exact ⟨hdenied, hclean, hvalid⟩

/-- The tree that is read from the written form of a cleaned fragment has texts and elements that
are not denied only, and it is clean if and only if what is read of each tag beyond its attributes
is. -/
private theorem exists_parse_cleaned (f : Fragment) :
    ∃ g, parse (Fragment.toHtml (Fragment.cleaned f)) = .ok g ∧ Fragment.Each Node.IsKept g ∧
      (Fragment.Each Node.IsClean g ↔
        ∀ tag ∈ Fragment.writtenTags (Fragment.cleaned f), ∀ a ∈ tag.strays, a.isClean = true) := by
  obtain ⟨g, hparse, hg⟩ :=
    exists_parse_toHtml ((Fragment.each_cleaned f).imp fun _ => Node.IsClean.isKept)
  refine ⟨g, hparse, ?_, ?_⟩
  · -- The name of a tag is read back as it is, so no element of the tree is denied.
    refine (hg Node.IsKept (fun _ _ _ h => h) fun _ => trivial).mpr fun tag htag => ?_
    exact (isClean_of_mem_writtenTags htag).1
  · rw [hg Node.IsClean Node.ignoresChildren_isClean fun _ => trivial]
    refine forall₂_congr fun tag htag => ?_
    obtain ⟨hdenied, hclean, -⟩ := isClean_of_mem_writtenTags htag
    rw [← readBack_isClean_iff hclean, Node.IsClean]
    exact and_iff_right hdenied

/-- The written form of a cleaned fragment is read clean unless it repeats an attribute name with a
value that has a space. -/
private theorem exists_parse_cleaned_of_pairwise {f : Fragment}
    (h : ∀ tag ∈ Fragment.writtenTags (Fragment.cleaned f),
      tag.writtenAttributes.Pairwise fun a b => a.name = b.name → b.IsUnbroken) :
    ∃ g, parse (Fragment.toHtml (Fragment.cleaned f)) = .ok g ∧
      Fragment.Each Node.IsClean g := by
  obtain ⟨g, hparse, -, hclean⟩ := exists_parse_cleaned f
  refine ⟨g, hparse, hclean.mpr fun tag htag a ha => ?_⟩
  rw [strays_eq_nil (isClean_of_mem_writtenTags htag).2.2 (h tag htag)] at ha
  cases ha

/-- The written form of a cleaned fragment is always parsed, and the tree has no denied element, no
comment and no declaration. All its attributes are clean if and only if the strays of the written
tags are, so in particular if no written tag repeats a name with a value that has a space. What is
sanitized from a text repeats no name. -/
theorem parse_toHtml_cleaned (f : Fragment) (markup : String) :
    (∃ g, parse (Fragment.toHtml (Fragment.cleaned f)) = .ok g ∧ Fragment.Each Node.IsKept g ∧
        (Fragment.Each Node.IsClean g ↔
          ∀ tag ∈ Fragment.writtenTags (Fragment.cleaned f),
            ∀ a ∈ tag.strays, a.isClean = true)) ∧
      ((∀ tag ∈ Fragment.writtenTags (Fragment.cleaned f),
          tag.writtenAttributes.Pairwise fun a b => a.name = b.name → b.IsUnbroken) →
        ∃ g, parse (Fragment.toHtml (Fragment.cleaned f)) = .ok g ∧
          Fragment.Each Node.IsClean g) ∧
      ∃ g, parse (sanitize markup) = .ok g ∧ Fragment.Each Node.IsClean g := by
  refine ⟨exists_parse_cleaned f, exists_parse_cleaned_of_pairwise, ?_⟩
  -- The clean tree of a text is a cleaned fragment, and none of its tags repeats a name.
  have hfixed : Fragment.cleaned (clean markup) = clean markup :=
    Fragment.cleaned_eq_self (each_clean markup)
  rw [sanitize, ← hfixed]
  refine exists_parse_cleaned_of_pairwise fun tag htag => ?_
  rw [hfixed] at htag
  obtain ⟨_, hdistinct⟩ :=
    Fragment.of_mem_visited (each_isDistinct_clean markup) (List.mem_filter.mp htag).1
  have hnames : (tag.writtenAttributes.map (·.name)).Nodup :=
    hdistinct.sublist (List.filter_sublist.map _)
  rw [List.Nodup, List.pairwise_map] at hnames
  exact hnames.imp fun hne heq => absurd heq hne

/-- An element that repeats the name of an attribute, with an event handler in the value. -/
theorem parse_toHtml_cleaned_repeated :
    (parse (Fragment.toHtml (Fragment.cleaned
      [.element ⟨"p", [⟨"a", "1"⟩, ⟨"a", "x onclick=evil() y"⟩]⟩ [.text "t"]]))).toOption.map
        (Fragment.listing 0) =
      some [(0, .element ⟨"p", [⟨"a", "1"⟩, ⟨"onclick", "evil()"⟩]⟩), (1, .text "t")] ∧
      isEventHandler "onclick" = true := by
  decide +kernel

end BoundMarkup.Markup
