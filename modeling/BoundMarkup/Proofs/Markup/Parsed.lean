import BoundMarkup.Proofs.Markup.Assembly
import BoundMarkup.Proofs.Markup.Doctype
import BoundMarkup.Proofs.Markup.TagText

/-!
# What parsed trees are like

A tree that was parsed can be written and read again: the names in its tags are valid and in
lowercase, and no attribute is repeated; its document type declarations are whole; an element that
holds raw text has one text at most, since what is inside it is never read as markup; and a void
element has nothing in it.

What is inside an element was read while it was open, or is the text of a raw-text element. So a
property of all elements that may be open and of all that have no children holds of every node.

## Main definitions

* `Tag.IsNormal`: a tag that is read back as it is;
* `Node.IsSound`: an element with a normal tag, or a declaration that is whole;
* `Node.IsPlain`: an element that has one text at most if it holds raw text;
* `Node.IsBare`: an element that has no children if it is void;
* `Assembly.Fits p o`: every node so far has the property `p`, every open tag the property `o`.

## Main results

* `Tag.IsNormal.readBack_eq`: a normal tag is read back as it is;
* `each_isSound_parse`: every node of a parsed tree is sound;
* `each_parse_of_fits`: a property of nodes that may depend on children holds of every node of a
  parsed tree if the tokens respect it;
* `each_isPlain_parse`, `each_isBare_parse`: every node of a parsed tree is plain and bare.
-/

namespace BoundMarkup.Markup

open Text

/-! ### Tags -/

/-- A tag that has valid names in lowercase only and repeats no name of an attribute. -/
structure Tag.IsNormal (tag : Tag) : Prop where
  /-- The name of the element is valid. -/
  name : validElementName tag.name = true
  /-- The names of the attributes are valid. -/
  valid : ∀ a ∈ tag.attributes, validAttributeName a.name = true
  /-- The names of the attributes are in lowercase. -/
  lower : ∀ a ∈ tag.attributes, lowercase a.name = a.name
  /-- No two attributes have the same name. -/
  nodup : (tag.attributes.map (·.name)).Nodup

namespace Tag.IsNormal

variable {tag : Tag}

theorem normalized_eq (h : tag.IsNormal) : tag.normalized = tag := by
  have hwritten : tag.writtenAttributes = tag.attributes := List.filter_eq_self.mpr h.valid
  have hmap : tag.attributes.map Attribute.lowercased = tag.attributes := by
    rw [List.map_congr_left (g := id) fun a ha => ?_, List.map_id]
    rw [Attribute.lowercased, h.lower a ha, id]
  rw [Tag.normalized, hwritten, hmap]

/-- A normal tag is read back as it is. -/
theorem readBack_eq (h : tag.IsNormal) : tag.readBack = tag := by
  have hnodup : (tag.attributes.map fun a => lowercase a.name).Nodup := by
    rw [List.map_congr_left h.lower]
    exact h.nodup
  rw [readBack_eq_normalized h.name hnodup, h.normalized_eq]

end Tag.IsNormal

/-- The tag that a text stands for is normal. -/
theorem isNormal_of_ofText? {text : List Char} {tag : Tag} (h : Tag.ofText? text = some tag) :
    tag.IsNormal := by
  rw [Tag.ofText?] at h
  split at h
  · next hname =>
    cases h
    have hmem : ∀ a ∈ firstOfEach (((tagAttributes text).map RawAttribute.decoded).filter fun a =>
        validAttributeName a.name),
        validAttributeName a.name = true ∧ lowercase a.name = a.name := by
      intro a ha
      -- What was left out for its name or as a repetition is not among them.
      obtain ⟨ha, hvalid⟩ := List.mem_filter.mp ((firstOfEach_sublist _).subset ha)
      obtain ⟨r, -, rfl⟩ := List.mem_map.mp ha
      exact ⟨hvalid, by simp [RawAttribute.decoded, RawAttribute.name, lowercase]⟩
    exact {
      name := hname
      valid := fun a ha => (hmem a ha).1
      lower := fun a ha => (hmem a ha).2
      nodup := nodup_firstOfEach _ }
  · cases h

theorem name_of_ofText? {text : List Char} {tag : Tag} (h : Tag.ofText? text = some tag) :
    tag.name = tagName text := by
  rw [Tag.ofText?] at h
  split at h
  · cases h
    rfl
  · cases h

/-! ### Tokens -/

/-- A token that reading yields: a start tag opens raw text if and only if it comes with it, and a
declaration is whole. -/
def Token.IsSound : Token → Prop
  | .tag .opening content => isRawText (tagName content) = false
  | .tag (.raw _) content => isRawText (tagName content) = true
  | .doctype text => IsDeclaration text
  | _ => True

/-- A construct that opens no raw text is a sound token. -/
private theorem isSound_of_construct {s rest : List Char} {t : Token}
    (h : construct s = .ok (t, rest)) : rawTextTag? t = none → t.IsSound := by
  refine of_construct (p := fun t => rawTextTag? t = none → t.IsSound) (fun _ _ _ => trivial)
    (fun _ _ => trivial) (fun _ _ => trivial) (fun _ _ => trivial) (fun _ htext _ => htext)
    (fun content hraw => ?_) h
  rcases tagOf_eq_or content with htag | ⟨text, htag⟩
  · -- The start tag of raw text would have been read together with what follows.
    rw [htag] at hraw ⊢
    refine Bool.eq_false_iff.mpr fun hname => ?_
    rw [rawTextTag?, if_pos hname] at hraw
    cases hraw
  · rw [htag]
    trivial

/-- Every token that is read is sound. -/
theorem isSound_of_mem_tokens (marked : Bool) (s : List Char) :
    ∀ t ∈ (readFrom marked s).tokens, t.IsSound := by
  fun_induction readFrom marked s with
  | case1 => exact nofun
  | case2 => exact nofun
  | case3 marked s token rest h content hraw ih =>
    -- Raw text is a single token, whatever is in it.
    exact List.forall_mem_cons.mpr ⟨(rawTextTag?_eq_some_iff.mp hraw).2, ih⟩
  | case4 marked s token rest h hraw ih =>
    exact List.forall_mem_cons.mpr ⟨isSound_of_construct h hraw, ih⟩
  | case5 marked s name rest h ih => exact List.forall_mem_cons.mpr ⟨trivial, ih⟩
  | case6 marked s h ih => exact List.forall_mem_cons.mpr ⟨trivial, ih⟩
  | case7 marked c s hlt hamp ih => exact List.forall_mem_cons.mpr ⟨trivial, ih⟩

/-! ### Sound nodes -/

namespace Node

/-- An element whose tag is normal, a declaration that is whole, or any text or comment. -/
def IsSound : Node → Prop
  | element tag _ => tag.IsNormal
  | text _ => True
  | comment _ => True
  | doctype s => IsDeclaration s.toList

theorem ignoresChildren_isSound : IgnoresChildren IsSound := fun _ _ _ h => h

/-- A node that is no element, or an element that has one text at most if it holds raw text. -/
def IsPlain : Node → Prop
  | element tag children => isRawText tag.name = true → ∃ s, children = textChildren s
  | text _ => True
  | comment _ => True
  | doctype _ => True

end Node

/-- Every node of a parsed tree is sound. -/
theorem each_isSound_parse {markup : String} {f : Fragment} (h : parse markup = .ok f) :
    Fragment.Each Node.IsSound f := by
  refine (each_parse_iff Node.ignoresChildren_isSound (fun _ => trivial) h).mpr fun t ht => ?_
  have hsound := isSound_of_mem_tokens _ _ t ht
  cases t with
  | tag form content => exact fun tag hof => isNormal_of_ofText? hof
  | doctype text =>
    rw [Token.Yields, Node.IsSound, String.toList_ofList]
    exact hsound
  | _ => trivial

/-! ### What is inside elements -/

namespace Node

/-- A node that is no element, or an element that has no children if it is void. -/
def IsBare : Node → Prop
  | element tag children => isVoid tag.name = true → children = []
  | text _ => True
  | comment _ => True
  | doctype _ => True

end Node

section

variable {p : Node → Prop} {o : Tag → Prop}

/-- What a token adds has the property `p`: its comment, its declaration or the raw-text element of
its tag. A tag that it leaves open has the property `o`. -/
def Token.Fits (p : Node → Prop) (o : Tag → Prop) : Token → Prop
  | .tag form content => ∀ tag, Tag.ofText? content = some tag →
    match form with
    | .opening => isVoid tag.name = false → o tag
    | .childless => True
    | .raw text => p (.element tag (textChildren (String.ofList text)))
  | .comment text => p (.comment (String.ofList text))
  | .doctype text => p (.doctype (String.ofList text))
  | _ => True

/-- A tree under construction in which all nodes have the property `p` and the tags of all open
elements have the property `o`. -/
structure Assembly.Fits (p : Node → Prop) (o : Tag → Prop) (a : Assembly) : Prop where
  /-- The nodes of the innermost level. -/
  nodes : Fragment.Each p a.nodes
  /-- The open elements and the nodes in front of them. -/
  enclosing : ∀ e ∈ a.enclosing, o e.tag ∧ Fragment.Each p e.before

namespace Assembly.Fits

variable {a : Assembly} (htext : ∀ s, p (.text s)) (hempty : ∀ tag, p (.element tag []))
  (hopen : ∀ tag children, o tag → p (.element tag children))

theorem append (h : a.Fits p o) {n : Node} (hn : n.Each p) : (a.append n).Fits p o where
  nodes := Fragment.each_cons.mpr ⟨hn, h.nodes⟩
  enclosing := h.enclosing

include htext in
theorem appendText (h : a.Fits p o) (s : String) : (a.appendText s).Fits p o where
  nodes := by
    have hall (t : String) : (Node.text t).Each p := by
      rw [Node.Each]
      exact htext t
    unfold Assembly.appendText
    split
    · exact h.nodes
    · split
      · next t rest hnodes =>
        have hrest := h.nodes
        rw [hnodes, Fragment.each_cons] at hrest
        exact Fragment.each_cons.mpr ⟨hall _, hrest.2⟩
      · exact Fragment.each_cons.mpr ⟨hall _, h.nodes⟩
  enclosing := by
    unfold Assembly.appendText
    split
    · exact h.enclosing
    · split <;> exact h.enclosing

theorem openElement (h : a.Fits p o) {tag : Tag} (htag : o tag) :
    (a.openElement tag).Fits p o where
  nodes := Fragment.each_nil
  enclosing := List.forall_mem_cons.mpr ⟨⟨htag, h.nodes⟩, h.enclosing⟩

include hopen in
/-- An element that is closed was open, whatever is in it by now. -/
theorem closed {nodes : List Node} {e : OpenElement} {outer : List OpenElement}
    (h : Assembly.Fits p o { nodes, enclosing := e :: outer }) :
    Assembly.Fits p o { nodes := e.closed nodes, enclosing := outer } := by
  obtain ⟨⟨htag, hbefore⟩, houter⟩ := List.forall_mem_cons.mp h.enclosing
  have hnode : (Node.element e.tag nodes.reverse).Each p := by
    rw [Node.Each]
    exact ⟨hopen _ _ htag, Fragment.each_reverse.mpr h.nodes⟩
  exact {
    nodes := Fragment.each_cons.mpr ⟨hnode, hbefore⟩
    enclosing := houter }

include hopen in
theorem of_closed? {name : String} {nodes : List Node} {enclosing : List OpenElement}
    (h : Assembly.Fits p o { nodes, enclosing }) {b : Assembly}
    (hb : closed? name nodes enclosing = some b) : b.Fits p o := by
  induction enclosing generalizing nodes with
  | nil => cases hb
  | cons e outer ih =>
    have hclosed : Assembly.Fits p o { nodes := e.closed nodes, enclosing := outer } :=
      h.closed hopen
    rw [closed?] at hb
    split at hb
    · cases hb
      exact hclosed
    · exact ih hclosed hb

include hopen in
theorem close (h : a.Fits p o) (name : String) : (a.close name).Fits p o := by
  unfold Assembly.close
  cases hb : closed? name a.nodes a.enclosing with
  | none => exact h
  | some b => exact h.of_closed? hopen hb

include hopen in
theorem foldl_closed {nodes : List Node} {enclosing : List OpenElement}
    (h : Assembly.Fits p o { nodes, enclosing }) :
    Fragment.Each p (enclosing.foldl (fun nodes e => e.closed nodes) nodes).reverse := by
  induction enclosing generalizing nodes with
  | nil => exact Fragment.each_reverse.mpr h.nodes
  | cons e outer ih => exact ih (h.closed hopen)

include hopen in
theorem finish (h : a.Fits p o) : Fragment.Each p a.finish := foldl_closed hopen h

include htext hempty in
/-- A tag adds an element that is complete or opens one that may be open. -/
theorem appendTag (h : a.Fits p o) {form : TagForm} {content : List Char} {tag : Tag}
    (hof : Tag.ofText? content = some tag) (ht : Token.Fits p o (.tag form content)) :
    (a.appendTag form tag).Fits p o := by
  have hnone : (Node.element tag []).Each p := by
    rw [Node.Each]
    exact ⟨hempty tag, Fragment.each_nil⟩
  have htag := ht tag hof
  cases form with
  | opening =>
    rw [Assembly.appendTag]
    split
    · exact h.append hnone
    · next hvoid => exact h.openElement (htag (Bool.eq_false_iff.mpr hvoid))
  | childless => exact h.append hnone
  | raw text =>
    refine h.append ?_
    rw [Node.Each]
    exact ⟨htag, Fragment.each_textChildren htext _⟩

include htext hempty hopen in
theorem add (h : a.Fits p o) {t : Token} (ht : t.Fits p o) : (a.add t).Fits p o := by
  cases t with
  | character c => exact h.appendText htext _
  | reference name => exact h.appendText htext _
  | literal text => exact h.appendText htext _
  | tag form content =>
    rw [Assembly.add]
    cases hof : Tag.ofText? content with
    | some tag => exact h.appendTag htext hempty hof ht
    | none => exact h.appendText htext _
  | closing name => exact h.close hopen _
  | comment text =>
    refine h.append ?_
    rw [Node.Each]
    exact ht
  | doctype text =>
    refine h.append ?_
    rw [Node.Each]
    exact ht
  | instruction text => exact h

include htext hempty hopen in
theorem addReading (h : a.Fits p o) {b : Assembly} {r : Reading} (hr : ∀ t ∈ r.tokens, t.Fits p o)
    (hb : a.addReading r = .ok b) : b.Fits p o := by
  induction r generalizing a with
  | done =>
    cases hb
    exact h
  | failed e => cases hb
  | next t r ih =>
    obtain ⟨ht, hr⟩ := List.forall_mem_cons.mp hr
    exact ih (h.add htext hempty hopen ht) hr hb

end Assembly.Fits

/-- A property that texts, elements without children and all elements that may be open have holds of
every node of a parsed tree if every token respects it. -/
theorem each_parse_of_fits (htext : ∀ s, p (.text s)) (hempty : ∀ tag, p (.element tag []))
    (hopen : ∀ tag children, o tag → p (.element tag children))
    {markup : String} {f : Fragment} (hfits : ∀ t ∈ (read markup.toList).tokens, t.Fits p o)
    (h : parse markup = .ok f) : Fragment.Each p f := by
  have hnone : Assembly.Fits p o {} := ⟨Fragment.each_nil, nofun⟩
  obtain ⟨a, ha, rfl⟩ := exists_addReading_of_parse h
  have hall : a.Fits p o := hnone.addReading htext hempty hopen hfits ha
  exact hall.finish hopen

end

/-- Every node of a parsed tree is plain: what was read as raw text is one text. -/
theorem each_isPlain_parse {markup : String} {f : Fragment} (h : parse markup = .ok f) :
    Fragment.Each Node.IsPlain f := by
  -- No element that holds raw text is ever open.
  refine each_parse_of_fits (o := fun tag => isRawText tag.name = false) (fun _ => trivial)
    (fun _ _ => ⟨"", rfl⟩) (fun tag children htag hraw => ?_) (fun t ht => ?_) h
  · exact Bool.noConfusion (htag.symm.trans hraw)
  · have hsound := isSound_of_mem_tokens _ _ t ht
    cases t with
    | tag form content =>
      intro tag hof
      cases form with
      | opening =>
        intro _
        rw [name_of_ofText? hof]
        exact hsound
      | childless => trivial
      | raw text => exact fun _ => ⟨_, rfl⟩
    | _ => trivial

/-- Every node of a parsed tree is bare: a void element is complete with its start tag. -/
theorem each_isBare_parse {markup : String} {f : Fragment} (h : parse markup = .ok f) :
    Fragment.Each Node.IsBare f := by
  refine each_parse_of_fits (o := fun tag => isVoid tag.name = false) (fun _ => trivial)
    (fun _ _ => rfl) (fun tag children htag hvoid => ?_) (fun t ht => ?_) h
  · exact Bool.noConfusion (htag.symm.trans hvoid)
  · have hsound := isSound_of_mem_tokens _ _ t ht
    cases t with
    | tag form content =>
      intro tag hof
      cases form with
      | opening => exact id
      | childless => trivial
      | raw text =>
        intro hvoid
        have hraw : isRawText tag.name = true := by
          rw [name_of_ofText? hof]
          exact hsound
        exact Bool.noConfusion ((isVoid_eq_false hraw).symm.trans hvoid)
    | _ => trivial

end BoundMarkup.Markup
