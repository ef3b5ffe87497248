import BoundMarkup.Proofs.Markup.Escape
import BoundMarkup.Proofs.Markup.Name

/-!
# Tags are read back

A start tag is written as its name and its attributes between angle brackets. This module shows
that the text between the brackets is cut out again as a whole, whatever the tag is, and what tag
that text stands for.

An attribute whose key was met before has no meaning for the reader, which looks for the next
attribute behind the first space in its value. So a tag that repeats a name can be read with
attributes that it does not have, its `strays`.

## Main definitions

* `Tag.readBack`: the tag that is read from the written form of a tag;
* `Tag.normalized`: the tag with its valid attributes only, their names in lowercase;
* `Tag.strays`: the attributes of the first that the second does not have;
* `IsClosed`: a text between brackets in which the tag does not end.

## Main results

* `construct_opening`, `construct_writtenText`: a closed text between brackets is read as one start
  tag, and the written form of a tag is one;
* `rawAttributes_quoted`: an attribute in quotation marks is read as its name and its value;
* `ofText?_writtenText`: that start tag stands for `Tag.readBack`;
* `readBack_eq_normalized`: if no two names are equal up to case, this is `Tag.normalized`;
* `strays_eq_nil`: there are no strays unless a name is repeated with a value that has a space.
-/

namespace BoundMarkup.Markup

open Text

namespace Attribute

/-- An attribute with its name in lowercase. -/
def lowercased (a : Attribute) : Attribute := { a with name := lowercase a.name }

/-- An attribute as it stands in the written form of its tag. -/
def raw (a : Attribute) : RawAttribute where
  key := a.name.toList
  value := escapeValue a.value.toList

/-- An attribute with no white space of tags in its value. -/
def IsUnbroken (a : Attribute) : Prop := ∀ c ∈ a.value.toList, isTagSpace c = false

/-- What is read of the written form of an attribute is the attribute with a lowercase name. -/
@[simp]
theorem decoded_raw (a : Attribute) : a.raw.decoded = a.lowercased := by
  simp [raw, lowercased, RawAttribute.decoded, RawAttribute.name, lowercase]

end Attribute

namespace Tag

/-- The attributes that are written. -/
def writtenAttributes (tag : Tag) : List Attribute :=
  tag.attributes.filter fun a => validAttributeName a.name

/-- The text between the angle brackets of the written start tag. -/
def writtenText (tag : Tag) : List Char :=
  tag.name.toList ++ tag.writtenAttributes.flatMap Attribute.written

/-- The tag that is read from the written form. -/
def readBack (tag : Tag) : Tag where
  name := tag.name
  attributes :=
    firstOfEach (((tagAttributes tag.writtenText).map RawAttribute.decoded).filter fun a =>
      validAttributeName a.name)

/-- The tag with the attributes that can be written, their names in lowercase. -/
def normalized (tag : Tag) : Tag where
  name := tag.name
  attributes := tag.writtenAttributes.map Attribute.lowercased

/-- The attributes that are read from the written form although the tag does not have them. -/
def strays (tag : Tag) : List Attribute :=
  tag.readBack.attributes.filter (· ∉ tag.normalized.attributes)

theorem written_eq (tag : Tag) : tag.written = '<' :: (tag.writtenText ++ ['>']) := by
  simp [written, writtenText, writtenAttributes]

theorem valid_of_mem_writtenAttributes {tag : Tag} {a : Attribute}
    (h : a ∈ tag.writtenAttributes) : validAttributeName a.name = true :=
  (List.mem_filter.mp h).2

end Tag

/-! ### The brackets -/

/-- Text without a `>` is passed over in search of the end of a tag. -/
theorem tagText_append {s : List Char} (h : '>' ∉ s) (quote : Option Char) (rest : List Char) :
    tagText quote (s ++ rest) =
      (tagText (s.foldl quoteAfter quote) rest).map fun r => (s ++ r.1, r.2) := by
  induction s generalizing quote with
  | nil => cases hr : tagText quote rest <;> simp [hr, Except.map]
  | cons c s ih =>
    obtain ⟨hc, hs⟩ := List.ne_and_not_mem_of_not_mem_cons h
    rw [List.cons_append, tagText, if_neg (fun hq => hc hq.2.symm), ih hs, List.foldl_cons]
    cases tagText (s.foldl quoteAfter (quoteAfter quote c)) rest <;> rfl

/-- No quotation is opened by text without quotation marks. -/
theorem foldl_quoteAfter_none {s : List Char} (h : ∀ c ∈ s, c ≠ '"' ∧ c ≠ '\'') :
    s.foldl quoteAfter none = none := by
  induction s with
  | nil => rfl
  | cons c s ih =>
    obtain ⟨hc, hs⟩ := List.forall_mem_cons.mp h
    rw [List.foldl_cons, quoteAfter, if_neg (by simp [hc]), ih hs]

/-- A quotation is not closed by text without its mark. -/
theorem foldl_quoteAfter_some {q : Char} {s : List Char} (h : q ∉ s) :
    s.foldl quoteAfter (some q) = some q := by
  induction s with
  | nil => rfl
  | cons c s ih =>
    obtain ⟨hc, hs⟩ := List.ne_and_not_mem_of_not_mem_cons h
    rw [List.foldl_cons, quoteAfter, if_neg (Ne.symm hc), ih hs]

/-- A text that has no `>` in it and closes its quotations, so that no tag ends inside it. -/
structure IsClosed (s : List Char) : Prop where
  /-- No character of it ends a tag. -/
  angle : '>' ∉ s
  /-- Behind it no quotation is open. -/
  quote : s.foldl quoteAfter none = none

namespace IsClosed

theorem append {s t : List Char} (hs : IsClosed s) (ht : IsClosed t) : IsClosed (s ++ t) where
  angle := by
    rw [List.mem_append, not_or]
    exact ⟨hs.angle, ht.angle⟩
  quote := by rw [List.foldl_append, hs.quote, ht.quote]

/-- Characters of attribute names do not end a tag and open no quotation. -/
theorem of_name {s : List Char} (h : ∀ c ∈ s, endsAttributeName c = false) : IsClosed s where
  angle := fun hc => Bool.noConfusion (h _ hc)
  quote := by
    refine foldl_quoteAfter_none fun c hc => ?_
    obtain ⟨-, -, hdouble, hsingle, -⟩ := endsAttributeName_eq_false_iff.mp (h c hc)
    exact ⟨hdouble, hsingle⟩

/-- What stands between quotation marks may be any text without them. -/
theorem quoted {s : List Char} (hquote : '"' ∉ s) (hangle : '>' ∉ s) :
    IsClosed ('"' :: (s ++ ['"'])) where
  angle := by simp [hangle]
  quote := by
    rw [List.foldl_cons, List.foldl_append]
    -- The first mark opens the quotation, and only the last one closes it.
    change List.foldl quoteAfter (s.foldl quoteAfter (some '"')) ['"'] = none
    rw [foldl_quoteAfter_some hquote]
    rfl

/-- The tag ends at the first `>` behind a closed text. -/
theorem tagText_eq {s : List Char} (hs : IsClosed s) (rest : List Char) :
    tagText none (s ++ '>' :: rest) = .ok (s, rest) := by
  rw [tagText_append hs.angle, hs.quote, tagText, if_pos ⟨rfl, rfl⟩]
  simp [Except.map]

end IsClosed

/-- An attribute with its value in quotation marks is closed. -/
theorem isClosed_quoted {name : String} (h : validAttributeName name = true) {value : List Char}
    (hquote : '"' ∉ value) (hangle : '>' ∉ value) :
    IsClosed (' ' :: name.toList ++ ['=', '"'] ++ value ++ ['"']) := by
  have hmark : IsClosed [' '] := ⟨by decide, by decide⟩
  have hequals : IsClosed ['='] := ⟨by decide, by decide⟩
  have hname : IsClosed name.toList := .of_name (validAttributeName_iff.mp h).2
  have hvalue : IsClosed ('"' :: (value ++ ['"'])) := .quoted hquote hangle
  have hwhole : ' ' :: name.toList ++ ['=', '"'] ++ value ++ ['"'] =
      [' '] ++ name.toList ++ ['='] ++ '"' :: (value ++ ['"']) := by
    simp
  rw [hwhole]
  exact ((hmark.append hname).append hequals).append hvalue

/-- The written form of a valid attribute is closed. -/
theorem isClosed_written {a : Attribute} (h : validAttributeName a.name = true) :
    IsClosed a.written := by
  obtain ⟨hquote, hangle, -⟩ := not_mem_escapeValue a.value.toList
  exact isClosed_quoted h hquote hangle

/-- The written form of valid attributes is closed. -/
private theorem isClosed_flatMap_written {l : List Attribute}
    (h : ∀ a ∈ l, validAttributeName a.name = true) : IsClosed (l.flatMap Attribute.written) := by
  induction l with
  | nil => exact ⟨List.not_mem_nil, rfl⟩
  | cons a l ih =>
    obtain ⟨ha, hl⟩ := List.forall_mem_cons.mp h
    exact (isClosed_written ha).append (ih hl)

/-- The name of an element is closed. -/
theorem isClosed_elementName {name : String} (h : validElementName name = true) :
    IsClosed name.toList :=
  .of_name fun _ hc => (of_mem_elementName h hc).1

/-- The text of a written tag is closed. -/
theorem isClosed_writtenText {tag : Tag} (h : validElementName tag.name = true) :
    IsClosed tag.writtenText :=
  (isClosed_elementName h).append
    (isClosed_flatMap_written fun _ ha => Tag.valid_of_mem_writtenAttributes ha)

/-- The written text of a tag does not end with a slash. -/
private theorem getLast?_writtenText {tag : Tag} (h : validElementName tag.name = true) :
    tag.writtenText.getLast? ≠ some '/' := by
  intro hlast
  rw [Tag.writtenText, List.getLast?_append] at hlast
  -- The last character is one of the name, or the quotation mark behind the last value.
  rcases List.eq_nil_or_concat tag.writtenAttributes with hnil | ⟨l, a, hl⟩
  · rw [hnil, List.flatMap_nil, List.getLast?_nil, Option.none_or] at hlast
    have := (of_mem_elementName h (List.mem_of_getLast? hlast)).1
    exact Bool.noConfusion this
  · have ha : a.written.getLast? = some '"' := by
      rw [Attribute.written, List.getLast?_append]
      rfl
    rw [hl, List.concat_eq_append, List.flatMap_append, List.flatMap_singleton,
      List.getLast?_append, ha] at hlast
    simp at hlast

/-- A closed text that begins with a small letter and does not end with a slash is read as one start
tag, and what follows is left as it is. -/
theorem construct_opening {c : Char} {s : List Char} (hc : isLowerAscii c = true)
    (hclosed : IsClosed (c :: s)) (hlast : (c :: s).getLast? ≠ some '/') (rest : List Char) :
    construct (c :: s ++ '>' :: rest) = .ok (.tag .opening (c :: s), rest) := by
  have htext := hclosed.tagText_eq rest
  have htag : tagOf (c :: s) = .tag .opening (c :: s) := by
    rw [← List.head?_reverse] at hlast
    unfold tagOf
    split
    · next r hr =>
      rw [hr] at hlast
      exact absurd rfl hlast
    · rfl
  -- A small letter begins no declaration, no instruction and no end tag.
  have hne : ∀ d : Char, isLowerAscii d = false → c ≠ d := by
    rintro d hd rfl
    rw [hc] at hd
    cases hd
  rw [construct.eq_def]
  split
  · next heq => exact absurd (List.cons.inj heq).1 (hne _ (by decide))
  · next heq => exact absurd (List.cons.inj heq).1 (hne _ (by decide))
  · next heq => exact absurd (List.cons.inj heq).1 (hne _ (by decide))
  · rw [htext]
    simp only [Except.map, htag]

/-- The written form of a tag is read as one start tag, and what follows is left as it is. -/
theorem construct_writtenText {tag : Tag} (h : validElementName tag.name = true)
    (rest : List Char) :
    construct (tag.writtenText ++ '>' :: rest) = .ok (.tag .opening tag.writtenText, rest) := by
  obtain ⟨c, s, hs, hc, -⟩ := exists_of_validElementName h
  have hfirst : tag.writtenText = c :: (s ++ tag.writtenAttributes.flatMap Attribute.written) := by
    rw [Tag.writtenText, hs, List.cons_append]
  have hclosed := isClosed_writtenText h
  have hlast := getLast?_writtenText h
  rw [hfirst] at hclosed hlast ⊢
  exact construct_opening hc hclosed hlast rest

/-! ### The name -/

/-- What stands in front of the attributes of a written tag is its name. -/
private theorem span_writtenText {tag : Tag} (h : validElementName tag.name = true) :
    tag.writtenText.takeWhile (!isTagSpace ·) = tag.name.toList ∧
      tag.writtenText.dropWhile (!isTagSpace ·) =
        tag.writtenAttributes.flatMap Attribute.written := by
  have hname : ∀ c ∈ tag.name.toList, (!isTagSpace c) = true := fun c hc => by
    rw [isTagSpace_eq_false (of_mem_elementName h hc).1, Bool.not_false]
  rw [Tag.writtenText, List.takeWhile_append_of_pos hname, List.dropWhile_append_of_pos hname]
  cases tag.writtenAttributes with
  | nil => simp
  | cons a l => simp [Attribute.written, isTagSpace]

/-- The name in the written text of a tag is the tag's name. -/
@[simp]
theorem tagName_writtenText {tag : Tag} (h : validElementName tag.name = true) :
    tagName tag.writtenText = tag.name := by
  rw [tagName, (span_writtenText h).1, lower_elementName h, String.ofList_toList]

/-- The written text of a tag stands for the tag that is read back. -/
theorem ofText?_writtenText {tag : Tag} (h : validElementName tag.name = true) :
    Tag.ofText? tag.writtenText = some tag.readBack := by
  rw [Tag.ofText?, tagName_writtenText h, if_pos h]
  rfl

/-! ### The attributes -/

/-- A key that was not met before is read with its value. -/
private theorem rawAttributes_of_key {keys : List (List Char)} {s t value rest : List Char}
    {c : Char} (hs : s.dropWhile isTagSpace = c :: t) (hk : c :: t.takeWhile (!endsKey ·) ∉ keys)
    (hv : (valueText (t.dropWhile (!endsKey ·))).split? = some (value, rest)) :
    rawAttributes keys s =
      { key := c :: t.takeWhile (!endsKey ·), value } ::
        rawAttributes ((c :: t.takeWhile (!endsKey ·)) :: keys) rest := by
  rw [rawAttributes]
  split
  · next hnil =>
    rw [hs] at hnil
    cases hnil
  · next d u hcons =>
    obtain ⟨rfl, rfl⟩ := List.cons.inj (hs.symm.trans hcons)
    rw [if_neg (by simpa using hk)]
    split
    · next hnone =>
      rw [hv] at hnone
      cases hnone
    · next hsome =>
      rw [hv] at hsome
      cases hsome
      rfl

/-- A key that was met before is passed over with its value. -/
private theorem rawAttributes_of_repeated {keys : List (List Char)} {s t : List Char} {c : Char}
    (hs : s.dropWhile isTagSpace = c :: t) (hk : c :: t.takeWhile (!endsKey ·) ∈ keys) :
    rawAttributes keys s = rawAttributes keys (passValue (t.dropWhile (!endsKey ·))) := by
  rw [rawAttributes]
  split
  · next hnil =>
    rw [hs] at hnil
    cases hnil
  · next d u hcons =>
    obtain ⟨rfl, rfl⟩ := List.cons.inj (hs.symm.trans hcons)
    rw [if_pos (by simpa using hk)]

/-- An attribute with its value in quotation marks is a space, its name as the key, and that
value. -/
private theorem exists_key_quoted {name : String} (h : validAttributeName name = true)
    (value rest : List Char) :
    ∃ c t,
      (' ' :: name.toList ++ ['=', '"'] ++ value ++ ['"'] ++ rest).dropWhile isTagSpace = c :: t ∧
      c :: t.takeWhile (!endsKey ·) = name.toList ∧
      t.dropWhile (!endsKey ·) = '=' :: '"' :: (value ++ '"' :: rest) := by
  obtain ⟨hne, hall⟩ := validAttributeName_iff.mp h
  obtain ⟨c, s, hs⟩ := List.exists_cons_of_ne_nil hne
  rw [hs, List.forall_mem_cons] at hall
  obtain ⟨hc, hall⟩ := hall
  -- The key goes on up to the equals sign.
  have hkey : ∀ d ∈ s, (!endsKey d) = true := by
    intro d hd
    have hmark := (endsAttributeName_eq_false_iff.mp (hall d hd)).2.2.2.2.2.2.2
    simp [endsKey, hmark, isTagSpace_eq_false (hall d hd)]
  refine ⟨c, s ++ '=' :: '"' :: (value ++ '"' :: rest), ?_, ?_, ?_⟩
  · simp [hs, isTagSpace_eq_false hc, show isTagSpace ' ' = true from rfl]
  · rw [List.takeWhile_append_of_pos hkey, hs]
    simp [endsKey]
  · rw [List.dropWhile_append_of_pos hkey]
    simp [endsKey]

/-- An attribute in quotation marks whose name was not met before is read with the value that stands
between them. -/
theorem rawAttributes_quoted {name : String} (h : validAttributeName name = true)
    {keys : List (List Char)} (hk : name.toList ∉ keys) {value : List Char} (hvalue : '"' ∉ value)
    (rest : List Char) :
    rawAttributes keys (' ' :: name.toList ++ ['=', '"'] ++ value ++ ['"'] ++ rest) =
      { key := name.toList, value } :: rawAttributes (name.toList :: keys) rest := by
  obtain ⟨c, t, hs, hkey, hbehind⟩ := exists_key_quoted h value rest
  have hsplit : (valueText (t.dropWhile (!endsKey ·))).split? = some (value, rest) := by
    have hcut := cutAt_singleton hvalue rest
    rw [hbehind]
    simp [valueText, isTagSpace, hcut, ValueText.split?]
  rw [rawAttributes_of_key hs (hkey ▸ hk) hsplit, hkey]

/-- The written form of an attribute whose name was not met before is read as that attribute. -/
theorem rawAttributes_written {a : Attribute} (h : validAttributeName a.name = true)
    {keys : List (List Char)} (hk : a.name.toList ∉ keys) (rest : List Char) :
    rawAttributes keys (a.written ++ rest) =
      a.raw :: rawAttributes (a.name.toList :: keys) rest :=
  rawAttributes_quoted h hk (not_mem_escapeValue a.value.toList).1 rest

/-- The written form of an attribute whose name was met before is passed over, if its value has no
space in it. -/
theorem rawAttributes_written_of_mem {a : Attribute} (h : validAttributeName a.name = true)
    {keys : List (List Char)} (hk : a.name.toList ∈ keys) (hspace : a.IsUnbroken)
    (l : List Attribute) :
    rawAttributes keys (a.written ++ l.flatMap Attribute.written) =
      rawAttributes keys (l.flatMap Attribute.written) := by
  obtain ⟨c, t, hs, hkey, hvalue⟩ :=
    exists_key_quoted h (escapeValue a.value.toList) (l.flatMap Attribute.written)
  -- The value is passed over up to the first space, and that is the one behind it.
  have hescaped : ∀ c ∈ '"' :: (escapeValue a.value.toList ++ ['"']), (!isTagSpace c) = true := by
    have hall := isTagSpace_escapeValue hspace
    simp only [List.mem_cons, List.mem_append, List.not_mem_nil, or_false]
    rintro c (rfl | hc | rfl)
    · rfl
    · rw [hall c hc, Bool.not_false]
    · rfl
  have hpass : passValue ('=' :: '"' :: (escapeValue a.value.toList ++
      '"' :: l.flatMap Attribute.written)) = l.flatMap Attribute.written := by
    have hfront : (l.flatMap Attribute.written).dropWhile (!isTagSpace ·) =
        l.flatMap Attribute.written := by
      cases l with
      | nil => rfl
      | cons b l => simp [Attribute.written, isTagSpace]
    calc
      _ = ('"' :: (escapeValue a.value.toList ++ ['"']) ++
          l.flatMap Attribute.written).dropWhile (!isTagSpace ·) := by
        rw [List.cons_append, List.append_assoc, List.singleton_append]
        rfl
      _ = l.flatMap Attribute.written := by
        rw [List.dropWhile_append_of_pos hescaped, hfront]
  rw [Attribute.written, rawAttributes_of_repeated hs (hkey ▸ hk), hvalue, hpass]

/-- Only written attributes are read, if no value of an attribute has a space in it whose name was
met before. -/
theorem exists_of_mem_rawAttributes {l : List Attribute} {keys : List (List Char)}
    (hv : ∀ a ∈ l, validAttributeName a.name = true)
    (hrepeated : l.Pairwise fun a b => a.name = b.name → b.IsUnbroken)
    (hk : ∀ a ∈ l, a.name.toList ∈ keys → a.IsUnbroken) {r : RawAttribute}
    (hr : r ∈ rawAttributes keys (l.flatMap Attribute.written)) : ∃ a ∈ l, a.raw = r := by
  -- The keys grow with every attribute that is read, so they are general in the induction.
  induction l generalizing keys with
  | nil =>
    rw [List.flatMap_nil, rawAttributes] at hr
    cases hr
  | cons a l ih =>
    obtain ⟨ha, hl⟩ := List.forall_mem_cons.mp hv
    obtain ⟨hka, hkl⟩ := List.forall_mem_cons.mp hk
    obtain ⟨hsame, hrest⟩ := List.pairwise_cons.mp hrepeated
    rw [List.flatMap_cons] at hr
    by_cases hmem : a.name.toList ∈ keys
    · rw [rawAttributes_written_of_mem ha hmem (hka hmem)] at hr
      obtain ⟨b, hb, heq⟩ := ih hl hrest hkl hr
      exact ⟨b, List.mem_cons_of_mem a hb, heq⟩
    · rw [rawAttributes_written ha hmem, List.mem_cons] at hr
      rcases hr with rfl | hr
      · exact ⟨a, List.mem_cons_self, rfl⟩
      · -- From here on the name of `a` is one that was met before.
        have hkeys : ∀ b ∈ l, b.name.toList ∈ a.name.toList :: keys → b.IsUnbroken := by
          intro b hb hbk
          rcases List.mem_cons.mp hbk with heq | hbk
          · exact hsame b hb (String.toList_inj.mp heq).symm
          · exact hkl b hb hbk
        obtain ⟨b, hb, heq⟩ := ih hl hrest hkeys hr
        exact ⟨b, List.mem_cons_of_mem a hb, heq⟩

/-- Attributes whose names differ are read as they are written. -/
theorem rawAttributes_flatMap_written {l : List Attribute} {keys : List (List Char)}
    (hv : ∀ a ∈ l, validAttributeName a.name = true) (hn : (l.map (·.name)).Nodup)
    (hk : ∀ a ∈ l, a.name.toList ∉ keys) :
    rawAttributes keys (l.flatMap Attribute.written) = l.map Attribute.raw := by
  induction l generalizing keys with
  | nil =>
    rw [List.flatMap_nil, rawAttributes]
    rfl
  | cons a l ih =>
    obtain ⟨ha, hl⟩ := List.forall_mem_cons.mp hv
    obtain ⟨hka, hkl⟩ := List.forall_mem_cons.mp hk
    rw [List.map_cons, List.nodup_cons] at hn
    rw [List.flatMap_cons, rawAttributes_written ha hka, List.map_cons]
    refine congrArg _ (ih hl hn.2 fun b hb => ?_)
    rw [List.mem_cons, not_or, String.toList_inj]
    exact ⟨fun heq => hn.1 (List.mem_map.mpr ⟨b, hb, heq⟩), hkl b hb⟩

/-- The attributes in the written text of a tag that repeats no name are the written ones. -/
theorem tagAttributes_writtenText {tag : Tag} (h : validElementName tag.name = true)
    (hn : (tag.writtenAttributes.map (·.name)).Nodup) :
    tagAttributes tag.writtenText = tag.writtenAttributes.map Attribute.raw := by
  rw [tagAttributes, (span_writtenText h).2]
  exact rawAttributes_flatMap_written (fun a ha => Tag.valid_of_mem_writtenAttributes ha) hn
    fun a _ => List.not_mem_nil

/-- Nothing is left out of a list of attributes whose names differ. -/
theorem firstOfEach_eq_self {l : List Attribute} (h : (l.map (·.name)).Nodup) :
    firstOfEach l = l := by
  induction l with
  | nil => rfl
  | cons a l ih =>
    obtain ⟨ha, hl⟩ := List.nodup_cons.mp h
    rw [firstOfEach, ih hl, List.filter_eq_self.mpr]
    intro b hb
    exact decide_eq_true fun heq => ha (List.mem_map.mpr ⟨b, hb, heq⟩)

/-- The first attributes of each name are among the attributes. -/
theorem firstOfEach_sublist (l : List Attribute) : (firstOfEach l).Sublist l := by
  induction l with
  | nil => exact .slnil
  | cons a l ih => exact (List.filter_sublist.trans ih).cons_cons a

/-- Among the first attributes of each name no name is repeated. -/
theorem nodup_firstOfEach (l : List Attribute) : ((firstOfEach l).map (·.name)).Nodup := by
  induction l with
  | nil => exact .nil
  | cons a l ih =>
    rw [firstOfEach, List.map_cons, List.nodup_cons]
    refine ⟨?_, ih.sublist (List.filter_sublist.map _)⟩
    intro ha
    obtain ⟨b, hb, heq⟩ := List.mem_map.mp ha
    exact of_decide_eq_true (List.mem_filter.mp hb).2 heq

/-- The attributes that are read back from a tag that repeats no name, as long as none is left out
for a name that differs in case only. -/
private theorem readBack_attributes {tag : Tag} (h : validElementName tag.name = true)
    (hn : (tag.writtenAttributes.map (·.name)).Nodup) :
    tag.readBack.attributes = firstOfEach tag.normalized.attributes := by
  have hmap : (tag.writtenAttributes.map Attribute.raw).map RawAttribute.decoded =
      tag.writtenAttributes.map Attribute.lowercased := by
    rw [List.map_map]
    exact List.map_congr_left fun a _ => Attribute.decoded_raw a
  rw [Tag.readBack, tagAttributes_writtenText h hn, hmap]
  -- A name that was valid when it was written is valid in lowercase.
  refine congrArg firstOfEach (List.filter_eq_self.mpr fun a ha => ?_)
  obtain ⟨b, hb, rfl⟩ := List.mem_map.mp ha
  rw [Attribute.lowercased, validAttributeName_lowercase]
  exact Tag.valid_of_mem_writtenAttributes hb

/-- A tag is read back without strays unless it repeats a name with a value that has a space. -/
theorem strays_eq_nil {tag : Tag} (h : validElementName tag.name = true)
    (hr : tag.writtenAttributes.Pairwise fun a b => a.name = b.name → b.IsUnbroken) :
    tag.strays = [] := by
  rw [Tag.strays, List.filter_eq_nil_iff]
  intro a ha
  have hdecoded := (List.mem_filter.mp ((firstOfEach_sublist _).subset ha)).1
  rw [tagAttributes, (span_writtenText h).2] at hdecoded
  obtain ⟨r, hmem, rfl⟩ := List.mem_map.mp hdecoded
  obtain ⟨b, hb, rfl⟩ :=
    exists_of_mem_rawAttributes (fun a ha => Tag.valid_of_mem_writtenAttributes ha) hr
      (fun _ _ hnil => absurd hnil List.not_mem_nil) hmem
  have : b.raw.decoded ∈ tag.normalized.attributes := by
    rw [Attribute.decoded_raw]
    exact List.mem_map_of_mem hb
  simpa using this

/-- A tag none of whose names are equal up to case is read back as its normal form. -/
theorem readBack_eq_normalized {tag : Tag} (h : validElementName tag.name = true)
    (hn : (tag.attributes.map fun a => lowercase a.name).Nodup) :
    tag.readBack = tag.normalized := by
  have hwritten : (tag.writtenAttributes.map fun a => lowercase a.name).Nodup :=
    hn.sublist (List.filter_sublist.map _)
  -- Keys are compared as they are written, names when they are in lowercase.
  have hexact : (tag.writtenAttributes.map (·.name)).Nodup := by
    rw [List.Nodup, List.pairwise_map] at hwritten ⊢
    exact hwritten.imp fun hab heq => hab (congrArg lowercase heq)
  have hattributes : tag.readBack.attributes = tag.normalized.attributes := by
    rw [readBack_attributes h hexact]
    refine firstOfEach_eq_self ?_
    rw [Tag.normalized, List.map_map]
    exact hwritten
  exact congrArg (Tag.mk tag.name) hattributes

end BoundMarkup.Markup
