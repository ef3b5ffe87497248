import BoundMarkup.Proofs.Binding.Disclosure

/-!
# What an attribute map does to its element

The entries of an attribute map are read one after another, and each may set an attribute that is
there already, one that an entry before it has set, in another case perhaps, or the attribute that
holds the map. All that remains of this in the end is, for each name, the last value that was given
to it, and the order in which the new names came.

## Main definitions

* `Markup.Tag.setAll`: a tag with several settings made one after another;
* `Markup.lastValue?`: the last value that settings give to a name;
* `Markup.Tag.newNames`: the names that settings add to a tag;
* `Binding.effects`: the settings that an attribute map makes for an item.

## Main results

* `Markup.Tag.attr?_setAll`, `Markup.Tag.names_setAll`, `Markup.Tag.nodup_setAll`: the values and
  the names behind a number of settings;
* `Binding.bindAttributes_eq_setAll`: the attribute pass makes the settings of the map;
* `bindAttributes_effects`: what has become of an element.
-/

namespace BoundMarkup

open Json Markup Text

/-! ### Settings made one after another -/

namespace Markup

/-- The value that the last of the settings with that name gives, whatever the case of the name. -/
def lastValue? (settings : List Attribute) (name : String) : Option String :=
  ((settings.filter fun a => caseless a.name name).getLast?).map (·.value)

namespace Tag

/-- The tag with all the settings made, one after another. -/
def setAll (tag : Tag) (settings : List Attribute) : Tag :=
  settings.foldl (fun tag a => tag.setAttr a.name a.value) tag

/-- The names that the settings add to a tag: in lowercase, in the order in which they first
come. -/
def newNames (tag : Tag) (settings : List Attribute) : List String :=
  ((settings.map fun a => lowercase a.name).filter fun name => !tag.hasAttr name).eraseDups

end Tag

variable {tag : Tag}

/-- What comes first gives the value only if nothing behind it does. -/
theorem lastValue?_cons (a : Attribute) (settings : List Attribute) (name : String) :
    lastValue? (a :: settings) name =
      (lastValue? settings name).or (if caseless a.name name then some a.value else none) := by
  rw [lastValue?, lastValue?]
  by_cases ha : caseless a.name name = true
  · rw [List.filter_cons, if_pos ha, if_pos ha, List.getLast?_cons]
    cases (settings.filter fun a => caseless a.name name).getLast? with
    | none => rfl
    | some b => rfl
  · rw [List.filter_cons, if_neg ha, if_neg ha, Option.or_none]

namespace Tag

/-- Behind a setting an attribute has the new value, or the one that it had. -/
theorem attr?_setAttr (tag : Tag) (a : Attribute) (name : String) :
    (tag.setAttr a.name a.value).attr? name =
      if caseless a.name name then some a.value else tag.attr? name := by
  split
  · next ha =>
    -- Lookup does not tell a name from its other spellings.
    have hsame : (tag.setAttr a.name a.value).attr? name =
        (tag.setAttr a.name a.value).attr? a.name := by
      have hlower : lower a.name.toList = lower name.toList := beq_iff_eq.mp ha
      rw [attr?, attr?]
      simp only [caseless, hlower]
    rw [hsame, attr?_setAttr_self]
  · next hne => exact attr?_setAttr_of_ne tag (Bool.eq_false_iff.mpr hne) a.value

/-- An attribute that was set is there, and so is what was there before. -/
theorem hasAttr_setAttr (tag : Tag) (a : Attribute) (name : String) :
    (tag.setAttr a.name a.value).hasAttr name = (caseless a.name name || tag.hasAttr name) := by
  rw [hasAttr, attr?_setAttr]
  split
  · next ha =>
    rw [ha]
    rfl
  · next hne =>
    rw [Bool.eq_false_iff.mpr hne, Bool.false_or]
    rfl

/-- A name is there or not, in lowercase as in any other case. -/
theorem hasAttr_lowercase (tag : Tag) (name : String) :
    tag.hasAttr (lowercase name) = tag.hasAttr name := by
  simp [hasAttr_eq_any, caseless]

/-- The first setting is made on the tag, the others on what it has made of it. -/
@[simp]
theorem setAll_cons (tag : Tag) (a : Attribute) (settings : List Attribute) :
    tag.setAll (a :: settings) = (tag.setAttr a.name a.value).setAll settings := rfl

/-- Each attribute has the last value that the settings give to it, or the one that it had. -/
theorem attr?_setAll (tag : Tag) (settings : List Attribute) (name : String) :
    (tag.setAll settings).attr? name = (lastValue? settings name).or (tag.attr? name) := by
  induction settings generalizing tag with
  | nil => rfl
  | cons a settings ih =>
    rw [setAll_cons, ih, attr?_setAttr, lastValue?_cons, Option.or_assoc]
    -- The first setting counts where no later one does, and in front of what was there.
    congr 1
    split
    · rfl
    · rfl

/-- If the first setting adds its name, then the others add what is left of their new names without
it. -/
theorem newNames_cons (tag : Tag) (a : Attribute) (settings : List Attribute) :
    tag.newNames (a :: settings) =
      (if tag.hasAttr a.name then [] else [lowercase a.name]) ++
        (tag.setAttr a.name a.value).newNames settings := by
  -- Among names in lowercase, what is new behind the setting was new before and is not its name.
  have hnew : (settings.map fun b => lowercase b.name).filter
        (fun name => !(tag.setAttr a.name a.value).hasAttr name) =
      ((settings.map fun b => lowercase b.name).filter fun name => !tag.hasAttr name).filter
        fun name => !name == lowercase a.name := by
    rw [List.filter_filter]
    apply List.filter_congr
    intro name hname
    obtain ⟨b, -, rfl⟩ := List.mem_map.mp hname
    have hsame : caseless a.name (lowercase b.name) = (lowercase b.name == lowercase a.name) := by
      rw [Bool.eq_iff_iff, caseless_iff, beq_iff_eq]
      simp only [lowercase, String.toList_ofList, lower_lower]
      exact eq_comm
    rw [hasAttr_setAttr, hsame, Bool.not_or]
  rw [newNames, newNames, hnew, List.map_cons]
  split
  · next hold =>
    -- The name is there already, so it is not among the new ones, and nothing has to be left out.
    rw [List.filter_cons_of_neg (by simp [hasAttr_lowercase, hold]), List.nil_append]
    congr 1
    symm
    apply List.filter_eq_self.mpr
    intro name hname
    rw [Bool.not_eq_true', beq_eq_false_iff_ne]
    rintro rfl
    simpa [hasAttr_lowercase, hold] using (List.mem_filter.mp hname).2
  · next hne =>
    -- The name is the first new one, and it is left out of those that come after it.
    rw [List.filter_cons_of_pos (by simp [hasAttr_lowercase, hne]), List.eraseDups_cons,
      List.singleton_append]

/-- The names stay in their order, and the new ones come behind them. -/
theorem names_setAll (tag : Tag) (settings : List Attribute) :
    (tag.setAll settings).attributes.map (·.name) =
      tag.attributes.map (·.name) ++ tag.newNames settings := by
  induction settings generalizing tag with
  | nil => exact (List.append_nil _).symm
  | cons a settings ih =>
    rw [setAll_cons, ih, names_setAttr, newNames_cons, List.append_assoc]

/-- Names that are distinct up to case stay so. -/
theorem nodup_setAll (h : (tag.attributes.map fun a => lowercase a.name).Nodup)
    (settings : List Attribute) :
    ((tag.setAll settings).attributes.map fun a => lowercase a.name).Nodup := by
  induction settings generalizing tag with
  | nil => exact h
  | cons a settings ih => exact ih (nodup_setAttr h a.name a.value)

end Tag

end Markup

/-! ### Attribute maps -/

namespace Binding

/-- The setting that a binding makes, if it is effective: its path leads to something in the item,
and not to a URL that runs code for an attribute that is followed as one. -/
def effect? (item : Value) (b : AttributeBinding) : Option Attribute :=
  match b.path.lookup item with
  | none => none
  | some v =>
    if refuses b (displayText v) then none
    else some { name := b.target, value := displayText v }

/-- The settings that the attribute map on a tag makes for an item, in order. -/
def effects (item : Value) (tag : Tag) : List Attribute := (bindingsOn tag).filterMap (effect? item)

/-- A binding makes its setting, if it has one. -/
theorem applyBinding_eq (item : Value) (tag : Tag) (b : AttributeBinding) :
    applyBinding item tag b = (effect? item b).elim tag fun a => tag.setAttr a.name a.value := by
  rw [applyBinding, effect?]
  cases b.path.lookup item with
  | none => rfl
  | some v =>
    by_cases hrefused : refuses b (displayText v) = true
    · simp only [if_pos hrefused, Option.elim_none]
    · simp only [if_neg hrefused, Option.elim_some]

/-- The attribute pass makes the settings of the map that was there before it. -/
theorem bindAttributes_eq_setAll (item : Value) (tag : Tag) :
    bindAttributes item tag = tag.setAll (effects item tag) := by
  rw [bindAttributes_eq_foldl, Tag.setAll, effects, List.foldl_filterMap]
  -- A binding without an effect is passed over in both.
  apply List.foldl_ext
  intro t b _
  rw [applyBinding_eq]
  cases effect? item b with
  | none => rfl
  | some a => rfl

end Binding

open Binding

/-- An attribute map has the effect that it declares. On a tag whose names are distinct up to case,
every attribute has the last value that an effective binding gives to it, and every other one keeps
its value. All names stay where they are and as they are spelled, with the new ones behind them, in
lowercase and in the order of their first effective binding, and they are still distinct. The name
of the element is as it was, and its children are handed on. -/
theorem bindAttributes_effects (item : Value) {tag : Tag}
    (h : (tag.attributes.map fun a => lowercase a.name).Nodup) :
    (∀ name, (bindAttributes item tag).attr? name =
        (lastValue? (effects item tag) name).or (tag.attr? name)) ∧
      (bindAttributes item tag).attributes.map (·.name) =
        tag.attributes.map (·.name) ++ tag.newNames (effects item tag) ∧
      ((bindAttributes item tag).attributes.map fun a => lowercase a.name).Nodup ∧
      (bindAttributes item tag).name = tag.name ∧
      ∀ children, attributePass item [.element tag children] =
        [.element (bindAttributes item tag) (attributePass item children)] := by
  refine ⟨fun name => ?_, ?_, ?_, name_bindAttributes item tag, fun children => rfl⟩
  · rw [bindAttributes_eq_setAll, Tag.attr?_setAll]
  · rw [bindAttributes_eq_setAll, Tag.names_setAll]
  · rw [bindAttributes_eq_setAll]
    exact Tag.nodup_setAll h (effects item tag)

/-- A map with an attribute in several spellings, with a URL that is refused behind one that is not,
with entries that are malformed, refused or lead to nothing, and with itself for a target. -/
theorem bindAttributes_effects_mixed :
    let tag : Tag :=
      { name := "a"
        attributes := [⟨"HREF", "/"⟩, ⟨"Title", "t"⟩, ⟨"field-attr",
          "lang: p, href: p, hRef: q, DIR: q, alt: none, field-attr: p, onclick: p, x, Lang: q"⟩] }
    let item : Value := .object [("p", .string "/p"), ("q", .string "javascript:q()")]
    (bindAttributes item tag).attributes =
      [⟨"HREF", "/p"⟩, ⟨"Title", "t"⟩, ⟨"field-attr", "/p"⟩, ⟨"lang", "javascript:q()"⟩,
        ⟨"dir", "javascript:q()"⟩] ∧
      (bindAttributes item tag).attributes.map (·.name) =
        tag.attributes.map (·.name) ++ tag.newNames (effects item tag) ∧
      (bindAttributes item tag).attr? "LANG" =
        (lastValue? (effects item tag) "LANG").or (tag.attr? "LANG") := by
  intro tag item
  have hdistinct : (tag.attributes.map fun a => lowercase a.name).Nodup := by
    decide +kernel
  obtain ⟨hvalues, hnames, -⟩ := bindAttributes_effects item hdistinct
  exact ⟨by decide +kernel, hnames, hvalues "LANG"⟩

end BoundMarkup
