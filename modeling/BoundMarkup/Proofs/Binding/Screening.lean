import BoundMarkup.Proofs.Binding.Effect

/-!
# Screening of URLs

Whether a URL runs code is read off its front only, but in this front nothing is counted that a
reader of URLs passes over. So what decides is the form of the whole URL, without white space of
ASCII and controls and in lowercase: neither padding nor case can take a URL out of the screening,
in cleaning or in binding.

## Main definitions

* `Markup.urlForm`: the form of a URL, at full length;
* `Markup.Fragment.formed`: a fragment with the forms of all values.

## Main results

* `Markup.isExecutableUrl_iff_exists`: the URLs that run code, by their forms;
* `Markup.Fragment.cleaned_formed`: cleaning sees of the values their forms only;
* `Binding.attributeNotices_eq_of_urlForm`, `Binding.bindAttributes_formed`: so does an attribute
  map;
* `screening_of_urlForm`: what this means for two spellings of one URL.
-/

namespace BoundMarkup

open Json Markup Text

/-! ### The form of a URL -/

namespace Markup

/-- White space of ASCII. -/
def isAsciiBlank (c : Char) : Bool := [' ', '\t', '\n', '\x0c', '\r'].contains c

/-- The form of a URL: without white space of ASCII and controls, in lowercase. -/
def urlForm (url : String) : List Char :=
  lower (url.toList.filter fun c => !(isAsciiBlank c || isControl c))

/-- White space of ASCII other than the blank consists of controls. -/
theorem isIgnoredInUrl_eq (c : Char) : isIgnoredInUrl c = (isAsciiBlank c || isControl c) := by
  rw [isIgnoredInUrl, Bool.eq_iff_iff]
  simp only [isAsciiBlank, Bool.or_eq_true, beq_iff_eq, List.contains_eq_mem, decide_eq_true_eq,
    List.mem_cons, List.not_mem_nil, or_false]
  constructor
  · rintro (rfl | hcontrol)
    · exact .inl (.inl rfl)
    · exact .inr hcontrol
  · rintro (hblank | hcontrol)
    · rcases hblank with rfl | rfl | rfl | rfl | rfl
      · exact .inl rfl
      all_goals exact .inr (by decide)
    · exact .inr hcontrol

/-- What is read of a URL is the beginning of its form. -/
theorem schemeText_eq_take (url : String) : schemeText url = (urlForm url).take 32 := by
  rw [schemeText, urlForm, lower_take]
  simp only [isIgnoredInUrl_eq]

/-- A URL runs code if and only if its form begins with an executable scheme; the part of it that is
read is long enough for each of them. -/
theorem isExecutableUrl_iff_exists (url : String) :
    isExecutableUrl url = true ↔ ∃ scheme ∈ executableSchemes, scheme.toList <+: urlForm url := by
  have hlength : ∀ scheme ∈ executableSchemes, scheme.toList.length ≤ 32 := by decide
  rw [isExecutableUrl, List.any_eq_true]
  apply exists_congr
  intro scheme
  apply and_congr_right
  intro hmem
  -- A scheme that begins the form ends before the part of it that is read does.
  rw [isSome_past?_iff, schemeText_eq_take, List.prefix_take_iff]
  exact and_iff_left (hlength scheme hmem)

/-- URLs of one form run code or do not run code alike. -/
theorem isExecutableUrl_congr {u v : String} (h : urlForm u = urlForm v) :
    isExecutableUrl u = isExecutableUrl v := by
  rw [Bool.eq_iff_iff, isExecutableUrl_iff_exists, isExecutableUrl_iff_exists, h]

/-- Folding makes no character one that is passed over. -/
theorem isIgnoredInUrl_toLower (c : Char) : isIgnoredInUrl c.toLower = isIgnoredInUrl c := by
  rcases toLower_cases c with ⟨-, hc⟩ | ⟨ha, hz, hl⟩
  · rw [hc]
  · -- Neither a capital nor its small letter is passed over.
    have hvisible : ∀ d : Char, 0x41 ≤ d.toNat → d.toNat ≤ 0x7A → isIgnoredInUrl d = false := by
      intro d hd hd'
      have hblank : d ≠ ' ' := by
        rintro rfl
        exact absurd hd (by decide)
      have hcontrol : isControl d = false := by
        simp [isControl]
        omega
      simp [isIgnoredInUrl, hblank, hcontrol]
    rw [hvisible c ha (by omega), hvisible c.toLower (by omega) (by omega)]

/-- A form is its own form. -/
theorem urlForm_urlForm (url : String) : urlForm (String.ofList (urlForm url)) = urlForm url := by
  -- What is left of a URL stays when it is filtered again, since folding makes nothing ignored.
  have hkept : ∀ c ∈ urlForm url, (!(isAsciiBlank c || isControl c)) = true := by
    intro c hc
    obtain ⟨d, hd, rfl⟩ := List.mem_map.mp hc
    rw [← isIgnoredInUrl_eq, isIgnoredInUrl_toLower, isIgnoredInUrl_eq]
    exact (List.mem_filter.mp hd).2
  rw [urlForm, String.toList_ofList, List.filter_eq_self.mpr hkept, urlForm, lower_lower]

/-! ### Cleaning -/

/-- The attribute with the form of its value. -/
def Attribute.formed (a : Attribute) : Attribute :=
  { a with value := String.ofList (urlForm a.value) }

/-- The tag with the forms of all values. -/
def Tag.formed (tag : Tag) : Tag := { tag with attributes := tag.attributes.map Attribute.formed }

/-- What makes a fragment one with the forms of all values. -/
def formedTag (tag : Tag) : Tag × Option Fragment := (tag.formed, none)

/-- The fragment with the forms of all values. -/
def Fragment.formed (f : Fragment) : Fragment := Fragment.edit formedTag f

/-- Whether an attribute is clean is seen from the form of its value. -/
theorem Attribute.isClean_formed (a : Attribute) : a.formed.isClean = a.isClean := by
  have hvalue : isExecutableUrl a.formed.value = isExecutableUrl a.value :=
    isExecutableUrl_congr (urlForm_urlForm a.value)
  have hname : a.formed.name = a.name := rfl
  rw [Attribute.isClean, Attribute.isClean, hvalue, hname]

theorem Tag.cleaned_formed (tag : Tag) : tag.formed.cleaned = tag.cleaned.formed := by
  have hclean : Attribute.isClean ∘ Attribute.formed = Attribute.isClean :=
    funext Attribute.isClean_formed
  refine congrArg (Tag.mk tag.name) ?_
  rw [Tag.formed, List.filter_map, hclean]
  rfl

mutual

private theorem Node.cleaned_edit_formedTag :
    ∀ n : Node, (n.edit formedTag).cleaned = n.cleaned.map (Node.edit formedTag)
  | .element tag children => by
    have hchildren := Fragment.cleaned_formed children
    rw [Fragment.formed, Fragment.formed] at hchildren
    rw [Node.edit, formedTag, Node.cleaned, Node.cleaned]
    -- The name is as it was, so the element is denied with the forms of its values as without.
    change (if isDenied tag.name then none else _) = _
    split
    · rfl
    · rw [hchildren, Tag.cleaned_formed, Option.map_some, Node.edit, formedTag]
  | .text s => by simp only [Node.edit, Node.cleaned, Option.map_some]
  | .comment s => by simp only [Node.edit, Node.cleaned, Option.map_none]
  | .doctype s => by simp only [Node.edit, Node.cleaned, Option.map_none]

/-- Cleaning sees of the values their forms only. -/
theorem Fragment.cleaned_formed :
    ∀ f : List Node,
      Fragment.cleaned (Fragment.formed f) = Fragment.formed (Fragment.cleaned f)
  | [] => by simp only [Fragment.formed, Fragment.edit, Fragment.cleaned]
  | n :: rest => by
    have hrest := Fragment.cleaned_formed rest
    rw [Fragment.formed, Fragment.formed] at hrest ⊢
    rw [Fragment.edit, Fragment.cleaned, Fragment.cleaned, Node.cleaned_edit_formedTag n, hrest,
      Fragment.edit_append]
    cases n.cleaned with
    | none => rfl
    | some m => rfl

end

/-! ### Settings -/

/-- A setting commutes with taking forms. -/
theorem Tag.formed_setAttr (tag : Tag) (a : Attribute) :
    (tag.setAttr a.name a.value).formed = tag.formed.setAttr a.formed.name a.formed.value := by
  obtain ⟨element, l⟩ := tag
  refine congrArg (Tag.mk element) ?_
  change (Tag.assign a.name a.value l).map Attribute.formed =
    Tag.assign a.name a.formed.value (l.map Attribute.formed)
  induction l with
  | nil => rfl
  | cons b l ih =>
    rw [List.map_cons, Tag.assign, Tag.assign]
    -- The forms are set where the values are set, since names are left alone.
    change _ = if caseless b.name a.name then _ else _
    split
    · rfl
    · rw [List.map_cons, ih]

/-- So do any number of them. -/
theorem Tag.formed_setAll (tag : Tag) (settings : List Attribute) :
    (tag.setAll settings).formed = tag.formed.setAll (settings.map Attribute.formed) := by
  induction settings generalizing tag with
  | nil => rfl
  | cons a settings ih =>
    rw [setAll_cons, ih, Tag.formed_setAttr]
    rfl

end Markup

/-! ### Attribute maps -/

namespace Binding

/-- The form of what a binding finds in an item. -/
def formOf? (item : Value) (b : AttributeBinding) : Option (List Char) :=
  (b.path.lookup item).map fun v => urlForm (displayText v)

variable {item other : Value} {tag : Tag}

/-- Whether a value is refused is seen from its form. -/
theorem refuses_urlForm (b : AttributeBinding) (value : String) :
    refuses b (String.ofList (urlForm value)) = refuses b value := by
  rw [refuses, refuses, isExecutableUrl_congr (urlForm_urlForm value)]

/-- So is the setting of a binding, up to the form of its value. -/
theorem effect?_formed (item : Value) (b : AttributeBinding) :
    (effect? item b).map Attribute.formed =
      (formOf? item b).bind fun form =>
        if refuses b (String.ofList form) then none
        else some { name := b.target, value := String.ofList form } := by
  rw [effect?, formOf?]
  cases b.path.lookup item with
  | none => rfl
  | some v =>
    rw [Option.map_some, Option.bind_some, refuses_urlForm]
    by_cases hrefused : refuses b (displayText v) = true
    · simp only [if_pos hrefused, Option.map_none]
    · simp only [if_neg hrefused, Option.map_some, Attribute.formed]

/-- And so are its notices. -/
theorem entryNotices_ok (item : Value) (element : String) (b : AttributeBinding) :
    entryNotices item element (.ok b) =
      (formOf? item b).elim [] fun form =>
        if refuses b (String.ofList form) then [.refusedUrl b.target element] else [] := by
  rw [entryNotices, formOf?]
  cases b.path.lookup item with
  | none => rfl
  | some v => rw [Option.map_some, Option.elim_some, refuses_urlForm]

variable (h : ∀ b ∈ bindingsOn tag, formOf? item b = formOf? other b)

include h

/-- An attribute map makes the same settings for both items, up to the forms of the values. -/
theorem effects_formed :
    (effects item tag).map Attribute.formed = (effects other tag).map Attribute.formed := by
  rw [effects, effects, List.map_filterMap, List.map_filterMap]
  apply List.filterMap_congr
  intro b hb
  rw [effect?_formed, effect?_formed, h b hb]

/-- An attribute map refuses the same for both items. -/
theorem attributeNotices_eq_of_urlForm :
    attributeNotices item tag = attributeNotices other tag := by
  rw [attributeNotices, attributeNotices]
  cases hmap : tag.attr? DirectiveKind.attributeMap.marker with
  | none => rfl
  | some list =>
    apply List.flatMap_congr
    intro entry hentry
    cases entry with
    | error issue =>
      -- A malformed entry is noticed before anything is looked up.
      cases issue <;> rfl
    | ok b =>
      have hb : b ∈ bindingsOn tag := by
        rw [bindingsOn, hmap, Option.map_some, Option.getD_some]
        exact List.mem_filterMap.mpr ⟨_, hentry, rfl⟩
      rw [entryNotices_ok, entryNotices_ok, h b hb]

/-- The attribute pass makes the same of a tag for both items, up to the forms of the values. -/
theorem bindAttributes_formed :
    (bindAttributes item tag).formed = (bindAttributes other tag).formed := by
  rw [bindAttributes_eq_setAll, bindAttributes_eq_setAll, Tag.formed_setAll, Tag.formed_setAll,
    effects_formed h]

end Binding

open Binding

/-- Screening cannot be dodged by padding or case. A URL runs code if and only if its form at full
length begins with one of the three schemes, so URLs of one form run code alike, and an attribute
with one of them as its value is removed or refused as it is with the other. Fragments with the same
forms stay so when they are cleaned, and for items that give a map the same forms the attribute pass
refuses the same and makes the same settings. -/
theorem screening_of_urlForm :
    (∀ url, isExecutableUrl url = true ↔
      "javascript:".toList <+: urlForm url ∨ "vbscript:".toList <+: urlForm url ∨
        "data:text/html".toList <+: urlForm url) ∧
    (∀ u v, urlForm u = urlForm v →
      isExecutableUrl u = isExecutableUrl v ∧
        (∀ name, Attribute.isClean { name, value := u } = Attribute.isClean { name, value := v }) ∧
        ∀ b, refuses b u = refuses b v) ∧
    (∀ f g, Fragment.formed f = Fragment.formed g →
      Fragment.formed (Fragment.cleaned f) = Fragment.formed (Fragment.cleaned g)) ∧
    ∀ item other tag, (∀ b ∈ bindingsOn tag, formOf? item b = formOf? other b) →
      attributeNotices item tag = attributeNotices other tag ∧
        (bindAttributes item tag).formed = (bindAttributes other tag).formed := by
  refine ⟨fun url => ?_, fun u v h => ?_, fun f g h => ?_, fun item other tag h => ?_⟩
  · rw [isExecutableUrl_iff_exists, executableSchemes]
    simp only [List.exists_mem_cons_iff, List.not_mem_nil, false_and, exists_false, or_false]
  · have hsame := isExecutableUrl_congr h
    refine ⟨hsame, fun name => ?_, fun b => ?_⟩
    · rw [Attribute.isClean, Attribute.isClean, hsame]
    · rw [refuses, refuses, hsame]
  · rw [← Fragment.cleaned_formed, h, Fragment.cleaned_formed]
  · exact ⟨attributeNotices_eq_of_urlForm h, bindAttributes_formed h⟩

/-- A script URL, and the same behind more blanks than characters are read, in mixed case, and with
a tabulator and a control of the upper range inside. -/
theorem screening_of_urlForm_padded :
    let u := "javascript:f()"
    let v := "                                        JaVa\tScRi\u0085Pt:F()"
    let f (url : String) : Fragment := [.element ⟨"a", [⟨"href", url⟩, ⟨"title", url⟩]⟩ []]
    let tag : Tag := ⟨"a", [⟨"field-attr", "href: x, title: x"⟩]⟩
    let item (url : String) : Value := .object [("x", .string url)]
    isExecutableUrl v = true ∧ isExecutableUrl u = isExecutableUrl v ∧
      Fragment.formed (Fragment.cleaned (f u)) = Fragment.formed (Fragment.cleaned (f v)) ∧
      attributeNotices (item u) tag = attributeNotices (item v) tag := by
  intro u v f tag item
  obtain ⟨hiff, hpair, htree, hmap⟩ := screening_of_urlForm
  have hform : urlForm u = urlForm v := by decide +kernel
  refine ⟨(hiff v).mpr (.inl (by decide +kernel)), (hpair u v hform).1, htree (f u) (f v) ?_,
    (hmap (item u) (item v) tag ?_).1⟩
  · simp only [f, Fragment.formed, Fragment.edit, Node.edit, formedTag, Tag.formed,
      Attribute.formed, List.map_cons, List.map_nil, hform]
  · decide +kernel

end BoundMarkup
