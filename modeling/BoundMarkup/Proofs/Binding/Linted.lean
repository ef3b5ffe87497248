import BoundMarkup.Proofs.Binding.Disclosure
import BoundMarkup.Proofs.Markup.Order

/-!
# Binding what has no issues

The check reads the directives of a fragment as it stands. Binding reads them from a fragment that
it is changing: texts replace children, attribute maps set attributes, markup is put in, and
elements are gone before the last pass. Still, a traversal comes across no element that the fragment
does not have. New texts have no elements, and what markup brings in is never entered. So whatever
is read stands on a tag of the fragment, in the first two passes as it is and in the last three as
the attribute pass has left it.

That pass may write a directive, and then its path is data. In a fragment without issues no other
path is refused, and no entry of an attribute map.

## Main definitions

* `Binding.tagsRead`: the tags on which one kind of directive is read;
* `Binding.WritesDirective`: the attribute map on a tag writes a path that is read later;
* `Binding.IsAccepted`: how an item is bound if no more is refused than must be.

## Main results

* `Binding.bindNotices_eq_flatMap_tagsRead`: the notices of binding, by kinds and tags;
* `Binding.mem_tags_of_mem_tagsRead`, `Binding.exists_tag_of_mem_tagsRead`: where the tags that are
  read come from;
* `Binding.attr?_eq_or_writesDirective`: where a path that is read late comes from;
* `isAccepted_of_lint_eq_nil`: a fragment without issues is bound so.
-/

namespace BoundMarkup

open Markup
open Json (Value)

/-! ### Traversals of changed fragments -/

namespace Markup

/-- A traversal meets tags of the fragment only. -/
theorem Fragment.mem_tags_of_mem_visited {enter : Tag → Bool} {tag : Tag} {f : Fragment}
    (h : tag ∈ Fragment.visited enter f) : tag ∈ Fragment.tags f := by
  have heach : Fragment.Each
      (fun n => ∀ tag children, n = .element tag children → tag ∈ Fragment.tags f) f := by
    refine Fragment.each_of_elements ?_ fun e he tag children heq => ?_
    · rintro n hn tag children rfl
      simp [Node.elements] at hn
    · cases heq
      exact List.mem_map_of_mem he
  obtain ⟨children, hmem⟩ := Fragment.of_mem_visited heach h
  exact hmem tag children rfl

section Edit

variable {enter : Tag → Bool} {g : Tag → Tag × Option Fragment} {tag : Tag}

mutual

private theorem Node.exists_of_mem_visited_edit
    (hcontent : ∀ t content, (g t).2 = some content → enter (g t).1 = true →
      Fragment.visited enter content = []) :
    ∀ {n : Node}, tag ∈ (n.edit g).visited enter →
      ∃ t ∈ n.visited fun _ => true, tag = (g t).1
  | .element t children, h => by
    rw [Node.visited, if_pos rfl]
    rw [Node.edit] at h
    split at h
    · next t' content hg =>
      -- The new content is not entered, or there is nothing in it to meet.
      have hnew : (if enter t' then Fragment.visited enter content else []) = [] := by
        split
        · next henter => exact hcontent t content (by rw [hg]) (by rwa [hg])
        · rfl
      rw [Node.visited, hnew, List.mem_singleton] at h
      exact ⟨t, List.mem_cons_self, by rw [h, hg]⟩
    · next t' hg =>
      rw [Node.visited, List.mem_cons] at h
      rcases h with h | h
      · exact ⟨t, List.mem_cons_self, by rw [h, hg]⟩
      · split at h
        · obtain ⟨t₁, ht₁, htag⟩ := Fragment.exists_of_mem_visited_edit hcontent h
          exact ⟨t₁, List.mem_cons_of_mem _ ht₁, htag⟩
        · exact absurd h List.not_mem_nil
  | .text _, h => by simp [Node.edit, Node.visited] at h
  | .comment _, h => by simp [Node.edit, Node.visited] at h
  | .doctype _, h => by simp [Node.edit, Node.visited] at h

/-- A traversal of what was edited meets the new tags of elements that were there before, if the new
content that it enters has no elements. -/
theorem Fragment.exists_of_mem_visited_edit
    (hcontent : ∀ t content, (g t).2 = some content → enter (g t).1 = true →
      Fragment.visited enter content = []) :
    ∀ {f : List Node}, tag ∈ Fragment.visited enter (Fragment.edit g f) →
      ∃ t ∈ Fragment.visited (fun _ => true) f, tag = (g t).1
  | [], h => by simp [Fragment.edit, Fragment.visited] at h
  | n :: f, h => by
    rw [Fragment.edit, Fragment.visited, List.mem_append] at h
    rw [Fragment.visited]
    rcases h with h | h
    · obtain ⟨t, ht, htag⟩ := Node.exists_of_mem_visited_edit hcontent h
      exact ⟨t, List.mem_append_left _ ht, htag⟩
    · obtain ⟨t, ht, htag⟩ := Fragment.exists_of_mem_visited_edit hcontent h
      exact ⟨t, List.mem_append_right _ ht, htag⟩

end

end Edit

theorem Fragment.visited_append (enter : Tag → Bool) (f g : List Node) :
    Fragment.visited enter (f ++ g) = Fragment.visited enter f ++ Fragment.visited enter g := by
  induction f with
  | nil => simp [Fragment.visited]
  | cons n f ih => simp [Fragment.visited, ih]

mutual

private theorem Node.visited_retain_sublist (keep enter enter' : Tag → Bool) : ∀ n : Node,
    (Fragment.visited enter' (n.retain keep enter).toList).Sublist (n.visited enter')
  | .element tag children => by
    rw [Node.retain]
    split
    · rw [Option.toList_some, Fragment.visited, Fragment.visited, List.append_nil, Node.visited,
        Node.visited]
      refine List.Sublist.cons_cons tag ?_
      split
      · split
        · exact Fragment.visited_retain_sublist keep enter enter' children
        · exact List.Sublist.refl _
      · exact List.Sublist.refl _
    · rw [Option.toList_none, Fragment.visited]
      exact List.nil_sublist _
  | .text _ => by simp [Node.retain, Fragment.visited]
  | .comment _ => by simp [Node.retain, Fragment.visited]
  | .doctype _ => by simp [Node.retain, Fragment.visited]

/-- A traversal meets nothing behind a removal that it would not have met before. -/
theorem Fragment.visited_retain_sublist (keep enter enter' : Tag → Bool) : ∀ f : List Node,
    (Fragment.visited enter' (Fragment.retain keep enter f)).Sublist (Fragment.visited enter' f)
  | [] => by
    rw [Fragment.retain]
  | n :: f => by
    rw [Fragment.retain, Fragment.visited_append, Fragment.visited]
    exact (Node.visited_retain_sublist keep enter enter' n).append
      (Fragment.visited_retain_sublist keep enter enter' f)

end

theorem Fragment.visited_textChildren (enter : Tag → Bool) (s : String) :
    Fragment.visited enter (textChildren s) = [] := by
  unfold textChildren
  split
  · rw [Fragment.visited]
  · simp [Fragment.visited, Node.visited]

end Markup

namespace Binding

/-! ### What is read -/

/-- The tags on which binding reads one kind of directive, in order. -/
def tagsRead (f : Fragment) (item : Value) (kind : DirectiveKind) : List Tag :=
  let texts := textPass item f
  let attributes := attributePass item texts
  let markups := markupPass item attributes
  match kind with
  | .text => Fragment.visited (fun tag => !tag.hasAttr DirectiveKind.text.marker) f
  | .attributeMap => Fragment.visited (fun _ => true) texts
  | .markup => Fragment.visited (!hasMarkup ·) attributes
  | .showIf => Fragment.visited (fun tag => keepsIf item tag && !hasMarkup tag) markups
  | .showUnless =>
    Fragment.visited (fun tag => keepsUnless item tag && !hasMarkup tag)
      (removalPass (keepsIf item) markups)

/-- The notices of one kind of directive on one tag. -/
def directiveNotices (item : Value) (kind : DirectiveKind) (tag : Tag) : List BindNotice :=
  match kind with
  | .attributeMap => attributeNotices item tag
  | .markup => markupNotices item tag
  | kind => pathNotices kind tag

/-- The attribute map on a tag writes the path of a directive that is read after the attribute pass:
it has the directive for a target, and the path is a value of the item as it is shown. -/
structure WritesDirective (item : Value) (tag : Tag) (kind : DirectiveKind) (path : String) :
    Prop where
  /-- The directive is read after the attribute pass. -/
  kind_mem : kind ∈ [DirectiveKind.markup, .showIf, .showUnless]
  /-- The path is what one of the bindings finds in the item. -/
  exists_binding : ∃ b ∈ bindingsOn tag, ∃ v,
    b.target = kind.marker ∧ b.path.lookup item = some v ∧ displayText v = path

/-- A fragment is bound to an item, and no more is refused than must be. -/
structure IsAccepted (f : Fragment) (item : Value) : Prop where
  /-- Every entry of an attribute map is accepted, and so is the text of its path. -/
  entry_ok : ∀ tag ∈ tagsRead f item .attributeMap, ∀ list,
    tag.attr? DirectiveKind.attributeMap.marker = some list → ∀ result ∈ attributeMap list,
      ∃ b, result = .ok b ∧ Path.parse b.path.source = .ok b.path
  /-- Any other path is accepted, unless an attribute map has written it on this very element. -/
  path_ok : ∀ kind ≠ .attributeMap, ∀ tag ∈ tagsRead f item kind, ∀ path,
    tag.attr? kind.marker = some path → (∃ p, Path.parse path = .ok p) ∨
      ∃ t ∈ Fragment.tags f, tag = bindAttributes item t ∧ WritesDirective item t kind path
  /-- A notice is about a path that was written so, about a URL that would run code, or about the
  markup of the item. -/
  notice_cases : ∀ notice ∈ bindNotices f item,
    (∃ kind e, notice = .ignoredPath kind e ∧ ∃ t ∈ Fragment.tags f, ∃ path,
      WritesDirective item t kind path ∧ Path.parse path = .error e) ∨
    (∃ target element, notice = .refusedUrl target element) ∨ ∃ about, notice = .markup about

variable {f : Fragment} {item : Value} {tag : Tag} {kind : DirectiveKind} {path : String}

/-- The notices of binding are those of the directives that are read, one kind after another. -/
theorem bindNotices_eq_flatMap_tagsRead (f : Fragment) (item : Value) :
    bindNotices f item = DirectiveKind.all.flatMap fun kind =>
      (tagsRead f item kind).flatMap (directiveNotices item kind) := by
  rw [DirectiveKind.all, List.flatMap_cons, List.flatMap_cons, List.flatMap_cons, List.flatMap_cons,
    List.flatMap_singleton, ← List.append_assoc, ← List.append_assoc, ← List.append_assoc]
  rfl

/-- A tag on which a text or an attribute map is read is a tag of the fragment. -/
theorem mem_tags_of_mem_tagsRead (hkind : kind ∈ [DirectiveKind.text, .attributeMap])
    (h : tag ∈ tagsRead f item kind) : tag ∈ Fragment.tags f := by
  rw [List.mem_pair] at hkind
  rcases hkind with rfl | rfl
  · exact Fragment.mem_tags_of_mem_visited h
  · -- Texts replace children, but no tags.
    obtain ⟨t, ht, rfl⟩ := Fragment.exists_of_mem_visited_edit (fun t content hcontent _ => by
      obtain ⟨path, -, rfl⟩ := Option.map_eq_some_iff.mp hcontent
      exact Fragment.visited_textChildren _ _) h
    exact Fragment.mem_tags_of_mem_visited ht

/-- A tag on which a directive is read behind the attribute pass is what that pass has made of a tag
of the fragment. -/
theorem exists_tag_of_mem_tagsRead (hkind : kind ∈ [DirectiveKind.markup, .showIf, .showUnless])
    (h : tag ∈ tagsRead f item kind) : ∃ t ∈ Fragment.tags f, tag = bindAttributes item t := by
  have hattributes : ∀ {enter tag},
      tag ∈ Fragment.visited enter (attributePass item (textPass item f)) →
        ∃ t ∈ Fragment.tags f, tag = bindAttributes item t := by
    intro enter tag h
    obtain ⟨t, ht, htag⟩ := Fragment.exists_of_mem_visited_edit (fun _ _ hcontent _ => by
      cases hcontent) h
    have hread : t ∈ tagsRead f item .attributeMap := ht
    exact ⟨t, mem_tags_of_mem_tagsRead (by decide) hread, htag⟩
  -- Where there is markup of the item, a removal pass does not go.
  have hmarkups : ∀ {keep : Tag → Bool} {tag},
      tag ∈ Fragment.visited (fun tag => keep tag && !hasMarkup tag)
        (markupPass item (attributePass item (textPass item f))) →
        ∃ t ∈ Fragment.tags f, tag = bindAttributes item t := by
    intro keep tag h
    obtain ⟨t, ht, rfl⟩ := Fragment.exists_of_mem_visited_edit (fun t content hcontent henter => by
      obtain ⟨path, hpath, -⟩ := Option.map_eq_some_iff.mp hcontent
      simp [bindMarkup, hasMarkup, Tag.hasAttr, hpath] at henter) h
    exact hattributes ht
  rw [List.mem_cons, List.mem_pair] at hkind
  rcases hkind with rfl | rfl | rfl
  · exact hattributes h
  · exact hmarkups h
  · exact hmarkups ((Fragment.visited_retain_sublist _ _ _ _).subset h)

/-- Behind the attribute pass a directive has the path that it had before, or one that the attribute
map has written. -/
theorem attr?_eq_or_writesDirective (hkind : kind ∈ [DirectiveKind.markup, .showIf, .showUnless])
    (h : (bindAttributes item tag).attr? kind.marker = some path) :
    tag.attr? kind.marker = some path ∨ WritesDirective item tag kind path := by
  rcases attr?_bindAttributes_cases item tag kind with
    hsame | ⟨b, hb, v, htarget, hlookup, hwritten⟩
  · exact .inl (hsame.symm.trans h)
  · have hpath : path = displayText v := Option.some.inj (h.symm.trans hwritten)
    exact .inr ⟨hkind, b, hb, v, htarget, hlookup, hpath.symm⟩

/-! ### Notices -/

variable {notice : BindNotice} {list : String} {result : Except DirectiveIssue AttributeBinding}

theorem of_mem_pathNotices (h : notice ∈ pathNotices kind tag) :
    ∃ path e, notice = .ignoredPath kind e ∧ tag.attr? kind.marker = some path ∧
      Path.parse path = .error e := by
  rw [pathNotices] at h
  split at h
  · cases h
  · next path hpath =>
    split at h
    · cases h
    · next e hparse => exact ⟨path, e, List.mem_singleton.mp h, hpath, hparse⟩

theorem of_mem_markupNotices (h : notice ∈ markupNotices item tag) :
    notice ∈ pathNotices .markup tag ∨ ∃ about, notice = .markup about := by
  rw [markupNotices, List.mem_append] at h
  refine h.imp id fun h => ?_
  split at h
  · cases h
  · obtain ⟨about, -, rfl⟩ := List.mem_map.mp h
    exact ⟨about, rfl⟩

/-- A binding has a notice only if it would make a URL run code. -/
theorem of_mem_entryNotices {element : String} {b : AttributeBinding}
    (h : notice ∈ entryNotices item element (.ok b)) :
    ∃ target element, notice = .refusedUrl target element := by
  rw [entryNotices] at h
  split at h
  · cases h
  · split at h
    · exact ⟨_, _, List.mem_singleton.mp h⟩
    · cases h

/-! ### Fragments without issues -/

/-- A directive without issues that is no attribute map has a path. -/
theorem exists_parse_of_issues_eq_nil (h : kind.issues tag = []) (hkind : kind ≠ .attributeMap)
    (hpath : tag.attr? kind.marker = some path) : ∃ p, Path.parse path = .ok p := by
  cases hparse : Path.parse path with
  | ok p => exact ⟨p, rfl⟩
  | error e =>
    rw [DirectiveKind.issues.eq_def, hpath] at h
    cases kind <;> simp [hparse] at h hkind

/-- The entries of an attribute map without issues are bindings. -/
theorem exists_binding_of_issues_eq_nil (h : DirectiveKind.attributeMap.issues tag = [])
    (hlist : tag.attr? DirectiveKind.attributeMap.marker = some list)
    (hresult : result ∈ attributeMap list) :
    ∃ b, result = .ok b ∧ Path.parse b.path.source = .ok b.path := by
  cases result with
  | ok b =>
    have hmem : b ∈ bindingsOn tag := by
      rw [bindingsOn, hlist]
      exact List.mem_filterMap.mpr ⟨.ok b, hresult, rfl⟩
    exact ⟨b, rfl, parse_source_of_mem_bindingsOn hmem⟩
  | error issue =>
    have hissue : issue ∈ attributeMapIssues list := List.mem_filterMap.mpr ⟨_, hresult, rfl⟩
    rw [DirectiveKind.issues.eq_def, hlist] at h
    change attributeMapIssues list = [] at h
    rw [h] at hissue
    cases hissue

section NoIssues

variable (h : lint f = [])

include h

theorem issues_eq_nil_of_mem_tags (htag : tag ∈ Fragment.tags f) (kind : DirectiveKind) :
    kind.issues tag = [] := by
  obtain ⟨e, he, rfl⟩ := List.mem_map.mp htag
  have hkinds := List.flatMap_eq_nil_iff.mp h e he
  exact List.flatMap_eq_nil_iff.mp hkinds kind (mem_all kind)

/-- The attribute pass meets bindings only. -/
theorem exists_binding_of_mem_tagsRead (htag : tag ∈ tagsRead f item .attributeMap)
    (hlist : tag.attr? DirectiveKind.attributeMap.marker = some list)
    (hresult : result ∈ attributeMap list) :
    ∃ b, result = .ok b ∧ Path.parse b.path.source = .ok b.path := by
  have htags := mem_tags_of_mem_tagsRead (by decide) htag
  exact exists_binding_of_issues_eq_nil (issues_eq_nil_of_mem_tags h htags _) hlist hresult

/-- The other passes read paths that are accepted, or that an attribute map has written. -/
theorem exists_parse_or_writesDirective (hkind : kind ≠ .attributeMap)
    (htag : tag ∈ tagsRead f item kind) (hpath : tag.attr? kind.marker = some path) :
    (∃ p, Path.parse path = .ok p) ∨
      ∃ t ∈ Fragment.tags f, tag = bindAttributes item t ∧ WritesDirective item t kind path := by
  by_cases hlate : kind ∈ [DirectiveKind.markup, .showIf, .showUnless]
  · obtain ⟨t, ht, rfl⟩ := exists_tag_of_mem_tagsRead hlate htag
    rcases attr?_eq_or_writesDirective hlate hpath with hsame | hwrites
    · have hissues := issues_eq_nil_of_mem_tags h ht kind
      exact .inl (exists_parse_of_issues_eq_nil hissues hkind hsame)
    · exact .inr ⟨t, ht, rfl, hwrites⟩
  · -- Texts come first, so their paths stand in the fragment.
    have hearly : kind ∈ [DirectiveKind.text, .attributeMap] := by
      cases kind <;> simp at hlate ⊢
    have hissues := issues_eq_nil_of_mem_tags h (mem_tags_of_mem_tagsRead hearly htag) kind
    exact .inl (exists_parse_of_issues_eq_nil hissues hkind hpath)

/-- A path that is refused was written by an attribute map. -/
theorem exists_writesDirective_of_mem_pathNotices (hkind : kind ≠ .attributeMap)
    (htag : tag ∈ tagsRead f item kind) (hnotice : notice ∈ pathNotices kind tag) :
    ∃ kind e, notice = .ignoredPath kind e ∧ ∃ t ∈ Fragment.tags f, ∃ path,
      WritesDirective item t kind path ∧ Path.parse path = .error e := by
  obtain ⟨path, e, rfl, hpath, hparse⟩ := of_mem_pathNotices hnotice
  rcases exists_parse_or_writesDirective h hkind htag hpath with ⟨p, hok⟩ | ⟨t, ht, -, hwrites⟩
  · rw [hok] at hparse
    cases hparse
  · exact ⟨kind, e, rfl, t, ht, path, hwrites, hparse⟩

end NoIssues

end Binding

open Binding

/-- A fragment without issues is bound to any item with nothing refused but what depends on the
item: URLs that would run code, and paths that an attribute map has written into a directive which
is read later. -/
theorem isAccepted_of_lint_eq_nil {f : Fragment} (h : lint f = []) (item : Value) :
    IsAccepted f item where
  entry_ok _ htag _ hlist _ hresult := exists_binding_of_mem_tagsRead h htag hlist hresult
  path_ok _ hkind _ htag _ hpath := exists_parse_or_writesDirective h hkind htag hpath
  notice_cases := by
    intro notice hnotice
    rw [bindNotices_eq_flatMap_tagsRead] at hnotice
    obtain ⟨kind, -, hkind⟩ := List.mem_flatMap.mp hnotice
    obtain ⟨tag, htag, hmem⟩ := List.mem_flatMap.mp hkind
    cases kind with
    | text => exact .inl (exists_writesDirective_of_mem_pathNotices h (by decide) htag hmem)
    | attributeMap =>
      rw [directiveNotices, attributeNotices] at hmem
      split at hmem
      · cases hmem
      · next list hlist =>
        obtain ⟨result, hresult, hentry⟩ := List.mem_flatMap.mp hmem
        obtain ⟨b, rfl, -⟩ := exists_binding_of_mem_tagsRead h htag hlist hresult
        exact .inr (.inl (of_mem_entryNotices hentry))
    | markup =>
      rcases of_mem_markupNotices hmem with hpath | habout
      · exact .inl (exists_writesDirective_of_mem_pathNotices h (by decide) htag hpath)
      · exact .inr (.inr habout)
    | showIf => exact .inl (exists_writesDirective_of_mem_pathNotices h (by decide) htag hmem)
    | showUnless => exact .inl (exists_writesDirective_of_mem_pathNotices h (by decide) htag hmem)

/-- An element with an attribute map and a condition. -/
theorem isAccepted_conditional :
    let f : Fragment := [.element ⟨"a", [⟨"field-attr", "href: url, title: name"⟩,
      ⟨"field-if", "name"⟩]⟩ []]
    let item : Value := .object [("url", .string "javascript:x"), ("name", .string "n")]
    lint f = [] ∧ IsAccepted f item := by
  intro f item
  have hlint : lint f = [] := by decide +kernel
  exact ⟨hlint, isAccepted_of_lint_eq_nil hlint item⟩

/-- A fragment without issues can have a path refused: the attribute map writes a condition, and
what the item has for it is no path. -/
theorem ignoredPath_written_of_lint_eq_nil :
    let f : Fragment := [.element ⟨"p", [⟨"field-attr", "field-if: x"⟩]⟩ []]
    let item : Value := .object [("x", .string "a()")]
    lint f = [] ∧ (∃ tag ∈ tagsRead f item .showIf,
      tag.attr? DirectiveKind.showIf.marker = some "a()") ∧
      Path.parse "a()" = .error (.rejected "a()") ∧
      BindNotice.ignoredPath .showIf (.rejected "a()") ∈ bindNotices f item := by
  decide +kernel

end BoundMarkup
