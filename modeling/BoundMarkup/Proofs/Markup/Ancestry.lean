import BoundMarkup.Proofs.Markup.Clean

/-!
# Nodes among their ancestors

What cleaning does to a node depends on the elements around it: a denied element takes with it
whatever is inside. So a fragment is looked at as the list of its places, which are its nodes in
document order, each with the tags of the elements that it is in. Cleaning keeps the places without
a denied element on the way, in their order, and takes unsafe attributes out of the tags.

A fragment is determined by its places, indeed by the depths of its nodes alone, so the equation for
the places says all there is to say about cleaning.

## Main definitions

* `Place`: a node with the tags of its ancestors;
* `Fragment.places`: the places of a fragment in document order;
* `Place.isKept`: neither the node nor an ancestor is removed.

## Main results

* `Fragment.listing_injective`: a fragment is determined by its nodes and their depths;
* `Fragment.places_cleaned`: the places that cleaning leaves;
* `eq_cleaned_iff`: what cleaning leaves, which fragments it leaves as they are, and that it does
  no more when it is done again.
-/

namespace BoundMarkup.Markup

/-! ### Listings -/

/-- A list that does not go on at the given depth or below it. -/
def EndsBelow (depth : Nat) (rest : List (Nat × Entry)) : Prop :=
  ∀ x ∈ rest.head?, x.1 < depth

theorem endsBelow_nil (depth : Nat) : EndsBelow depth [] := nofun

/-- The listing of a node begins with the node itself. -/
theorem Node.exists_listing_eq (depth : Nat) (n : Node) :
    ∃ entry inside, n.listing depth = (depth, entry) :: inside := by
  cases n with
  | element tag children => exact ⟨_, _, by rw [Node.listing]⟩
  | text s => exact ⟨_, _, by rw [Node.listing]⟩
  | comment s => exact ⟨_, _, by rw [Node.listing]⟩
  | doctype s => exact ⟨_, _, by rw [Node.listing]⟩

/-- Behind a node come its siblings, which are not inside it, or what ends the siblings. -/
theorem EndsBelow.listing_append {depth : Nat} {rest : List (Nat × Entry)}
    (h : EndsBelow depth rest) (f : Fragment) :
    EndsBelow (depth + 1) (Fragment.listing depth f ++ rest) := by
  intro x hx
  cases f with
  | nil =>
    rw [Fragment.listing, List.nil_append] at hx
    exact Nat.lt_succ_of_lt (h x hx)
  | cons n f =>
    obtain ⟨entry, inside, hn⟩ := n.exists_listing_eq depth
    rw [Fragment.listing, hn, List.cons_append, List.cons_append, List.head?_cons,
      Option.mem_some_iff] at hx
    rw [← hx]
    exact Nat.lt_succ_self depth

mutual

/-- A node is determined by a listing that begins with it, and so is the rest of the listing. -/
theorem Node.listing_append_inj {depth : Nat} : ∀ {n m : Node} {r s : List (Nat × Entry)},
    EndsBelow (depth + 1) r → EndsBelow (depth + 1) s →
      n.listing depth ++ r = m.listing depth ++ s → n = m ∧ r = s
  | .element tag children, m, r, s, hr, hs, h => by
    cases m with
    | element tag' children' =>
      simp only [Node.listing, List.cons_append, List.cons.injEq, Prod.mk.injEq,
        Entry.element.injEq, true_and] at h
      obtain ⟨rfl, hinside⟩ := h
      obtain ⟨rfl, hrest⟩ := Fragment.listing_append_inj hr hs hinside
      exact ⟨rfl, hrest⟩
    | _ => simp [Node.listing] at h
  | .text t, m, r, s, _, _, h => by cases m <;> simp_all [Node.listing]
  | .comment t, m, r, s, _, _, h => by cases m <;> simp_all [Node.listing]
  | .doctype t, m, r, s, _, _, h => by cases m <;> simp_all [Node.listing]

/-- A fragment is determined by a listing that begins with it and ends below it, and so is the rest
of the listing. -/
theorem Fragment.listing_append_inj {depth : Nat} : ∀ {f g : List Node} {r s : List (Nat × Entry)},
    EndsBelow depth r → EndsBelow depth s →
      Fragment.listing depth f ++ r = Fragment.listing depth g ++ s → f = g ∧ r = s
  | [], [], r, s, _, _, h => by
    rw [Fragment.listing] at h
    exact ⟨rfl, h⟩
  | [], m :: g, r, s, hr, _, h => by
    obtain ⟨entry, inside, hm⟩ := m.exists_listing_eq depth
    rw [Fragment.listing, Fragment.listing, hm, List.nil_append] at h
    -- The rest would go on at the depth of the fragment.
    have hlt : depth < depth := hr (depth, entry) (by rw [h]; rfl)
    exact absurd hlt (Nat.lt_irrefl depth)
  | n :: f, [], r, s, _, hs, h => by
    obtain ⟨entry, inside, hn⟩ := n.exists_listing_eq depth
    rw [Fragment.listing, Fragment.listing, hn, List.nil_append] at h
    have hlt : depth < depth := hs (depth, entry) (by rw [← h]; rfl)
    exact absurd hlt (Nat.lt_irrefl depth)
  | n :: f, m :: g, r, s, hr, hs, h => by
    rw [Fragment.listing, Fragment.listing, List.append_assoc, List.append_assoc] at h
    obtain ⟨rfl, hbehind⟩ := Node.listing_append_inj (hr.listing_append f) (hs.listing_append g) h
    obtain ⟨rfl, hrest⟩ := Fragment.listing_append_inj hr hs hbehind
    exact ⟨rfl, hrest⟩

end

/-- A fragment is determined by its nodes in document order and their depths. -/
theorem Fragment.listing_injective (depth : Nat) :
    Function.Injective (Fragment.listing depth) := by
  intro f g h
  have hnil := congrArg (· ++ []) h
  exact (Fragment.listing_append_inj (endsBelow_nil depth) (endsBelow_nil depth) hnil).1

/-! ### Places -/

/-- A node of a fragment and the elements around it. -/
structure Place where
  /-- The tags of the elements that the node is in, from the inside out. -/
  ancestors : List Tag
  /-- What the node is apart from its children. -/
  entry : Entry
deriving DecidableEq, Repr

mutual

/-- The places of one node inside elements with the given tags. -/
def Node.places (above : List Tag) : Node → List Place
  | .element tag children => ⟨above, .element tag⟩ :: Fragment.places (tag :: above) children
  | .text s => [⟨above, .text s⟩]
  | .comment s => [⟨above, .comment s⟩]
  | .doctype s => [⟨above, .doctype s⟩]

/-- The nodes in document order, parents before children, each with the tags of its ancestors. The
fragment itself is inside elements with the given tags. -/
def Fragment.places (above : List Tag) : List Node → List Place
  | [] => []
  | n :: rest => n.places above ++ Fragment.places above rest

end

theorem Fragment.places_append (above : List Tag) (f g : Fragment) :
    Fragment.places above (f ++ g) = Fragment.places above f ++ Fragment.places above g := by
  induction f with
  | nil => rw [List.nil_append, Fragment.places, List.nil_append]
  | cons n f ih =>
    rw [List.cons_append, Fragment.places, Fragment.places, ih, List.append_assoc]

mutual

theorem Node.map_places (above : List Tag) : ∀ n : Node,
    (n.places above).map (fun p => (p.ancestors.length, p.entry)) = n.listing above.length
  | .element tag children => by
    rw [Node.places, Node.listing, List.map_cons, Fragment.map_places (tag :: above) children,
      List.length_cons]
  | .text s => by simp [Node.places, Node.listing]
  | .comment s => by simp [Node.places, Node.listing]
  | .doctype s => by simp [Node.places, Node.listing]

/-- The depth of a node is the number of its ancestors. -/
theorem Fragment.map_places (above : List Tag) : ∀ f : List Node,
    (Fragment.places above f).map (fun p => (p.ancestors.length, p.entry)) =
      Fragment.listing above.length f
  | [] => by rw [Fragment.places, Fragment.listing, List.map_nil]
  | n :: f => by
    rw [Fragment.places, Fragment.listing, List.map_append, Node.map_places above n,
      Fragment.map_places above f]

end

/-- A fragment is determined by its places. -/
theorem Fragment.places_injective (above : List Tag) :
    Function.Injective (Fragment.places above) := by
  intro f g h
  apply Fragment.listing_injective above.length
  rw [← Fragment.map_places, ← Fragment.map_places, h]

mutual

theorem Node.mem_ancestors {above : List Tag} {tag : Tag} (htag : tag ∈ above) {p : Place} :
    ∀ {n : Node}, p ∈ n.places above → tag ∈ p.ancestors
  | .element tag' children, hp => by
    rw [Node.places, List.mem_cons] at hp
    rcases hp with rfl | hp
    · exact htag
    · exact Fragment.mem_ancestors (List.mem_cons_of_mem tag' htag) hp
  | .text s, hp => by
    rw [Node.places, List.mem_singleton] at hp
    rwa [hp]
  | .comment s, hp => by
    rw [Node.places, List.mem_singleton] at hp
    rwa [hp]
  | .doctype s, hp => by
    rw [Node.places, List.mem_singleton] at hp
    rwa [hp]

/-- What a fragment is inside of, every node of it is inside of. -/
theorem Fragment.mem_ancestors {above : List Tag} {tag : Tag} (htag : tag ∈ above) {p : Place} :
    ∀ {f : List Node}, p ∈ Fragment.places above f → tag ∈ p.ancestors
  | [], hp => by
    rw [Fragment.places] at hp
    exact absurd hp List.not_mem_nil
  | n :: f, hp => by
    rw [Fragment.places, List.mem_append] at hp
    exact hp.elim (Node.mem_ancestors htag) (Fragment.mem_ancestors htag)

end

/-! ### Cleaning -/

namespace Entry

/-- A text, or an element that is not denied. -/
def isKept : Entry → Bool
  | element tag => !isDenied tag.name
  | text _ => true
  | comment _ => false
  | doctype _ => false

/-- The entry with clean attributes only. -/
def cleaned : Entry → Entry
  | element tag => .element tag.cleaned
  | entry => entry

end Entry

namespace Place

/-- The node is kept, and no element that it is in is denied. -/
def isKept (p : Place) : Bool := p.entry.isKept && p.ancestors.all (!isDenied ·.name)

/-- The place with clean attributes only, those of the elements around it included. -/
def cleaned (p : Place) : Place where
  ancestors := p.ancestors.map Tag.cleaned
  entry := p.entry.cleaned

end Place

/-- No place inside a denied element is kept. -/
theorem Fragment.filter_places_of_denied {tag : Tag} (hdenied : isDenied tag.name = true)
    (above : List Tag) (f : Fragment) :
    (Fragment.places (tag :: above) f).filter Place.isKept = [] := by
  rw [List.filter_eq_nil_iff]
  intro p hp hkept
  have hmem : tag ∈ p.ancestors := Fragment.mem_ancestors List.mem_cons_self hp
  rw [Place.isKept, Bool.and_eq_true, List.all_eq_true] at hkept
  have hnot := hkept.2 tag hmem
  rw [hdenied] at hnot
  cases hnot

mutual

/-- The places that cleaning leaves of a node. -/
theorem Node.places_cleaned {above : List Tag} (habove : ∀ tag ∈ above, isDenied tag.name = false) :
    ∀ n : Node, Fragment.places (above.map Tag.cleaned) n.cleaned.toList =
      ((n.places above).filter Place.isKept).map Place.cleaned
  | .element tag children => by
    rw [Node.cleaned, Node.places]
    cases hdenied : isDenied tag.name with
    | true =>
      -- The element goes, and with it all that is inside.
      rw [List.filter_cons_of_neg (by simp [Place.isKept, Entry.isKept, hdenied]),
        Fragment.filter_places_of_denied hdenied]
      rfl
    | false =>
      have hinside : ∀ other ∈ tag :: above, isDenied other.name = false :=
        List.forall_mem_cons.mpr ⟨hdenied, habove⟩
      have hkept : Place.isKept ⟨above, .element tag⟩ = true := by
        simpa [Place.isKept, Entry.isKept, hdenied] using habove
      have hchildren := Fragment.places_cleaned hinside children
      rw [List.filter_cons_of_pos hkept, List.map_cons, ← hchildren]
      simp [Fragment.places, Node.places, Place.cleaned, Entry.cleaned]
  | .text s => by
    have hkept : Place.isKept ⟨above, .text s⟩ = true := by
      simpa [Place.isKept, Entry.isKept] using habove
    rw [Node.cleaned, Node.places, List.filter_cons_of_pos hkept]
    simp [Fragment.places, Node.places, Place.cleaned, Entry.cleaned]
  | .comment s => by
    rw [Node.cleaned, Node.places]
    rfl
  | .doctype s => by
    rw [Node.cleaned, Node.places]
    rfl

/-- Cleaning leaves the places that are kept, in their order and with clean attributes. -/
theorem Fragment.places_cleaned {above : List Tag}
    (habove : ∀ tag ∈ above, isDenied tag.name = false) : ∀ f : List Node,
      Fragment.places (above.map Tag.cleaned) (Fragment.cleaned f) =
        ((Fragment.places above f).filter Place.isKept).map Place.cleaned
  | [] => by
    rw [Fragment.cleaned, Fragment.places, Fragment.places]
    rfl
  | n :: f => by
    rw [Fragment.cleaned, Fragment.places_append, Fragment.places, List.filter_append,
      List.map_append, Node.places_cleaned habove n, Fragment.places_cleaned habove f]

end

/-- What is inside a denied element goes with it, and what comes behind it stays. -/
example :
    Fragment.cleaned
        [.element ⟨"FORM", []⟩ [.element ⟨"p", []⟩ [.text "x"]], .element ⟨"p", []⟩ [.text "y"]] =
      [.element ⟨"p", []⟩ [.text "y"]] := by
  rfl

/-! ### What cleaning leaves alone -/

/-- What a node is apart from its children. -/
def Node.entry : Node → Entry
  | .element tag _ => .element tag
  | .text s => .text s
  | .comment s => .comment s
  | .doctype s => .doctype s

/-- Nothing that cleaning removes: no denied element, no comment, no declaration, no event handler
and no URL that runs code. -/
def Entry.IsSafe : Entry → Prop
  | .element tag => isDenied tag.name = false ∧
    ∀ a ∈ tag.attributes, isEventHandler a.name = false ∧
      ¬(isUrlAttribute a.name = true ∧ isExecutableUrl a.value = true)
  | .text _ => True
  | .comment _ => False
  | .doctype _ => False

/-- An attribute is clean if it handles no event and leads to no executable URL. -/
theorem Attribute.isClean_iff (a : Attribute) :
    a.isClean = true ↔ isEventHandler a.name = false ∧
      ¬(isUrlAttribute a.name = true ∧ isExecutableUrl a.value = true) := by
  rw [Attribute.isClean, Bool.and_eq_true, Bool.not_eq_true', Bool.not_eq_true',
    ← Bool.and_eq_true, Bool.not_eq_true]

/-- A node is clean if there is nothing in it, apart from its children, that cleaning removes. -/
theorem Node.isClean_iff (n : Node) : n.IsClean ↔ n.entry.IsSafe := by
  cases n with
  | element tag children =>
    simp only [Node.IsClean, Node.entry, Entry.IsSafe, Tag.IsClean, Attribute.isClean_iff]
  | _ => rfl

section

variable {q : Entry → Prop}

mutual

theorem Node.each_iff_places (above : List Tag) : ∀ n : Node,
    n.Each (fun m => q m.entry) ↔ ∀ p ∈ n.places above, q p.entry
  | .element tag children => by
    rw [Node.Each, Node.places, List.forall_mem_cons,
      Fragment.each_iff_places (tag :: above) children]
    rfl
  | .text s => by simp [Node.Each, Node.places, Node.entry]
  | .comment s => by simp [Node.Each, Node.places, Node.entry]
  | .doctype s => by simp [Node.Each, Node.places, Node.entry]

/-- Every node has what every place has. -/
theorem Fragment.each_iff_places (above : List Tag) : ∀ f : List Node,
    Fragment.Each (fun n => q n.entry) f ↔ ∀ p ∈ Fragment.places above f, q p.entry
  | [] => by simp [Fragment.places]
  | n :: f => by
    rw [Fragment.each_cons, Fragment.places, List.forall_mem_append, Node.each_iff_places above n,
      Fragment.each_iff_places above f]

end

end

/-- Cleaning leaves alone the fragments without anything that it removes. -/
theorem Fragment.cleaned_eq_self_iff_places (f : Fragment) :
    Fragment.cleaned f = f ↔ ∀ p ∈ Fragment.places [] f, p.entry.IsSafe := by
  rw [Fragment.cleaned_eq_self_iff, ← Fragment.each_iff_places (q := Entry.IsSafe)]
  constructor
  · exact Fragment.Each.imp fun n => (Node.isClean_iff n).mp
  · exact Fragment.Each.imp fun n => (Node.isClean_iff n).mpr

/-- Cleaning a fragment leaves the texts and the elements that are not denied and not inside a
denied element, in their order and inside the same elements, and of their attributes those that
handle no event and lead to no executable URL; there is no other fragment like that. So it leaves a
fragment as it is exactly if there is nothing in it to remove, and cleaning again changes
nothing. -/
theorem eq_cleaned_iff (f : Fragment) :
    (∀ g, g = Fragment.cleaned f ↔
      Fragment.places [] g = ((Fragment.places [] f).filter Place.isKept).map Place.cleaned) ∧
    (Fragment.cleaned f = f ↔ ∀ p ∈ Fragment.places [] f, p.entry.IsSafe) ∧
    Fragment.cleaned (Fragment.cleaned f) = Fragment.cleaned f := by
  have hplaces : Fragment.places [] (Fragment.cleaned f) =
      ((Fragment.places [] f).filter Place.isKept).map Place.cleaned :=
    Fragment.places_cleaned (List.forall_mem_nil _) f
  refine ⟨fun g => ⟨?_, fun hg => ?_⟩, f.cleaned_eq_self_iff_places, ?_⟩
  · rintro rfl
    exact hplaces
  · apply Fragment.places_injective []
    rw [hg, hplaces]
  · exact Fragment.cleaned_eq_self (Fragment.each_cleaned f)

end BoundMarkup.Markup
