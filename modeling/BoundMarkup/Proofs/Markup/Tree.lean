import BoundMarkup.Markup.Edit

/-!
# Properties of every node

`Fragment.Each p` says that every node of a fragment, at any depth, has the property `p`. A property
that does not look at an element's children passes through whatever changes a fragment from
outside: editing, removal and collecting.

## Main results

* `each_append`: every node of a list is a node of one of its parts;
* `Each.imp`, `Each.and`: what follows for every node from what every node has;
* `each_edit`: editing keeps a property that the new tags and the new content have;
* `each_retain`: removal keeps a property;
* `of_mem_elements`, `each_of_elements`: what every element has.
-/

namespace BoundMarkup.Markup

variable {p q : Node → Prop}

mutual

/-- A node and all nodes in it have a property. -/
def Node.Each (p : Node → Prop) : Node → Prop
  | .element tag children => p (.element tag children) ∧ Fragment.Each p children
  | .text s => p (.text s)
  | .comment s => p (.comment s)
  | .doctype s => p (.doctype s)

/-- Every node of a fragment, at any depth, has a property. -/
def Fragment.Each (p : Node → Prop) : List Node → Prop
  | [] => True
  | n :: rest => n.Each p ∧ Fragment.Each p rest

end

/-- A property of nodes that does not depend on the children of an element. -/
def IgnoresChildren (p : Node → Prop) : Prop :=
  ∀ tag children content, p (.element tag children) → p (.element tag content)

namespace Fragment

@[simp]
theorem each_nil : Fragment.Each p [] := by
  simp [Fragment.Each]

@[simp]
theorem each_cons {n : Node} {f : List Node} :
    Fragment.Each p (n :: f) ↔ n.Each p ∧ Fragment.Each p f := by
  simp [Fragment.Each]

@[simp]
theorem each_append {f g : List Node} :
    Fragment.Each p (f ++ g) ↔ Fragment.Each p f ∧ Fragment.Each p g := by
  induction f with
  | nil => simp
  | cons n f ih => simp [ih, and_assoc]

@[simp]
theorem each_reverse {f : List Node} : Fragment.Each p f.reverse ↔ Fragment.Each p f := by
  induction f with
  | nil => simp
  | cons n f ih => simp [ih, and_comm]

theorem each_text {s : String} : Fragment.Each p [.text s] ↔ p (.text s) := by
  rw [each_cons, Node.Each]
  exact and_iff_left each_nil

/-- The children that show a text have what all texts have. -/
theorem each_textChildren (htext : ∀ s, p (.text s)) (s : String) :
    Fragment.Each p (textChildren s) := by
  unfold textChildren
  split
  · exact each_nil
  · exact each_text.mpr (htext s)

end Fragment

mutual

/-- A property of a node and all nodes in it may be weakened. -/
theorem Node.Each.imp (h : ∀ n, p n → q n) : ∀ {n : Node}, n.Each p → n.Each q
  | .element _ _, hn => by
    rw [Node.Each] at hn ⊢
    exact ⟨h _ hn.1, Fragment.Each.imp h hn.2⟩
  | .text _, hn => by
    rw [Node.Each] at hn ⊢
    exact h _ hn
  | .comment _, hn => by
    rw [Node.Each] at hn ⊢
    exact h _ hn
  | .doctype _, hn => by
    rw [Node.Each] at hn ⊢
    exact h _ hn

/-- A property of every node may be weakened. -/
theorem Fragment.Each.imp (h : ∀ n, p n → q n) :
    ∀ {f : List Node}, Fragment.Each p f → Fragment.Each q f
  | [], _ => Fragment.each_nil
  | _ :: _, hf => by
    rw [Fragment.each_cons] at hf ⊢
    exact ⟨hf.1.imp h, Fragment.Each.imp h hf.2⟩

end

mutual

/-- Two properties of a node and all nodes in it are one. -/
theorem Node.Each.and : ∀ {n : Node}, n.Each p → n.Each q → n.Each fun m => p m ∧ q m
  | .element _ _, hp, hq => by
    rw [Node.Each] at hp hq ⊢
    exact ⟨⟨hp.1, hq.1⟩, Fragment.Each.and hp.2 hq.2⟩
  | .text _, hp, hq => by
    rw [Node.Each] at hp hq ⊢
    exact ⟨hp, hq⟩
  | .comment _, hp, hq => by
    rw [Node.Each] at hp hq ⊢
    exact ⟨hp, hq⟩
  | .doctype _, hp, hq => by
    rw [Node.Each] at hp hq ⊢
    exact ⟨hp, hq⟩

/-- Two properties of every node are one. -/
theorem Fragment.Each.and : ∀ {f : List Node}, Fragment.Each p f → Fragment.Each q f →
    Fragment.Each (fun n => p n ∧ q n) f
  | [], _, _ => Fragment.each_nil
  | _ :: _, hp, hq => by
    rw [Fragment.each_cons] at hp hq ⊢
    exact ⟨hp.1.and hq.1, Fragment.Each.and hp.2 hq.2⟩

end

mutual

/-- A property of all nodes holds of a node and all nodes in it. -/
theorem Node.each_of_forall (h : ∀ n, p n) : ∀ n : Node, n.Each p
  | .element tag children => by
    rw [Node.Each]
    exact ⟨h _, Fragment.each_of_forall h children⟩
  | .text s => by
    rw [Node.Each]
    exact h _
  | .comment s => by
    rw [Node.Each]
    exact h _
  | .doctype s => by
    rw [Node.Each]
    exact h _

/-- A property of all nodes holds of every node of a fragment. -/
theorem Fragment.each_of_forall (h : ∀ n, p n) : ∀ f : List Node, Fragment.Each p f
  | [] => Fragment.each_nil
  | n :: f => Fragment.each_cons.mpr ⟨n.each_of_forall h, Fragment.each_of_forall h f⟩

end

/-! ### Editing and removal -/

mutual

/-- Editing a node keeps a property that the new tags and the new content have. -/
theorem Node.each_edit {f : Tag → Tag × Option Fragment}
    (htag : ∀ tag children content, p (.element tag children) → p (.element (f tag).1 content))
    (hcontent : ∀ tag content, (f tag).2 = some content → Fragment.Each p content) :
    ∀ {n : Node}, n.Each p → (n.edit f).Each p
  | .element tag children, hn => by
    rw [Node.Each] at hn
    rw [Node.edit]
    split
    · next tag' content hf =>
      rw [Node.Each]
      have hnew := htag tag children content hn.1
      rw [hf] at hnew
      exact ⟨hnew, hcontent tag content (by rw [hf])⟩
    · next tag' hf =>
      rw [Node.Each]
      have hnew := htag tag children (Fragment.edit f children) hn.1
      rw [hf] at hnew
      exact ⟨hnew, Fragment.each_edit htag hcontent hn.2⟩
  | .text _, hn => by rwa [Node.edit]; simp
  | .comment _, hn => by rwa [Node.edit]; simp
  | .doctype _, hn => by rwa [Node.edit]; simp

/-- Editing a fragment keeps a property that the new tags and the new content have. -/
theorem Fragment.each_edit {f : Tag → Tag × Option Fragment}
    (htag : ∀ tag children content, p (.element tag children) → p (.element (f tag).1 content))
    (hcontent : ∀ tag content, (f tag).2 = some content → Fragment.Each p content) :
    ∀ {g : List Node}, Fragment.Each p g → Fragment.Each p (Fragment.edit f g)
  | [], _ => by
    rw [Fragment.edit]
    exact Fragment.each_nil
  | _ :: _, hg => by
    rw [Fragment.each_cons] at hg
    rw [Fragment.edit, Fragment.each_cons]
    exact ⟨Node.each_edit htag hcontent hg.1, Fragment.each_edit htag hcontent hg.2⟩

end

mutual

/-- What a removal leaves of a node has the properties of the node that ignore children. -/
theorem Node.each_retain (hp : IgnoresChildren p) (keep enter : Tag → Bool) :
    ∀ {n : Node}, n.Each p → Fragment.Each p (n.retain keep enter).toList
  | .element tag children, hn => by
    rw [Node.Each] at hn
    rw [Node.retain]
    split
    · rw [Option.toList_some, Fragment.each_cons, Node.Each]
      refine ⟨⟨hp _ _ _ hn.1, ?_⟩, Fragment.each_nil⟩
      split
      · exact Fragment.each_retain hp keep enter hn.2
      · exact hn.2
    · exact Fragment.each_nil
  | .text _, hn => by simpa [Node.retain] using hn
  | .comment _, hn => by simpa [Node.retain] using hn
  | .doctype _, hn => by simpa [Node.retain] using hn

/-- What a removal leaves of a fragment has the properties of the fragment that ignore children. -/
theorem Fragment.each_retain (hp : IgnoresChildren p) (keep enter : Tag → Bool) :
    ∀ {f : List Node}, Fragment.Each p f → Fragment.Each p (Fragment.retain keep enter f)
  | [], _ => by
    rw [Fragment.retain]
    exact Fragment.each_nil
  | _ :: _, hf => by
    rw [Fragment.each_cons] at hf
    rw [Fragment.retain, Fragment.each_append]
    exact ⟨Node.each_retain hp keep enter hf.1, Fragment.each_retain hp keep enter hf.2⟩

end

/-! ### Traversals -/

mutual

/-- A tag that a traversal meets in a node is that of an element with the properties of the nodes. -/
theorem Node.of_mem_visited {enter : Tag → Bool} {tag : Tag} :
    ∀ {n : Node}, n.Each p → tag ∈ n.visited enter → ∃ children, p (.element tag children)
  | .element tag' children, hn, htag => by
    rw [Node.Each] at hn
    rw [Node.visited, List.mem_cons] at htag
    rcases htag with rfl | htag
    · exact ⟨children, hn.1⟩
    · split at htag
      · exact Fragment.of_mem_visited hn.2 htag
      · exact absurd htag List.not_mem_nil
  | .text _, _, htag => by simp [Node.visited] at htag
  | .comment _, _, htag => by simp [Node.visited] at htag
  | .doctype _, _, htag => by simp [Node.visited] at htag

/-- A tag that a traversal meets is that of an element with the properties of the nodes. -/
theorem Fragment.of_mem_visited {enter : Tag → Bool} {tag : Tag} :
    ∀ {f : List Node}, Fragment.Each p f → tag ∈ Fragment.visited enter f →
      ∃ children, p (.element tag children)
  | [], _, htag => by simp [Fragment.visited] at htag
  | _ :: _, hf, htag => by
    rw [Fragment.each_cons] at hf
    rw [Fragment.visited, List.mem_append] at htag
    exact htag.elim (Node.of_mem_visited hf.1) (Fragment.of_mem_visited hf.2)

end

mutual

/-- An element of a node has the properties of the nodes. -/
theorem Node.of_mem_elements {e : Element} :
    ∀ {n : Node}, n.Each p → e ∈ n.elements → p e.toNode
  | .element tag children, hn, he => by
    rw [Node.Each] at hn
    rw [Node.elements, List.mem_cons] at he
    rcases he with rfl | he
    · exact hn.1
    · exact Fragment.of_mem_elements hn.2 he
  | .text _, _, he => by simp [Node.elements] at he
  | .comment _, _, he => by simp [Node.elements] at he
  | .doctype _, _, he => by simp [Node.elements] at he

/-- An element of a fragment has the properties of the nodes. -/
theorem Fragment.of_mem_elements {e : Element} :
    ∀ {f : List Node}, Fragment.Each p f → e ∈ Fragment.elements f → p e.toNode
  | [], _, he => by simp [Fragment.elements] at he
  | _ :: _, hf, he => by
    rw [Fragment.each_cons] at hf
    rw [Fragment.elements, List.mem_append] at he
    exact he.elim (Node.of_mem_elements hf.1) (Fragment.of_mem_elements hf.2)

end

mutual

/-- A property of the elements of a node and of all that is no element holds of all nodes in it. -/
theorem Node.each_of_elements (hrest : ∀ n : Node, n.elements = [] → p n) :
    ∀ {n : Node}, (∀ e ∈ n.elements, p e.toNode) → n.Each p
  | .element tag children, h => by
    rw [Node.elements, List.forall_mem_cons] at h
    rw [Node.Each]
    exact ⟨h.1, Fragment.each_of_elements hrest h.2⟩
  | .text s, _ => by
    rw [Node.Each]
    exact hrest _ (by rw [Node.elements]; exact nofun)
  | .comment s, _ => by
    rw [Node.Each]
    exact hrest _ (by rw [Node.elements]; exact nofun)
  | .doctype s, _ => by
    rw [Node.Each]
    exact hrest _ (by rw [Node.elements]; exact nofun)

/-- A property of the elements of a fragment and of all that is no element holds of every node. -/
theorem Fragment.each_of_elements (hrest : ∀ n : Node, n.elements = [] → p n) :
    ∀ {f : List Node}, (∀ e ∈ Fragment.elements f, p e.toNode) → Fragment.Each p f
  | [], _ => Fragment.each_nil
  | n :: f, h => by
    rw [Fragment.elements, List.forall_mem_append] at h
    exact Fragment.each_cons.mpr
      ⟨Node.each_of_elements hrest h.1, Fragment.each_of_elements hrest h.2⟩

end

end BoundMarkup.Markup
