import BoundMarkup.Markup.Parse
import BoundMarkup.Proofs.Markup.Tree

/-!
# What an assembled tree is made of

Every element of an assembled tree is the element of some tag token, every comment that of a comment
token, and no token is lost: text is joined, but all other nodes stay, wherever they end up. So a
property of nodes that does not look at children and holds of all texts holds of every node of the
tree if and only if it holds of what every token stands for.

## Main definitions

* `Token.Yields p`: what a token stands for has the property `p`;
* `Assembly.Each p`: every node so far and every open element has the property `p`.

## Main results

* `each_add`: what one token adds;
* `finish_close`: an end tag makes no difference to a tree that is finished behind it;
* `each_finish`: closing what is open adds nothing;
* `Assembly.addReading_eq`: a reading adds its tokens one after another, unless it fails;
* `each_parse_iff`: every node of a parsed tree has a property if and only if every token yields it.
-/

namespace BoundMarkup.Markup

variable {p : Node → Prop}

/-- What a token stands for has a property. A tag that is not valid stands for text. -/
def Token.Yields (p : Node → Prop) : Token → Prop
  | .tag _ content => ∀ tag, Tag.ofText? content = some tag → p (.element tag [])
  | .comment text => p (.comment (String.ofList text))
  | .doctype text => p (.doctype (String.ofList text))
  | _ => True

/-- An open element and the nodes in front of it have a property. -/
def OpenElement.Each (p : Node → Prop) (o : OpenElement) : Prop :=
  p (.element o.tag []) ∧ Fragment.Each p o.before

/-- The nodes of an assembly and its open elements have a property. -/
def Assembly.Each (p : Node → Prop) (a : Assembly) : Prop :=
  Fragment.Each p a.nodes ∧ ∀ o ∈ a.enclosing, o.Each p

namespace Assembly

/-- Closing the levels that an end tag closes is part of closing all that is open. -/
private theorem finish_of_closed? {name : String} {nodes : List Node}
    {enclosing : List OpenElement} {b : Assembly} (h : closed? name nodes enclosing = some b) :
    b.finish = finish { nodes, enclosing } := by
  induction enclosing generalizing nodes with
  | nil => cases h
  | cons o outer ih =>
    rw [closed?] at h
    split at h
    · cases h
      rfl
    · exact ih h

/-- An end tag makes no difference to a tree that is finished behind it. -/
theorem finish_close (a : Assembly) (name : String) : (a.close name).finish = a.finish := by
  unfold close
  cases h : closed? name a.nodes a.enclosing with
  | none => rfl
  | some b => exact finish_of_closed? h

section

variable (hp : IgnoresChildren p) (htext : ∀ s, p (.text s))

include hp in
theorem each_element {tag : Tag} {children : List Node} :
    (Node.element tag children).Each p ↔ p (.element tag []) ∧ Fragment.Each p children := by
  rw [Node.Each]
  exact and_congr_left fun _ => ⟨hp _ _ _, hp _ _ _⟩

theorem each_append {a : Assembly} {n : Node} : (a.append n).Each p ↔ n.Each p ∧ a.Each p := by
  simp [Assembly.Each, append, and_assoc]

include htext in
/-- Text adds nothing but a text. -/
theorem each_appendText {a : Assembly} {s : String} : (a.appendText s).Each p ↔ a.Each p := by
  have hall (t : String) : (Node.text t).Each p := by
    rw [Node.Each]
    exact htext t
  unfold appendText
  split
  · rfl
  · split
    · next t rest hnodes => simp [Assembly.Each, hnodes, hall]
    · simp [Assembly.Each, hall]

theorem each_openElement {a : Assembly} {tag : Tag} :
    (a.openElement tag).Each p ↔ p (.element tag []) ∧ a.Each p := by
  simp [Assembly.Each, OpenElement.Each, openElement, and_assoc]

include hp in
/-- Closing an element adds nothing. -/
theorem each_closed {o : OpenElement} {nodes : List Node} :
    Fragment.Each p (o.closed nodes) ↔ Fragment.Each p nodes ∧ o.Each p := by
  rw [OpenElement.closed, Fragment.each_cons, each_element hp, Fragment.each_reverse,
    OpenElement.Each]
  exact ⟨fun ⟨⟨h1, h2⟩, h3⟩ => ⟨h2, h1, h3⟩, fun ⟨h2, h1, h3⟩ => ⟨⟨h1, h2⟩, h3⟩⟩

include hp in
theorem each_foldl_closed {nodes : List Node} {enclosing : List OpenElement} :
    Fragment.Each p (enclosing.foldl (fun nodes o => o.closed nodes) nodes) ↔
      Fragment.Each p nodes ∧ ∀ o ∈ enclosing, o.Each p := by
  induction enclosing generalizing nodes with
  | nil => simp
  | cons o outer ih => simp [ih, each_closed hp, and_assoc]

include hp in
/-- Closing all that is open adds nothing. -/
theorem each_finish {a : Assembly} : Fragment.Each p a.finish ↔ a.Each p := by
  rw [finish, Fragment.each_reverse]
  exact each_foldl_closed hp

include hp in
/-- An end tag adds nothing, whatever it closes. -/
theorem each_close {a : Assembly} {name : String} : (a.close name).Each p ↔ a.Each p := by
  rw [← each_finish hp, finish_close, each_finish hp]

include hp htext in
/-- A tag adds its element, whether that is left open or complete. -/
theorem each_appendTag {a : Assembly} {form : TagForm} {tag : Tag} :
    (a.appendTag form tag).Each p ↔ p (.element tag []) ∧ a.Each p := by
  have hempty : (Node.element tag []).Each p ↔ p (.element tag []) := by
    rw [each_element hp]
    exact and_iff_left Fragment.each_nil
  unfold appendTag
  split
  · split
    · rw [each_append, hempty]
    · exact each_openElement
  · rw [each_append, hempty]
  · -- The only child of a raw-text element is a text, which adds nothing.
    rw [each_append, each_element hp, and_iff_left (Fragment.each_textChildren htext _)]

include hp htext in
/-- A token adds what it stands for, and nothing is lost. -/
theorem each_add {a : Assembly} {t : Token} : (a.add t).Each p ↔ t.Yields p ∧ a.Each p := by
  unfold add
  split
  · simp [each_appendText htext, Token.Yields]
  · simp [each_appendText htext, Token.Yields]
  · simp [each_appendText htext, Token.Yields]
  · -- A tag that is not valid stays text.
    split
    · next tag hof => simp [each_appendTag hp htext, Token.Yields, hof]
    · next hof => simp [each_appendText htext, Token.Yields, hof]
  · simp [each_close hp, Token.Yields]
  · simp [each_append, Token.Yields, Node.Each]
  · simp [each_append, Token.Yields, Node.Each]
  · simp [Token.Yields]

include hp htext in
/-- A reading adds what its tokens stand for. -/
theorem each_addReading {a b : Assembly} {r : Reading} (h : a.addReading r = .ok b) :
    b.Each p ↔ (∀ t ∈ r.tokens, t.Yields p) ∧ a.Each p := by
  induction r generalizing a with
  | done =>
    cases h
    simp [Reading.tokens]
  | failed e => cases h
  | next t r ih =>
    rw [addReading] at h
    rw [ih h, each_add hp htext, Reading.tokens, List.forall_mem_cons, and_assoc]
    exact and_left_comm

end

/-- A reading adds its tokens one after another, unless it fails. -/
theorem addReading_eq (a : Assembly) (r : Reading) :
    a.addReading r = r.error?.elim (.ok (r.tokens.foldl add a)) .error := by
  induction r generalizing a with
  | done => rfl
  | failed e => rfl
  | next t r ih => exact ih (a.add t)

theorem addReading_eq_ok_iff {a b : Assembly} {r : Reading} :
    a.addReading r = .ok b ↔ r.error? = none ∧ r.tokens.foldl add a = b := by
  rw [addReading_eq]
  cases r.error? <;> simp

end Assembly

/-- A parsed tree is the assembly of what is read. -/
theorem exists_addReading_of_parse {markup : String} {f : Fragment} (h : parse markup = .ok f) :
    ∃ a, ({} : Assembly).addReading (read markup.toList) = .ok a ∧ a.finish = f := by
  rw [parse] at h
  cases ha : ({} : Assembly).addReading (read markup.toList) with
  | error e =>
    rw [ha] at h
    cases h
  | ok a =>
    rw [ha] at h
    cases h
    exact ⟨a, rfl, rfl⟩

/-- Every node of a parsed tree has a property if and only if every token yields it. -/
theorem each_parse_iff (hp : IgnoresChildren p) (htext : ∀ s, p (.text s)) {markup : String}
    {f : Fragment} (h : parse markup = .ok f) :
    Fragment.Each p f ↔ ∀ t ∈ (read markup.toList).tokens, t.Yields p := by
  obtain ⟨a, ha, rfl⟩ := exists_addReading_of_parse h
  rw [Assembly.each_finish hp, Assembly.each_addReading hp htext ha]
  exact and_iff_left ⟨Fragment.each_nil, nofun⟩

end BoundMarkup.Markup
