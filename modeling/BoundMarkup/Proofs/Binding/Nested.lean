import BoundMarkup.Proofs.Binding.Rerender
import Mathlib.Data.List.Flatten

/-!
# Hosts inside of hosts

Rendering and checking do not agree on what a host is. Rendering takes the topmost elements of the
name: what is inside of a host belongs to its blueprint. A check takes all elements of the name. So
it looks into a host for its blueprint and then once more for the hosts inside, and reports what is
there as if it were on its own.

The elements of a name are the topmost ones, each followed by those inside of it. That is all that
there is to say of the difference: a check says of the topmost elements what they are rendered by,
and anything else that it says is about elements inside of them.

## Main results

* `Fragment.elements_children_sublist`: what is inside of an element is in the fragment around it;
* `lint_blueprint_sublist`: the issues of a host in a fragment are issues of the fragment;
* `checkPage_eq_map_topmost`: the issues of a page by the hosts that are rendered;
* `checkPage_eq_topmost_iff`: what a check says of nested hosts, and when it says nothing of them.
-/

namespace BoundMarkup

open Markup Host

/-! ### Elements inside of elements -/

namespace Markup

mutual

private theorem Node.elements_children_sublist {e : Element} :
    ∀ {n : Node}, e ∈ n.elements → (Fragment.elements e.children).Sublist n.elements
  | .element tag children, h => by
    rw [Node.elements, List.mem_cons] at h
    rw [Node.elements]
    rcases h with rfl | h
    · exact List.sublist_cons_self _ _
    · exact (Fragment.elements_children_sublist h).cons _
  | .text _, h => by simp [Node.elements] at h
  | .comment _, h => by simp [Node.elements] at h
  | .doctype _, h => by simp [Node.elements] at h

/-- What is inside of an element of a fragment is in the fragment, in the same order. -/
theorem Fragment.elements_children_sublist {e : Element} : ∀ {f : List Node},
    e ∈ Fragment.elements f → (Fragment.elements e.children).Sublist (Fragment.elements f)
  | [], h => by simp [Fragment.elements] at h
  | n :: f, h => by
    rw [Fragment.elements, List.mem_append] at h
    rw [Fragment.elements]
    rcases h with h | h
    · exact (Node.elements_children_sublist h).trans (List.sublist_append_left _ _)
    · exact (Fragment.elements_children_sublist h).trans (List.sublist_append_right _ _)

end

/-- A child element of an element is an element in it. -/
theorem Fragment.mem_elements_of_mem {e : Element} {f : List Node} (h : e.toNode ∈ f) :
    e ∈ Fragment.elements f := by
  obtain ⟨before, after, rfl⟩ := List.append_of_mem h
  induction before with
  | nil =>
    rw [List.nil_append, Fragment.elements, Element.toNode, Node.elements]
    exact List.mem_cons_self
  | cons n before ih =>
    rw [List.cons_append, Fragment.elements]
    exact List.mem_append_right _ (ih (by simp))

end Markup

/-! ### Issues -/

/-- Nothing is said twice exactly if there is nothing to say the second time. -/
private theorem flatMap_append_eq_flatMap_iff {α β : Type} {l : List α} {g h : α → List β} :
    (l.flatMap fun a => g a ++ h a) = l.flatMap g ↔ ∀ a ∈ l, h a = [] := by
  induction l with
  | nil => simp
  | cons a l ih =>
    rw [List.flatMap_cons, List.flatMap_cons, List.append_assoc, List.append_right_inj,
      List.forall_mem_cons, ← ih]
    constructor
    · intro heq
      -- The rest is no shorter than without the additions, so nothing stands in front of it.
      have hsub : (l.flatMap g).Sublist (l.flatMap fun a => g a ++ h a) :=
        List.Sublist.flatMap_right l fun a _ => List.sublist_append_left (g a) (h a)
      have hle := hsub.length_le
      have hlength := congrArg List.length heq
      rw [List.length_append] at hlength
      have hnil : h a = [] := List.eq_nil_of_length_eq_zero (by omega)
      rw [hnil, List.nil_append] at heq
      exact ⟨hnil, heq⟩
    · rintro ⟨hnil, heq⟩
      rw [hnil, List.nil_append, heq]

variable {name : String} {options : HostOptions} {host inner : Element} {c d : Controller}

/-- A blueprint is a part of its host. -/
theorem elements_blueprint_sublist (h : mount host options = .ok c) :
    (Fragment.elements c.blueprint.fragment).Sublist (Fragment.elements host.children) := by
  obtain ⟨template, htemplate, rfl⟩ := exists_template_of_mount h
  exact Fragment.elements_children_sublist (Fragment.mem_elements_of_mem (of_child? htemplate).1)

/-- Every issue of a host inside of a fragment is an issue of the fragment. -/
theorem lint_blueprint_sublist {f : Fragment} (hinner : inner ∈ Fragment.elements f)
    (h : mount inner options = .ok d) : d.blueprint.lint.Sublist (lint f) := by
  have hsub := (elements_blueprint_sublist h).trans (Fragment.elements_children_sublist hinner)
  exact hsub.flatMap _

/-- The issues of a page by its topmost elements, which are the hosts that are rendered. -/
theorem checkPage_eq_map_topmost (source name : String) (options : HostOptions) :
    checkPage source name options = (Markup.parse source).map fun page =>
      (Fragment.topmost name page).flatMap fun host => hostIssues options host ++
        (Fragment.named name host.children).flatMap (hostIssues options) := by
  have hissues : ∀ page, (Fragment.named name page).flatMap (hostIssues options) =
      (Fragment.topmost name page).flatMap fun host => hostIssues options host ++
        (Fragment.named name host.children).flatMap (hostIssues options) := by
    intro page
    rw [Fragment.named_eq_flatMap_topmost, List.flatMap_assoc]
    rfl
  rw [checkPage, funext hissues]

/-- A check says of a page what is wrong with the topmost elements of the name, which are rendered,
and after each one what is wrong with those inside of it, as if they were on their own. So it says
what is wrong with the topmost ones only if and only if nothing is wrong with the others. What is
wrong with the blueprint of a host in a blueprint is said at least twice: it is wrong with both. -/
theorem checkPage_eq_topmost_iff {source : String} {page : Fragment}
    (h : Markup.parse source = .ok page) (name : String) (options : HostOptions) :
    checkPage source name options = .ok ((Fragment.topmost name page).flatMap fun host =>
        hostIssues options host ++
          (Fragment.named name host.children).flatMap (hostIssues options)) ∧
      (checkPage source name options =
          .ok ((Fragment.topmost name page).flatMap (hostIssues options)) ↔
        ∀ host ∈ Fragment.topmost name page, ∀ inner ∈ Fragment.named name host.children,
          hostIssues options inner = []) ∧
      ∀ host ∈ Fragment.topmost name page, ∀ c, mount host options = .ok c →
        ∀ inner ∈ Fragment.named name c.blueprint.fragment, ∀ d, mount inner options = .ok d →
          inner ∈ Fragment.named name host.children ∧
            d.blueprint.lint.Sublist c.blueprint.lint := by
  have hcheck : checkPage source name options =
      .ok ((Fragment.topmost name page).flatMap fun host => hostIssues options host ++
        (Fragment.named name host.children).flatMap (hostIssues options)) := by
    rw [checkPage_eq_map_topmost, h]
    rfl
  refine ⟨hcheck, ?_, ?_⟩
  · rw [hcheck, Except.ok.injEq, flatMap_append_eq_flatMap_iff]
    simp only [List.flatMap_eq_nil_iff]
  · intro host _ c hc inner hinner d hd
    refine ⟨((elements_blueprint_sublist hc).filter _).subset hinner, ?_⟩
    exact lint_blueprint_sublist (List.mem_filter.mp hinner).1 hd

/-- A host in the blueprint of another one, and only the outer one has an issue. -/
theorem checkPage_nested_sound :
    let source := "<t><template><b field></b><t><template></template></t></template></t>"
    ∃ page, Markup.parse source = .ok page ∧
      checkPage source "t" {} = .ok ((Fragment.topmost "t" page).flatMap (hostIssues {})) := by
  intro source
  have hinner : (Markup.parse source).map (fun page => decide (∀ host ∈ Fragment.topmost "t" page,
      ∀ inner ∈ Fragment.named "t" host.children, hostIssues {} inner = [])) = .ok true := by
    decide +kernel
  cases hparse : Markup.parse source with
  | error e =>
    rw [hparse] at hinner
    cases hinner
  | ok page =>
    rw [hparse] at hinner
    have hnone := of_decide_eq_true (Except.ok.inj hinner)
    exact ⟨page, rfl, (checkPage_eq_topmost_iff hparse "t" {}).2.1.mpr hnone⟩

/-- The only host that is rendered has one issue, and a check reports two: the directive is in two
blueprints. -/
theorem checkPage_nested_reported_twice :
    let source := "<t><template><t><template><b field></b></template></t></template></t>"
    let issue := HostIssue.directive (.invalidPath .text "")
    (Markup.parse source).map (fun page => (Fragment.topmost "t" page).flatMap (hostIssues {})) =
        .ok [issue] ∧
      checkPage source "t" {} = .ok [issue, issue] := by
  decide +kernel

end BoundMarkup
