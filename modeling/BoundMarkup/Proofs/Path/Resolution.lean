import BoundMarkup.Path.Lookup
import BoundMarkup.Proofs.Path.Grammar
import Mathlib.Algebra.Group.Nat.Defs

/-!
# Paths behind paths

A path that stands behind another one and a point leads on from where the first one leads, and so
does a number in brackets. Nothing is asked of the two parts: neither a point nor an opening bracket
can stand inside an identifier or a number, so wherever one of them stands in a path, a step begins,
and what is on either side is a path by itself. Parts that are refused therefore never add up to a
path, and what a number out of bounds does to a part it does to the whole.

## Main definitions

* `Path.BeginsStep`: the two characters with which a step begins behind another one;
* `Json.Value.at?`: what stands at an index in a value.

## Main results

* `Path.derives_append_iff`: a path is cut in front of such a character into two derivations;
* `Path.follow_append`: following steps goes on where it stopped;
* `resolve_eq_some_iff`: what a text leads to, said with its derivation;
* `resolve_append`: what a path leads to that is put together from two parts.
-/

namespace BoundMarkup

open Json

/-- What stands at an index in a value: the item of an array, or the member of an object that has
the number, without zeros in front, for its name. -/
def Json.Value.at? (n : Nat) : Value → Option Value
  | .array items => items[n]?
  | .object members => (Value.object members).member? (toString n)
  | _ => none

namespace Path

variable {c : Char} {p q name digits : List Char} {steps : List Segment}

/-! ### Cutting derivations -/

/-- A point or an opening bracket. -/
def BeginsStep (c : Char) : Prop := c = '.' ∨ c = '['

theorem BeginsStep.isKeyChar_eq_false (hc : BeginsStep c) : isKeyChar c = false := by
  rcases hc with rfl | rfl
  · decide
  · decide

theorem IsIdentifier.not_mem (hname : IsIdentifier name) (hc : BeginsStep c) : c ∉ name := by
  intro hmem
  exact Bool.noConfusion (hc.isKeyChar_eq_false.symm.trans (hname.isKeyChar hmem))

theorem IsNumeral.not_mem (hdigits : IsNumeral digits) (hc : BeginsStep c) : c ∉ digits := by
  intro hmem
  have hkey : isKeyChar c = true := isKeyChar_iff.mpr (.inr (hdigits.isDecimal c hmem))
  exact Bool.noConfusion (hc.isKeyChar_eq_false.symm.trans hkey)

/-- A character that is not in the first part of a text stands behind that part. -/
private theorem exists_of_append_eq {a b : List Char} (hc : c ∉ a) (h : a ++ b = p ++ c :: q) :
    ∃ r, p = a ++ r ∧ b = r ++ c :: q := by
  rcases List.append_eq_append_iff.mp h with ⟨r, hp, hb⟩ | ⟨r, ha, hq⟩
  · exact ⟨r, hp, hb⟩
  · cases r with
    | nil =>
      rw [List.append_nil] at ha
      exact ⟨[], by rw [ha, List.append_nil], hq.symm⟩
    | cons d r =>
      obtain ⟨rfl, -⟩ := List.cons.inj hq
      exact absurd (ha ▸ List.mem_append_right p List.mem_cons_self) hc

theorem Continues.append {s t : List Char} {a b : List Segment} (hs : Continues s a)
    (ht : Continues t b) : Continues (s ++ t) (a ++ b) := by
  induction hs with
  | nil => exact ht
  | key hname hrest ih =>
    rw [List.cons_append, List.append_assoc]
    exact .key hname ih
  | index hdigits hrest ih =>
    rw [List.cons_append, List.append_assoc]
    exact .index hdigits ih

/-- What continues a path is cut where a step begins. -/
theorem Continues.exists_of_append (hc : BeginsStep c) (h : Continues (p ++ c :: q) steps) :
    ∃ a b, steps = a ++ b ∧ Continues p a ∧ Continues (c :: q) b := by
  generalize hs : p ++ c :: q = s at h
  induction h generalizing p with
  | nil => exact absurd hs (List.append_ne_nil_of_right_ne_nil p (List.cons_ne_nil c q))
  | @key name rest steps hname hrest ih =>
    cases p with
    | nil =>
      rw [List.nil_append] at hs
      exact ⟨[], _, rfl, .nil, hs ▸ .key hname hrest⟩
    | cons d p =>
      obtain ⟨rfl, htail⟩ := List.cons.inj hs
      obtain ⟨r, rfl, hrest'⟩ := exists_of_append_eq (hname.not_mem hc) htail.symm
      obtain ⟨a, b, rfl, ha, hb⟩ := ih hrest'.symm
      exact ⟨_ :: a, b, rfl, .key hname ha, hb⟩
  | @index digits rest steps hdigits hrest ih =>
    cases p with
    | nil =>
      rw [List.nil_append] at hs
      exact ⟨[], _, rfl, .nil, hs ▸ .index hdigits hrest⟩
    | cons d p =>
      obtain ⟨rfl, htail⟩ := List.cons.inj hs
      -- The closing bracket belongs to the step as well.
      have hclosed : c ∉ digits ++ [']'] := by
        rw [List.mem_append, not_or]
        refine ⟨hdigits.not_mem hc, ?_⟩
        rcases hc with rfl | rfl
        · decide
        · decide
      rw [List.append_cons digits] at htail
      obtain ⟨r, rfl, hrest'⟩ := exists_of_append_eq hclosed htail.symm
      obtain ⟨a, b, rfl, ha, hb⟩ := ih hrest'.symm
      refine ⟨_ :: a, b, rfl, ?_, hb⟩
      rw [← List.append_cons]
      exact .index hdigits ha

/-- A path is cut where a step begins into a path and what continues it. -/
theorem derives_append_iff (hc : BeginsStep c) : Derives (p ++ c :: q) steps ↔
    ∃ a b, steps = a ++ b ∧ Derives p a ∧ Continues (c :: q) b := by
  constructor
  · intro h
    generalize hs : p ++ c :: q = s at h
    obtain ⟨hname, hrest⟩ := h
    -- The first step ends in front of the character.
    obtain ⟨r, rfl, hr⟩ := exists_of_append_eq (hname.not_mem hc) hs.symm
    rw [hr] at hrest
    obtain ⟨a, b, rfl, ha, hb⟩ := hrest.exists_of_append hc
    exact ⟨_ :: a, b, rfl, .key hname ha, hb⟩
  · rintro ⟨a, b, rfl, ⟨hname, ha⟩, hb⟩
    rw [List.append_assoc]
    exact .key hname (ha.append hb)

/-- What stands behind a point is a path by itself. -/
theorem continues_point_iff : Continues ('.' :: q) steps ↔ Derives q steps := by
  constructor
  · intro h
    cases h with
    | key hname hrest => exact .key hname hrest
  · rintro ⟨hname, hrest⟩
    exact .key hname hrest

/-- A number in brackets is a single step. -/
theorem continues_brackets_iff (hdigits : IsNumeral digits) :
    Continues ('[' :: (digits ++ [']'])) steps ↔
      steps = [.index (Nat.ofDigitChars 10 digits 0)] := by
  have hindex := Continues.index hdigits .nil
  constructor
  · intro h
    exact (stepsIn_of_continues h).symm.trans (stepsIn_of_continues hindex)
  · rintro rfl
    exact hindex

/-! ### Following steps -/

theorem isBounded_append {a b : List Segment} :
    IsBounded (a ++ b) ↔ IsBounded a ∧ IsBounded b := by
  simp only [IsBounded, List.mem_append, or_imp, forall_and]

theorem isBounded_index {n : Nat} : IsBounded [.index n] ↔ n < 2 ^ 64 := by
  simp [IsBounded]

/-- Following steps goes on where following those in front of them has led. -/
theorem follow_append (a b : List Segment) (v : Value) :
    follow (a ++ b) v = (follow a v).bind (follow b) := by
  induction a generalizing v with
  | nil => rfl
  | cons segment a ih =>
    rw [List.cons_append, follow, follow]
    split
    · rfl
    · rfl
    · exact ih _

/-- A single index leads to what stands there, unless that is null. -/
theorem follow_index (n : Nat) (v : Value) :
    follow [.index n] v = (v.at? n).filter (!·.isNull) := by
  have hfrom : (Segment.index n).from? v = v.at? n := by
    cases v <;> rfl
  rw [follow, hfrom]
  rcases v.at? n with _ | _ | _ <;> rfl

end Path

/-! ### Resolution -/

variable {v w : Value} {source : String}

/-- A text leads somewhere if it has a derivation with bounded numbers and its steps lead there. -/
theorem resolve_eq_some_iff : resolve v source = some w ↔
    ∃ steps, Path.Derives source.toList steps ∧ Path.IsBounded steps ∧
      Path.follow steps v = some w := by
  constructor
  · intro h
    rw [resolve, tryResolve] at h
    cases hparse : Path.parse source with
    | error e =>
      rw [hparse] at h
      cases h
    | ok path =>
      obtain ⟨-, hderives, hbounded⟩ := Path.parse_eq_ok_iff.mp hparse
      rw [hparse] at h
      exact ⟨path.segments, hderives, hbounded, h⟩
  · rintro ⟨steps, hderives, hbounded, hfollow⟩
    have hparse : Path.parse source = .ok { source, segments := steps } :=
      Path.parse_eq_ok_iff.mpr ⟨rfl, hderives, hbounded⟩
    rw [resolve, tryResolve, hparse]
    exact hfollow

/-- A text that is cut where a step begins leads to what the steps behind the cut lead to, from where
the text in front of it leads. -/
theorem resolve_eq_some_iff_of_append {p : String} {q : List Char} {c : Char}
    (hc : Path.BeginsStep c) (hsource : source.toList = p.toList ++ c :: q) :
    resolve v source = some w ↔ ∃ u, resolve v p = some u ∧
      ∃ steps, Path.Continues (c :: q) steps ∧ Path.IsBounded steps ∧
        Path.follow steps u = some w := by
  rw [resolve_eq_some_iff, hsource]
  constructor
  · rintro ⟨steps, hderives, hbounded, hfollow⟩
    obtain ⟨a, b, rfl, ha, hb⟩ := (Path.derives_append_iff hc).mp hderives
    obtain ⟨habounded, hbbounded⟩ := Path.isBounded_append.mp hbounded
    rw [Path.follow_append, Option.bind_eq_some_iff] at hfollow
    obtain ⟨u, hu, hw⟩ := hfollow
    exact ⟨u, resolve_eq_some_iff.mpr ⟨a, ha, habounded, hu⟩, b, hb, hbbounded, hw⟩
  · rintro ⟨u, hu, b, hb, hbbounded, hw⟩
    obtain ⟨a, ha, habounded, hu⟩ := resolve_eq_some_iff.mp hu
    refine ⟨a ++ b, (Path.derives_append_iff hc).mpr ⟨a, b, rfl, ha, hb⟩,
      Path.isBounded_append.mpr ⟨habounded, hbbounded⟩, ?_⟩
    rw [Path.follow_append, hu]
    exact hw

/-- A path behind a point leads on from where the path in front of it leads, and a number in
brackets leads on to what stands there, if the number fits into 64 bits and that is not null. Where
either part leads nowhere or is no path at all, neither does the whole. -/
theorem resolve_append :
    (∀ v p q, resolve v (p ++ "." ++ q) = (resolve v p).bind fun w => resolve w q) ∧
    ∀ v p d, Path.IsNumeral d.toList →
      resolve v (p ++ "[" ++ d ++ "]") = (resolve v p).bind fun w =>
        if Nat.ofDigitChars 10 d.toList 0 < 2 ^ 64 then
          (w.at? (Nat.ofDigitChars 10 d.toList 0)).filter (!·.isNull)
        else none := by
  constructor
  · intro v p q
    have htext : (p ++ "." ++ q).toList = p.toList ++ '.' :: q.toList := by simp
    ext w
    rw [Option.bind_eq_some_iff, resolve_eq_some_iff_of_append (.inl rfl) htext]
    refine exists_congr fun u => and_congr_right fun _ => ?_
    simp only [resolve_eq_some_iff, Path.continues_point_iff]
  · intro v p d hd
    have htext : (p ++ "[" ++ d ++ "]").toList = p.toList ++ '[' :: (d.toList ++ [']']) := by simp
    ext w
    rw [Option.bind_eq_some_iff, resolve_eq_some_iff_of_append (.inr rfl) htext]
    simp only [Path.continues_brackets_iff hd, exists_eq_left, Path.isBounded_index,
      Path.follow_index, Option.ite_none_right_eq_some]

/-- The zeros in front of a number are not part of the name that it stands for. -/
theorem resolve_append_zeros :
    Path.IsNumeral "007".toList ∧
      resolve (.object [("slots", .object [("7", .string "seven")])]) "slots[007]" =
        some (.string "seven") := by
  have hnumeral : Path.IsNumeral "007".toList :=
    ⟨by decide, by simp [Path.IsDecimal]⟩
  have hslots : resolve (.object [("slots", .object [("7", .string "seven")])]) "slots" =
      some (.object [("7", .string "seven")]) := by
    with_unfolding_all rfl
  refine ⟨hnumeral, (resolve_append.2 _ "slots" "007" hnumeral).trans ?_⟩
  rw [hslots]
  rfl

end BoundMarkup
