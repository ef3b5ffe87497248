import BoundMarkup.Text.Class
import BoundMarkup.Text.Search
import Mathlib.Data.List.DropRight

/-!
# Folding, trimming and cutting

`lower` moves the 26 letters from `A` to `Z` and fixes every other character, so it is idempotent
and whatever treats the two cases of these letters alike cannot see it. `cutAt` stops at the first
place where its mark stands, so what has no mark in it is passed over as it is.

## Main results

* `toLower_cases`: a character is fixed, or it is one of the 26 letters and moves up by 32;
* `lower_lower`: folding twice is folding once;
* `lower_take_append_ne`: what reaches a character is no mark that does not have it;
* `trim_trim`: trimming twice is trimming once;
* `trim_append`: what is left of a text between blanks;
* `not_infix_of_cutAt`: what stands in front of a cut does not have the mark in it;
* `cutAt_singleton`: a text without a character is cut at that character behind it.
-/

namespace BoundMarkup.Text

/-! ### Folding -/

/-- Folding fixes a character, or the character is a capital of ASCII and moves up by 32. -/
theorem toLower_cases (c : Char) :
    ((c.toNat < 0x41 ∨ 0x5A < c.toNat) ∧ c.toLower = c) ∨
      (0x41 ≤ c.toNat ∧ c.toNat ≤ 0x5A ∧ c.toLower.toNat = c.toNat + 0x20) := by
  delta Char.toLower
  split
  · next h =>
    have ha := UInt32.le_iff_toNat_le.mp h.1
    have hz := UInt32.le_iff_toNat_le.mp h.2
    refine .inr ⟨ha, hz, ?_⟩
    simp only [Char.toNat, UInt32.toNat_add, seval] at hz ⊢
    omega
  · next h =>
    rw [UInt32.le_iff_toNat_le, ge_iff_le, UInt32.le_iff_toNat_le] at h
    refine .inl ⟨?_, rfl⟩
    simp only [Char.toNat, seval] at h ⊢
    omega

/-- A character outside the capitals of ASCII is fixed. -/
theorem toLower_eq_self {c : Char} (h : c.toNat < 0x41 ∨ 0x5A < c.toNat) : c.toLower = c := by
  rcases toLower_cases c with ⟨-, hc⟩ | hc
  · exact hc
  · omega

/-- Only a character itself folds to it, if it stands below the letters. -/
theorem eq_of_toLower_eq {c d : Char} (hd : d.toNat < 0x41) (h : c.toLower = d) : c = d := by
  rcases toLower_cases c with ⟨-, hc⟩ | ⟨ha, hz, hl⟩
  · exact hc.symm.trans h
  · rw [h] at hl
    omega

/-- Folding leaves no capital. -/
theorem isUpper_toLower (c : Char) : c.toLower.isUpper = false := by
  have hupper : c.toLower.isUpper = true ↔ 0x41 ≤ c.toLower.toNat ∧ c.toLower.toNat ≤ 0x5A := by
    delta Char.isUpper
    simp [UInt32.le_iff_toNat_le]
  rw [Bool.eq_false_iff, ne_eq, hupper]
  rcases toLower_cases c with ⟨hc, hl⟩ | ⟨ha, hz, hl⟩
  · rw [hl]
    omega
  · omega

theorem toLower_toLower (c : Char) : c.toLower.toLower = c.toLower := by
  rcases toLower_cases c with ⟨-, hc⟩ | ⟨ha, hz, hl⟩
  · rw [hc, hc]
  · exact toLower_eq_self (by omega)

@[simp]
theorem lower_nil : lower [] = [] := rfl

@[simp]
theorem lower_cons (c : Char) (s : List Char) : lower (c :: s) = c.toLower :: lower s := rfl

@[simp]
theorem length_lower (s : List Char) : (lower s).length = s.length := List.length_map _

@[simp]
theorem lower_take (n : Nat) (s : List Char) : lower (s.take n) = (lower s).take n := List.map_take

/-- A text is fixed if every character of it is. -/
theorem lower_eq_self {s : List Char} (h : ∀ c ∈ s, c.toLower = c) : lower s = s := by
  rw [lower, List.map_congr_left h, List.map_id']

@[simp]
theorem lower_lower (s : List Char) : lower (lower s) = lower s := by
  refine lower_eq_self fun c hc => ?_
  obtain ⟨d, -, rfl⟩ := List.mem_map.mp hc
  exact toLower_toLower d

/-- Folding a text neither adds nor takes away a character below the letters. -/
theorem mem_lower_iff {s : List Char} {c : Char} (hc : c.toNat < 0x41) : c ∈ lower s ↔ c ∈ s := by
  constructor
  · intro hmem
    obtain ⟨d, hd, hfold⟩ := List.mem_map.mp hmem
    exact eq_of_toLower_eq hc hfold ▸ hd
  · intro hmem
    rw [← toLower_eq_self (c := c) (.inl hc)]
    exact List.mem_map_of_mem hmem

/-- A text that would reach a character is no mark, in any case of letters, if the mark does not
have this character. -/
theorem lower_take_append_ne {mark s : List Char} {c : Char} (hmark : c ∉ mark)
    (hc : c.toNat < 0x41) (hs : s.length < mark.length) (rest : List Char) :
    lower ((s ++ c :: rest).take mark.length) ≠ lower mark := by
  intro heq
  obtain ⟨n, hn⟩ := Nat.exists_eq_add_of_lt hs
  have hlength : mark.length - s.length = n + 1 := by omega
  -- The character is among those that are compared with the mark, and folding fixes it.
  have hmem : c ∈ lower mark := by
    rw [← heq, mem_lower_iff hc, List.take_append, hlength, List.take_succ_cons]
    simp
  exact hmark ((mem_lower_iff hc).mp hmem)

/-! ### Trimming -/

/-- A text of one class in front of a text that does not begin in that class. -/
theorem span_append {p : Char → Bool} {s t : List Char} (hs : ∀ c ∈ s, p c = true)
    (ht : ∀ c ∈ t.head?, p c = false) :
    (s ++ t).takeWhile p = s ∧ (s ++ t).dropWhile p = t := by
  rw [List.takeWhile_append_of_pos hs, List.dropWhile_append_of_pos hs]
  cases t with
  | nil => simp
  | cons c t =>
    have hc : p c = false := ht c rfl
    simp [hc]

theorem trim_eq_rdropWhile (s : List Char) :
    trim s = (s.dropWhile isBlank).rdropWhile isBlank := rfl

/-- The visible characters of ASCII are no blanks. -/
theorem isBlank_eq_false {c : Char} (h : 0x20 < c.toNat) (h' : c.toNat < 0x7F) :
    isBlank c = false := by
  simp only [isBlank, inRanges, blankRanges, List.any_cons, List.any_nil]
  simp
  omega

/-- A trimmed text begins with no blank. -/
theorem isBlank_eq_false_of_trim {s t : List Char} {c : Char} (h : trim s = c :: t) :
    isBlank c = false := by
  -- It begins as the text does behind the blanks in front.
  obtain ⟨u, hu⟩ := List.rdropWhile_prefix isBlank (l := s.dropWhile isBlank)
  rw [← trim_eq_rdropWhile, h, List.cons_append] at hu
  have hfirst := List.head?_dropWhile_not isBlank s
  rwa [← hu] at hfirst

/-- Trimming twice is trimming once. -/
@[simp]
theorem trim_trim (s : List Char) : trim (trim s) = trim s := by
  have hfront : (trim s).dropWhile isBlank = trim s := by
    cases hs : trim s with
    | nil => rfl
    | cons c t =>
      exact List.dropWhile_cons_of_neg (by simp [isBlank_eq_false_of_trim hs])
  rw [trim_eq_rdropWhile (trim s), hfront, trim_eq_rdropWhile, List.rdropWhile_idempotent]

/-- What is trimmed off a text is blanks at its two ends. -/
theorem exists_append_trim (s : List Char) :
    ∃ before behind, s = before ++ trim s ++ behind ∧ (∀ c ∈ before, isBlank c = true) ∧
      ∀ c ∈ behind, isBlank c = true := by
  refine ⟨s.takeWhile isBlank, ((s.dropWhile isBlank).reverse.takeWhile isBlank).reverse, ?_,
    List.all_eq_true.mp List.all_takeWhile, fun c hc => ?_⟩
  · have hbehind := congrArg List.reverse
      (List.takeWhile_append_dropWhile (p := isBlank) (l := (s.dropWhile isBlank).reverse))
    rw [List.reverse_append, List.reverse_reverse] at hbehind
    rw [trim, List.append_assoc, hbehind, List.takeWhile_append_dropWhile]
  · exact List.all_eq_true.mp List.all_takeWhile c (List.mem_reverse.mp hc)

/-- A character that is no blank is not trimmed off. -/
theorem mem_trim {s : List Char} {c : Char} (hmem : c ∈ s) (hc : isBlank c = false) :
    c ∈ trim s := by
  obtain ⟨before, behind, hs, hbefore, hbehind⟩ := exists_append_trim s
  rw [hs, List.mem_append, List.mem_append] at hmem
  rcases hmem with (hmem | hmem) | hmem
  · exact absurd (hbefore c hmem) (by simp [hc])
  · exact hmem
  · exact absurd (hbehind c hmem) (by simp [hc])

/-- A text that neither begins nor ends with a blank is what is left of it between blanks. -/
theorem trim_append {before s behind : List Char} (hbefore : ∀ c ∈ before, isBlank c = true)
    (hfirst : ∀ c ∈ s.head?, isBlank c = false) (hlast : ∀ c ∈ s.getLast?, isBlank c = false)
    (hbehind : ∀ c ∈ behind, isBlank c = true) : trim (before ++ s ++ behind) = s := by
  rw [List.append_assoc, trim]
  cases s with
  | nil =>
    rw [List.dropWhile_append_of_pos hbefore, List.nil_append,
      List.dropWhile_eq_nil_iff.mpr hbehind]
    rfl
  | cons c t =>
    rw [(span_append (t := c :: t ++ behind) hbefore hfirst).2, List.reverse_append]
    have hbehind' : ∀ d ∈ behind.reverse, isBlank d = true :=
      fun d hd => hbehind d (List.mem_reverse.mp hd)
    rw [← List.head?_reverse] at hlast
    rw [(span_append hbehind' hlast).2, List.reverse_reverse]

/-- A text without blanks is what is left of it between blanks. -/
theorem trim_padded {a s b : List Char} (ha : ∀ c ∈ a, isBlank c = true)
    (hs : ∀ c ∈ s, isBlank c = false) (hb : ∀ c ∈ b, isBlank c = true) :
    trim (a ++ s ++ b) = s :=
  trim_append ha (fun c hc => hs c (List.mem_of_head? hc))
    (fun c hc => hs c (List.mem_of_getLast? hc)) hb

/-- Nothing is left of blanks. -/
theorem trim_eq_nil {s : List Char} (h : ∀ c ∈ s, isBlank c = true) : trim s = [] := by
  have hpadded := trim_padded (s := []) h nofun (List.forall_mem_nil _)
  rwa [List.append_nil, List.append_nil] at hpadded

/-! ### Cutting -/

/-- A text begins with a mark if and only if something is past it. -/
theorem isSome_past?_iff {mark s : List Char} : (past? mark s).isSome = true ↔ mark <+: s := by
  rw [Option.isSome_iff_exists]
  exact exists_congr fun t => past?_eq_some_iff.trans eq_comm

/-- A character at which no mark begins is passed over. -/
theorem cutAt_cons {mark s : List Char} {c : Char} (h : past? mark (c :: s) = none) :
    cutAt mark (c :: s) = (cutAt mark s).map fun r => (c :: r.1, r.2) := by
  rw [cutAt, h]

/-- A text is cut at the first place where the mark stands, so there is no mark in front of it. -/
theorem not_infix_of_cutAt {mark s before after : List Char} (hmark : mark ≠ [])
    (h : cutAt mark s = some (before, after)) : ¬mark <:+: before := by
  induction s generalizing before with
  | nil =>
    have hempty : mark.isEmpty = false := List.isEmpty_eq_false_iff.mpr hmark
    rw [cutAt, hempty] at h
    exact absurd h (by simp)
  | cons c s ih =>
    intro hinfix
    cases hpast : past? mark (c :: s) with
    | none =>
      rw [cutAt_cons hpast] at h
      obtain ⟨⟨b, a⟩, hcut, heq⟩ := Option.map_eq_some_iff.mp h
      obtain ⟨rfl, rfl⟩ := Prod.mk.inj heq
      rcases List.infix_cons_iff.mp hinfix with ⟨rest, hrest⟩ | hinfix
      · -- A mark at the front would have been found there.
        have hfound : c :: s = mark ++ (rest ++ mark ++ a) := by
          rw [append_of_cutAt hcut, ← List.cons_append, ← List.cons_append, ← hrest]
          simp only [List.append_assoc]
        rw [past?_eq_some_iff.mpr hfound] at hpast
        exact absurd hpast (Option.some_ne_none _)
      · exact ih hcut hinfix
    | some rest =>
      rw [cutAt, hpast] at h
      obtain ⟨rfl, -⟩ := Prod.mk.inj (Option.some.inj h)
      exact hmark (List.infix_nil.mp hinfix)

/-- A text without a character is cut at that character behind it. -/
theorem cutAt_singleton {c : Char} {s : List Char} (h : c ∉ s) (rest : List Char) :
    cutAt [c] (s ++ c :: rest) = some (s, rest) := by
  induction s with
  | nil => simp [cutAt, past?]
  | cons d s ih =>
    obtain ⟨hd, hs⟩ := List.ne_and_not_mem_of_not_mem_cons h
    rw [List.cons_append, cutAt_cons (by simp [past?, hd]), ih hs, Option.map_some]

/-- Cutting a text into pieces is the splitting of lists. -/
theorem pieces_eq_splitOn (c : Char) (s : List Char) : pieces c s = s.splitOn c := by
  induction s with
  | nil => rfl
  | cons d s ih =>
    rw [pieces, List.splitOn_cons_eq_if_modifyHead, ih]
    simp only [beq_iff_eq]
    split
    · rfl
    · cases hs : s.splitOn c with
      | nil => exact absurd hs (List.splitOn_ne_nil c s)
      | cons piece rest => rfl

end BoundMarkup.Text
