/-!
# Finding and cutting

Cutting a text at the first place where a given piece stands. The results are the parts before
and after, so nothing has to be said about positions.
-/

namespace BoundMarkup.Text

/-- What follows `mark`, if the text begins with it. -/
def past? : (mark s : List Char) → Option (List Char)
  | [], s => some s
  | _ :: _, [] => none
  | m :: mark, c :: s => if m = c then past? mark s else none

/-- The parts before and after the first occurrence of `mark`, or `none` if it does not occur. -/
def cutAt (mark : List Char) : List Char → Option (List Char × List Char)
  | [] => if mark.isEmpty then some ([], []) else none
  | c :: s =>
    match past? mark (c :: s) with
    | some after => some ([], after)
    | none => (cutAt mark s).map fun (before, after) => (c :: before, after)

/-- The pieces between the occurrences of `separator`: always one more than there are
separators. -/
def pieces (separator : Char) : List Char → List (List Char)
  | [] => [[]]
  | c :: s =>
    if c = separator then [] :: pieces separator s
    else
      match pieces separator s with
      | [] => [[c]]
      | piece :: rest => (c :: piece) :: rest

theorem past?_eq_some_iff {mark s t : List Char} : past? mark s = some t ↔ s = mark ++ t := by
  induction mark generalizing s with
  | nil => simp [past?]
  | cons m mark ih =>
    cases s with
    | nil => simp [past?]
    | cons c s =>
      by_cases h : m = c
      · subst h
        simp [past?, ih]
      · simp [past?, h, Ne.symm h]

/-- A cut takes out one occurrence of the mark and loses nothing else. -/
theorem append_of_cutAt {mark s before after : List Char}
    (h : cutAt mark s = some (before, after)) : s = before ++ mark ++ after := by
  induction s generalizing before with
  | nil =>
    simp only [cutAt] at h
    split at h
    · cases h
      simp_all
    · cases h
  | cons c s ih =>
    simp only [cutAt] at h
    split at h
    · next t ht =>
      cases h
      simpa using past?_eq_some_iff.mp ht
    · obtain ⟨⟨b, a⟩, hb, he⟩ := Option.map_eq_some_iff.mp h
      cases he
      simp [ih hb]

end BoundMarkup.Text
