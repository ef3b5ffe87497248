import BoundMarkup.Binding.Bind
import BoundMarkup.Proofs.Path.Grammar

/-!
# Writing attribute maps

An attribute map is written as names and paths, with a colon between the two and commas between the
pairs, and with blanks and empty segments wherever one likes. No comma and no blank can stand in a
name or in a path, so the pairs are found again; and no colon can stand in a path. But a colon can
stand in a name, and an entry is cut at the first colon in it. So a pair comes back as it was
written if and only if its name has no colon, and any other pair comes back as an issue.

## Main definitions

* `AttributeMap.Pair`: a name that may be bound, and a path;
* `AttributeMap.Part`: what is written between two commas, a pair with padding or padding alone;
* `AttributeMap.written`: the text of an attribute map.

## Main results

* `AttributeBinding.ofEntry_eq_ok_iff`: the entries that are accepted, and what they stand for;
* `AttributeMap.forall₂_attributeMap_written`: what is read of each pair;
* `AttributeMap.attributeMap_written_iff`: the pairs are read back if and only if no name has a
  colon.
-/

namespace BoundMarkup

open Markup Text

namespace AttributeBinding

variable {name entry : List Char} {b : AttributeBinding} {c : Char}

theorem isNameChar_cases (hc : isNameChar c = true) :
    (0x30 ≤ c.toNat ∧ c.toNat ≤ 0x39) ∨ (0x41 ≤ c.toNat ∧ c.toNat ≤ 0x5A) ∨
      (0x61 ≤ c.toNat ∧ c.toNat ≤ 0x7A) ∨ c = '_' ∨ c = ':' ∨ c = '.' ∨ c = '-' := by
  simp only [isNameChar, isNameStart, isLetter, isLowerAscii, isDigit, Bool.or_eq_true,
    Bool.and_eq_true, decide_eq_true_eq, beq_iff_eq, Char.le_def, UInt32.le_iff_toNat_le] at hc
  rcases hc with (((((h | h) | h) | h) | h) | h) | h
  · exact .inr (.inr (.inl h))
  · exact .inr (.inl h)
  · simp [h]
  · simp [h]
  · exact .inl h
  · simp [h]
  · simp [h]

/-- A name that may be bound is made of such characters, and there is one. -/
theorem isNameChar_of_validName (h : validName name = true) :
    name ≠ [] ∧ ∀ c ∈ name, isNameChar c = true := by
  cases name with
  | nil => cases h
  | cons c s =>
    obtain ⟨hc, hs⟩ := Bool.and_eq_true_iff.mp h
    have hfirst : isNameChar c = true := by simp [isNameChar, hc]
    exact ⟨List.cons_ne_nil c s, List.forall_mem_cons.mpr ⟨hfirst, List.all_eq_true.mp hs⟩⟩

/-- An entry is accepted if it is cut at a colon into the name of an attribute that may be bound and
a path. -/
theorem ofEntry_eq_ok_iff : ofEntry entry = .ok b ↔
    ∃ name path, cutAt [':'] entry = some (name, path) ∧ validName (trim name) = true ∧
      isEventHandler (String.ofList (trim name)) = false ∧
      Path.parse (String.ofList (trim path)) = .ok b.path ∧
      b.target = String.ofList (lower (trim name)) := by
  rw [ofEntry]
  constructor
  · intro h
    split at h
    · cases h
    · next name path hcut =>
      dsimp only at h
      split at h
      · cases h
      · next hvalid =>
        split at h
        · cases h
        · next hhandler =>
          split at h
          · cases h
          · next p hparse =>
            cases h
            exact ⟨name, path, hcut, by simpa using hvalid, Bool.eq_false_iff.mpr hhandler, hparse,
              rfl⟩
  · rintro ⟨name, path, hcut, hvalid, hhandler, hparse, htarget⟩
    simp only [hcut, hvalid, hhandler, hparse, ← htarget]
    rfl

end AttributeBinding

namespace AttributeMap

/-- Blanks that are written for the looks of it. -/
structure Padding where
  /-- The blanks. -/
  text : List Char
  /-- There is nothing else. -/
  isBlank : ∀ c ∈ text, isBlank c = true

/-- What a pair in an attribute map is made of: the name of an attribute that may be bound, and a
path. -/
structure Pair where
  /-- The name, in any case of letters. -/
  name : String
  /-- The path. -/
  path : Path
  /-- An attribute of the name may be bound. -/
  validName : AttributeBinding.validName name.toList = true
  /-- It handles no event. -/
  isEventHandler : isEventHandler name = false
  /-- The path is the one that its text is read as. -/
  parse_source : Path.parse path.source = .ok path

/-- The binding that a pair stands for. -/
def Pair.binding (e : Pair) : AttributeBinding where
  target := lowercase e.name
  path := e.path

/-- What is written in front of a comma, between two of them or behind the last one. -/
inductive Part where
  /-- An empty segment. -/
  | empty (blanks : Padding)
  /-- A pair, with blanks around the name and around the path. -/
  | pair (e : Pair) (beforeName afterName beforePath afterPath : Padding)

namespace Part

/-- The text of a part. -/
def text : Part → List Char
  | empty blanks => blanks.text
  | pair e beforeName afterName beforePath afterPath =>
    beforeName.text ++ e.name.toList ++ afterName.text ++
      ':' :: (beforePath.text ++ e.path.source.toList ++ afterPath.text)

/-- The pair of a part, if it is not empty. -/
def pair? : Part → Option Pair
  | empty _ => none
  | pair e _ _ _ _ => some e

end Part

/-- The text of an attribute map with these parts. -/
def written (parts : List Part) : String := String.ofList ([','].intercalate (parts.map Part.text))

/-- The pairs of an attribute map with these parts. -/
def pairs (parts : List Part) : List Pair := parts.filterMap Part.pair?

/-! ### Characters -/

/-- No blank and no comma can stand in a name that may be bound. -/
theorem of_isNameChar {c : Char} (hc : AttributeBinding.isNameChar c = true) :
    isBlank c = false ∧ c ≠ ',' := by
  rcases AttributeBinding.isNameChar_cases hc with h | h | h | rfl | rfl | rfl | rfl
  iterate 3
    refine ⟨isBlank_eq_false (by omega) (by omega), ?_⟩
    rintro rfl
    exact absurd h (by decide)
  all_goals decide

/-- No blank, no comma and no colon can stand in a path. -/
theorem of_isPathChar {c : Char} (hc : Path.IsPathChar c) :
    isBlank c = false ∧ c ≠ ',' ∧ c ≠ ':' := by
  have hother : ∀ d : Char, Path.isKeyChar d = false → Path.isKeyChar c = true → c ≠ d := by
    rintro d hd hkey rfl
    exact Bool.noConfusion (hd.symm.trans hkey)
  rcases hc with hkey | rfl | rfl | rfl
  · have hrange : ∀ a b : Char, a ≤ c ∧ c ≤ b → 0x20 < a.toNat → b.toNat < 0x7F →
        isBlank c = false := by
      intro a b h ha hb
      simp only [Char.le_def, UInt32.le_iff_toNat_le] at h
      exact isBlank_eq_false (Nat.lt_of_lt_of_le ha h.1) (Nat.lt_of_le_of_lt h.2 hb)
    refine ⟨?_, hother ',' (by decide) hkey, hother ':' (by decide) hkey⟩
    rcases Path.isKeyChar_iff.mp hkey with (h | h | rfl | rfl) | h
    · exact hrange 'A' 'Z' h (by decide) (by decide)
    · exact hrange 'a' 'z' h (by decide) (by decide)
    · decide
    · decide
    · exact hrange '0' '9' h (by decide) (by decide)
  all_goals decide

namespace Pair

variable (e : Pair)

theorem name_ne_nil : e.name.toList ≠ [] :=
  (AttributeBinding.isNameChar_of_validName e.validName).1

theorem of_mem_name {c : Char} (hc : c ∈ e.name.toList) : isBlank c = false ∧ c ≠ ',' :=
  of_isNameChar ((AttributeBinding.isNameChar_of_validName e.validName).2 c hc)

theorem derives : Path.Derives e.path.source.toList e.path.segments :=
  (Path.parse_eq_ok_iff.mp e.parse_source).2.1

theorem of_mem_path {c : Char} (hc : c ∈ e.path.source.toList) :
    isBlank c = false ∧ c ≠ ',' ∧ c ≠ ':' :=
  of_isPathChar (e.derives.isPathChar hc)

/-- The text of a pair from the name up to the path. -/
def entry (afterName beforePath : Padding) : List Char :=
  e.name.toList ++ afterName.text ++ ':' :: beforePath.text ++ e.path.source.toList

/-- An entry whose name has no colon stands for the pair that was written. -/
theorem ofEntry_entry {a b : Padding} (h : ':' ∉ e.name.toList) :
    AttributeBinding.ofEntry (e.entry a b) = .ok e.binding := by
  have hfront : ':' ∉ e.name.toList ++ a.text := by
    rw [List.mem_append, not_or]
    refine ⟨h, fun hmem => ?_⟩
    exact absurd (a.isBlank ':' hmem) (by decide)
  have hcut : cutAt [':'] (e.entry a b) =
      some (e.name.toList ++ a.text, b.text ++ e.path.source.toList) := by
    rw [entry, List.append_assoc]
    exact cutAt_singleton hfront _
  have hname : trim (e.name.toList ++ a.text) = e.name.toList :=
    trim_padded (a := []) nofun (fun c hc => (e.of_mem_name hc).1) a.isBlank
  have hpath : trim (b.text ++ e.path.source.toList) = e.path.source.toList := by
    rw [← List.append_nil (b.text ++ _)]
    exact trim_padded b.isBlank (fun c hc => (e.of_mem_path hc).1) nofun
  refine AttributeBinding.ofEntry_eq_ok_iff.mpr ⟨_, _, hcut, ?_⟩
  rw [hname, hpath, String.ofList_toList, String.ofList_toList]
  exact ⟨e.validName, e.isEventHandler, e.parse_source, rfl⟩

/-- An entry whose name has a colon is cut inside the name, and what stands behind the cut is no
path, for there is another colon in it. -/
theorem ofEntry_entry_of_mem {a b : Padding} (h : ':' ∈ e.name.toList) :
    ∃ issue, AttributeBinding.ofEntry (e.entry a b) = .error issue := by
  cases hentry : AttributeBinding.ofEntry (e.entry a b) with
  | error issue => exact ⟨issue, rfl⟩
  | ok binding =>
    exfalso
    -- The cut is at the first colon of the name, so the one behind the name is still to come.
    obtain ⟨front, rest, hname, hfront⟩ := List.eq_append_cons_of_mem h
    obtain ⟨name, path, hcut, -, -, hparse, -⟩ := AttributeBinding.ofEntry_eq_ok_iff.mp hentry
    rw [entry, hname, List.append_assoc, List.append_assoc, List.append_assoc, List.cons_append,
      cutAt_singleton hfront] at hcut
    obtain ⟨rfl, rfl⟩ := Prod.mk.inj (Option.some.inj hcut)
    have hderives := (Path.parse_eq_ok_iff.mp hparse).2.1
    rw [String.toList_ofList] at hderives
    have hcolon : ':' ∈ trim (rest ++ (a.text ++ (':' :: b.text ++ e.path.source.toList))) :=
      mem_trim (by simp) (by decide)
    exact (of_isPathChar (hderives.isPathChar hcolon)).2.2 rfl

end Pair

/-! ### Reading -/

theorem trim_pair (e : Pair) (beforeName afterName beforePath afterPath : Padding) :
    trim (Part.pair e beforeName afterName beforePath afterPath).text =
      e.entry afterName beforePath := by
  have htext : (Part.pair e beforeName afterName beforePath afterPath).text =
      beforeName.text ++ e.entry afterName beforePath ++ afterPath.text := by
    simp [Part.text, Pair.entry]
  rw [htext]
  -- The entry begins with the name and ends with the path, and there are no blanks in these.
  refine trim_append beforeName.isBlank (fun c hc => ?_) (fun c hc => ?_) afterPath.isBlank
  · rw [Pair.entry, List.append_assoc, List.append_assoc,
      List.head?_append_of_ne_nil _ e.name_ne_nil] at hc
    exact (e.of_mem_name (List.mem_of_head? hc)).1
  · rw [Pair.entry, List.getLast?_append_of_ne_nil _ e.derives.ne_nil] at hc
    exact (e.of_mem_path (List.mem_of_getLast? hc)).1

/-- No comma stands in a part. -/
theorem Part.not_mem_text (part : Part) : ',' ∉ part.text := by
  have hpadding : ∀ p : Padding, ',' ∉ p.text := by
    intro p hmem
    exact absurd (p.isBlank ',' hmem) (by decide)
  cases part with
  | empty blanks => exact hpadding blanks
  | pair e a b c d =>
    have hname : ',' ∉ e.name.toList := fun hmem => (e.of_mem_name hmem).2 rfl
    have hpath : ',' ∉ e.path.source.toList := fun hmem => (e.of_mem_path hmem).2.1 rfl
    simp [text, hpadding, hname, hpath]

/-- The entries of an attribute map are those of its parts that are not empty. -/
theorem attributeMap_written (parts : List Part) :
    attributeMap (written parts) =
      (((parts.map Part.text).map trim).filter (!·.isEmpty)).map AttributeBinding.ofEntry := by
  rw [attributeMap, written, String.toList_ofList, pieces_eq_splitOn]
  cases parts with
  | nil => rfl
  | cons part rest =>
    rw [List.splitOn_intercalate]
    · intro text htext
      obtain ⟨p, -, rfl⟩ := List.mem_map.mp htext
      exact p.not_mem_text
    · exact List.cons_ne_nil _ _

/-- Each pair is read as what it stands for, or as an issue if there is a colon in its name. -/
theorem forall₂_attributeMap_written (parts : List Part) :
    List.Forall₂ (fun e result => (':' ∉ e.name.toList ∧ result = .ok e.binding) ∨
      (':' ∈ e.name.toList ∧ ∃ issue, result = .error issue)) (pairs parts)
      (attributeMap (written parts)) := by
  rw [attributeMap_written]
  induction parts with
  | nil => exact .nil
  | cons part rest ih =>
    rw [List.map_cons, List.map_cons, pairs]
    cases part with
    | empty blanks =>
      have htrim : trim (Part.empty blanks).text = [] := trim_eq_nil blanks.isBlank
      rw [htrim]
      exact ih
    | pair e a b c d =>
      have hne : (e.entry b c).isEmpty = false := by
        rw [List.isEmpty_eq_false_iff, Pair.entry]
        exact List.append_ne_nil_of_right_ne_nil _ e.derives.ne_nil
      rw [trim_pair, List.filter_cons_of_pos (by simp [hne]), List.map_cons]
      refine .cons ?_ ih
      by_cases hcolon : ':' ∈ e.name.toList
      · exact .inr ⟨hcolon, e.ofEntry_entry_of_mem hcolon⟩
      · exact .inl ⟨hcolon, e.ofEntry_entry hcolon⟩

/-- Pairs that are written as an attribute map are read back as they were written, in order and each
with its name in lowercase, if and only if no name has a colon in it, whatever padding there is.
Those whose name has no colon are read back in any case. -/
theorem attributeMap_written_iff (parts : List Part) :
    (attributeMap (written parts) = (pairs parts).map (fun e => .ok e.binding) ↔
      ∀ e ∈ pairs parts, ':' ∉ e.name.toList) ∧
    Binding.bindingsOf (written parts) =
      ((pairs parts).filter (fun e => ':' ∉ e.name.toList)).map Pair.binding := by
  have h := forall₂_attributeMap_written parts
  rw [Binding.bindingsOf]
  generalize pairs parts = l at h ⊢
  generalize attributeMap (written parts) = results at h ⊢
  induction h with
  | nil => simp
  | @cons e result l results hresult _ ih =>
    obtain ⟨ihmap, ihbindings⟩ := ih
    rcases hresult with ⟨hcolon, rfl⟩ | ⟨hcolon, issue, rfl⟩
    · have hsome : (Except.ok e.binding : Except DirectiveIssue _).toOption = some e.binding := rfl
      rw [List.filterMap_cons_some hsome, ihbindings]
      simp [hcolon, ihmap]
    · have hnone : (Except.error issue : Except _ AttributeBinding).toOption = none := rfl
      rw [List.filterMap_cons_none hnone, ihbindings]
      simp [hcolon]

/-- The name of a URL attribute with a colon in it, and a path: neither is read back. -/
theorem attributeMap_written_prefixed :
    ∃ e : Pair, ∃ p : Padding, e.name = "xlink:href" ∧ e.path.source = "url" ∧
      attributeMap (written [.pair e p p p p]) =
        [.error (.invalidPath .attributeMap "href:url")] := by
  refine ⟨⟨"xlink:href", ⟨"url", [.key "url"]⟩, by decide, ?_, ?_⟩, ⟨[], nofun⟩, rfl, rfl, ?_⟩
  · decide +kernel
  · decide +kernel
  · decide +kernel

end AttributeMap

end BoundMarkup
