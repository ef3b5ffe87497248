import BoundMarkup.Proofs.Text.Lemmas

/-!
# Bytes of a text

A text can be taken apart by offsets into its bytes. An offset may lie inside a character, and then
nothing can be cut out of the text there, so a range of bytes is a part of the text only if its two
ends lie between characters. These are the offsets at which an end of the text begins: what stands
in front of each has a size, and no other end of the text has the same offset.

Bytes can be searched for a mark without regard to characters. If the mark begins with a character
of ASCII, then it is found only between characters, since no other byte of a character is in ASCII.

## Main definitions

* `ByteRange`, `ByteRange.IsWithin`: ranges of bytes, and those that are parts of a text;
* `part`: the part of a text in a range;
* `offsetOf`: the offset at which an end of a text begins;
* `offsetCaseless?`: the first place of a mark in some bytes, in any case of letters.

## Main results

* `isValid_iff_exists_suffix`: the offsets between characters are those at which an end of the text
  begins;
* `part_offsetOf`: the part between two ends of a text;
* `bytes_prefix_iff`: a text begins with another if and only if its bytes begin with those of the
  other;
* `offsetCaseless?_bytes_cons`: a mark is not found inside a character.
-/

namespace BoundMarkup.Text

/-! ### Sizes -/

/-- Every character has a byte at least. -/
theorem length_le_byteSize (s : List Char) : s.length ≤ byteSize s := by
  induction s with
  | nil => exact Nat.le_refl _
  | cons c s ih =>
    have hpos := c.utf8Size_pos
    rw [List.length_cons, byteSize_cons]
    omega

theorem utf8Size_le_byteSize {s : List Char} {c : Char} (h : c ∈ s) : c.utf8Size ≤ byteSize s := by
  obtain ⟨front, rest, rfl⟩ := List.append_of_mem h
  rw [byteSize_append, byteSize_cons]
  omega

theorem utf8ByteSize_ofList (s : List Char) : (String.ofList s).utf8ByteSize = byteSize s := by
  induction s with
  | nil => rfl
  | cons c s ih =>
    have hcons : String.ofList (c :: s) = String.singleton c ++ String.ofList s := by
      rw [String.singleton_eq_ofList, ← String.ofList_append, List.singleton_append]
    rw [hcons, String.utf8ByteSize_append, ih, String.utf8ByteSize_singleton, byteSize_cons]

theorem utf8ByteSize_eq (s : String) : s.utf8ByteSize = byteSize s.toList := by
  rw [← utf8ByteSize_ofList, String.ofList_toList]

theorem byteSize_le_of_suffix {s t : List Char} (h : s <:+ t) : byteSize s ≤ byteSize t := by
  obtain ⟨u, rfl⟩ := h
  rw [byteSize_append]
  omega

/-- Of two ends of a text the one that has no more bytes is an end of the other. -/
theorem suffix_of_byteSize_le {s t u : List Char} (hs : s <:+ u) (ht : t <:+ u)
    (h : byteSize s ≤ byteSize t) : s <:+ t := by
  rcases List.suffix_or_suffix_of_suffix hs ht with hst | ⟨v, rfl⟩
  · exact hst
  · have hv := length_le_byteSize v
    rw [byteSize_append] at h
    have hnil : v = [] := List.eq_nil_of_length_eq_zero (by omega)
    rw [hnil]
    exact List.suffix_rfl

/-! ### Ranges -/

/-- A range of bytes. -/
structure ByteRange where
  /-- The offset of its first byte. -/
  start : Nat
  /-- The offset behind its last byte. -/
  stop : Nat
deriving DecidableEq, Repr

/-- A range in a text that begins and ends between characters. -/
structure ByteRange.IsWithin (r : ByteRange) (s : String) : Prop where
  /-- It does not end before it begins. -/
  start_le_stop : r.start ≤ r.stop
  /-- It begins in the text and between characters. -/
  start_isValid : String.Pos.Raw.IsValid s ⟨r.start⟩
  /-- It ends in the text and between characters. -/
  stop_isValid : String.Pos.Raw.IsValid s ⟨r.stop⟩

instance (r : ByteRange) (s : String) : Decidable (r.IsWithin s) :=
  decidable_of_iff
    (r.start ≤ r.stop ∧ String.Pos.Raw.IsValid s ⟨r.start⟩ ∧ String.Pos.Raw.IsValid s ⟨r.stop⟩)
    ⟨fun h => ⟨h.1, h.2.1, h.2.2⟩, fun h => ⟨h.start_le_stop, h.start_isValid, h.stop_isValid⟩⟩

/-- The part of a text in a range. There is none if the range is not within the text. -/
def part (s : String) (r : ByteRange) : Except ByteRange String :=
  if h : r.IsWithin s then
    .ok (String.extract ⟨⟨r.start⟩, h.start_isValid⟩ ⟨⟨r.stop⟩, h.stop_isValid⟩)
  else .error r

/-- Nothing is a part of a text that does not begin between characters. -/
theorem part_of_not_isValid {s : String} {start : Nat} (h : ¬String.Pos.Raw.IsValid s ⟨start⟩)
    (stop : Nat) : part s ⟨start, stop⟩ = .error ⟨start, stop⟩ := by
  rw [part, dif_neg fun hwithin => h hwithin.start_isValid]

/-- The offset at which an end of a text begins. -/
def offsetOf (s : String) (rest : List Char) : Nat := s.utf8ByteSize - byteSize rest

theorem offsetOf_append {s : String} {front rest : List Char} (h : s.toList = front ++ rest) :
    offsetOf s rest = byteSize front := by
  rw [offsetOf, utf8ByteSize_eq, h, byteSize_append]
  omega

theorem offsetOf_add {s : String} {rest : List Char} (h : rest <:+ s.toList) :
    offsetOf s rest + byteSize rest = s.utf8ByteSize := by
  have hle := byteSize_le_of_suffix h
  rw [offsetOf, utf8ByteSize_eq]
  omega

theorem offsetOf_le_of_suffix {s : String} {rest behind : List Char} (h : behind <:+ rest) :
    offsetOf s rest ≤ offsetOf s behind :=
  Nat.sub_le_sub_left (byteSize_le_of_suffix h) _

/-- Behind a piece the offset is greater by the size of the piece. -/
theorem offsetOf_append_add {s : String} {piece rest : List Char} (h : piece ++ rest <:+ s.toList) :
    offsetOf s (piece ++ rest) + byteSize piece = offsetOf s rest := by
  have hadd := offsetOf_add h
  have hrest := offsetOf_add ((List.suffix_append piece rest).trans h)
  rw [byteSize_append] at hadd
  omega

@[simp]
theorem offsetOf_nil (s : String) : offsetOf s [] = s.utf8ByteSize := by
  rw [offsetOf, byteSize_nil, Nat.sub_zero]

@[simp]
theorem offsetOf_toList (s : String) : offsetOf s s.toList = 0 := by
  rw [offsetOf, utf8ByteSize_eq, Nat.sub_self]

/-- An offset lies between characters if and only if an end of the text begins there. -/
theorem isValid_iff_exists_suffix {s : String} {n : Nat} :
    String.Pos.Raw.IsValid s ⟨n⟩ ↔ ∃ rest, rest <:+ s.toList ∧ n = offsetOf s rest := by
  rw [String.Pos.Raw.isValid_iff_exists_append]
  constructor
  · rintro ⟨front, rest, rfl, hn⟩
    refine ⟨rest.toList, ?_, ?_⟩
    · rw [String.toList_append]
      exact List.suffix_append _ _
    · rw [offsetOf_append String.toList_append, ← utf8ByteSize_eq]
      exact congrArg String.Pos.Raw.byteIdx hn
  · rintro ⟨rest, ⟨front, hfront⟩, rfl⟩
    refine ⟨String.ofList front, String.ofList rest, ?_, ?_⟩
    · rw [← String.ofList_append, hfront, String.ofList_toList]
    · rw [offsetOf_append hfront.symm, ← utf8ByteSize_ofList]
      rfl

theorem isValid_offsetOf {s : String} {rest : List Char} (h : rest <:+ s.toList) :
    String.Pos.Raw.IsValid s ⟨offsetOf s rest⟩ :=
  isValid_iff_exists_suffix.mpr ⟨rest, h, rfl⟩

/-- What stands between two ends of a text is the part between their offsets. -/
theorem part_offsetOf {s : String} {piece rest : List Char} (h : piece ++ rest <:+ s.toList) :
    part s ⟨offsetOf s (piece ++ rest), offsetOf s rest⟩ = .ok (String.ofList piece) := by
  have hrest : rest <:+ s.toList := (List.suffix_append _ _).trans h
  have hwithin : ByteRange.IsWithin ⟨offsetOf s (piece ++ rest), offsetOf s rest⟩ s :=
    ⟨Nat.le.intro (offsetOf_append_add h), isValid_offsetOf h, isValid_offsetOf hrest⟩
  obtain ⟨front, hfront⟩ := h
  rw [← List.append_assoc] at hfront
  have hs : s = String.ofList front ++ String.ofList piece ++ String.ofList rest := by
    rw [← String.ofList_append, ← String.ofList_append, hfront, String.ofList_toList]
  have hstart : String.Pos.Splits ⟨_, hwithin.start_isValid⟩ (String.ofList front)
      (String.ofList piece ++ String.ofList rest) := by
    refine ⟨hs.trans String.append_assoc, congrArg String.Pos.Raw.mk ?_⟩
    rw [List.append_assoc] at hfront
    exact (offsetOf_append hfront.symm).trans (utf8ByteSize_ofList front).symm
  have hstop : String.Pos.Splits ⟨_, hwithin.stop_isValid⟩
      (String.ofList front ++ String.ofList piece) (String.ofList rest) := by
    refine ⟨hs, congrArg String.Pos.Raw.mk ?_⟩
    rw [← String.ofList_append]
    exact (offsetOf_append hfront.symm).trans (utf8ByteSize_ofList (front ++ piece)).symm
  obtain ⟨hle, hcopy⟩ := String.copy_slice_eq_iff_splits.mpr ⟨_, _, hstart, hstop⟩
  rw [part, dif_pos hwithin, String.extract_eq_copy_slice _ _ hle, hcopy]

/-- An end of a text is the part from its offset on. -/
theorem part_offsetOf_end {s : String} {rest : List Char} (h : rest <:+ s.toList) :
    part s ⟨offsetOf s rest, s.utf8ByteSize⟩ = .ok (String.ofList rest) := by
  rw [← List.append_nil rest] at h
  have hpart := part_offsetOf h
  rwa [List.append_nil, offsetOf_nil] at hpart

/-! ### Bytes -/

/-- The bytes of a text. -/
def bytes (s : List Char) : List UInt8 := s.flatMap String.utf8EncodeChar

theorem toList_toByteArray (s : String) : s.toByteArray.data.toList = bytes s.toList := by
  rw [← String.utf8Encode_toList, List.utf8Encode, List.data_toByteArray, bytes]

@[simp]
theorem bytes_cons (c : Char) (s : List Char) :
    bytes (c :: s) = String.utf8EncodeChar c ++ bytes s := List.flatMap_cons

/-- A text begins with another if and only if its bytes begin with those of the other. -/
theorem bytes_prefix_iff {s t : List Char} : bytes s <+: bytes t ↔ s <+: t := by
  constructor
  · rintro ⟨rest, hrest⟩
    have hencode : s.utf8Encode ++ rest.toByteArray = t.utf8Encode := by
      rw [List.utf8Encode, List.utf8Encode, ← List.toByteArray_append]
      exact congrArg List.toByteArray hrest
    exact List.isPrefix_of_utf8Encode_append_eq_utf8Encode _ hencode
  · rintro ⟨rest, rfl⟩
    rw [bytes, bytes, List.flatMap_append]
    exact List.prefix_append _ _

/-- The bytes of a character outside ASCII are outside ASCII. -/
theorem le_of_mem_utf8EncodeChar {c : Char} (hc : 0x80 ≤ c.toNat) {b : UInt8}
    (hb : b ∈ String.utf8EncodeChar c) : 0x80 ≤ b.toNat := by
  have hval : 127 < c.val.toNat := hc
  simp only [String.utf8EncodeChar, Nat.not_le.mpr hval, if_false] at hb
  split at hb
  · simp only [List.mem_cons, List.not_mem_nil, or_false] at hb
    rcases hb with rfl | rfl <;> simp only [UInt8.toNat_ofNat'] <;> omega
  · split at hb
    · simp only [List.mem_cons, List.not_mem_nil, or_false] at hb
      rcases hb with rfl | rfl | rfl <;> simp only [UInt8.toNat_ofNat'] <;> omega
    · simp only [List.mem_cons, List.not_mem_nil, or_false] at hb
      rcases hb with rfl | rfl | rfl | rfl <;> simp only [UInt8.toNat_ofNat'] <;> omega

/-- Only the first byte of a character can be in ASCII. -/
theorem exists_utf8EncodeChar_eq (c : Char) :
    ∃ b rest, String.utf8EncodeChar c = b :: rest ∧ ∀ d ∈ rest, 0x80 ≤ d.toNat := by
  by_cases hc : c.toNat < 0x80
  · have hval : c.val ≤ 127 := UInt32.le_iff_toNat_le.mpr (Nat.le_of_lt_succ hc)
    exact ⟨_, [], String.utf8EncodeChar_eq_singleton (Char.utf8Size_eq_one_iff.mpr hval), nofun⟩
  · obtain ⟨b, rest, hbytes⟩ := List.exists_cons_of_ne_nil (String.utf8EncodeChar_ne_nil (c := c))
    refine ⟨b, rest, hbytes, fun d hd => ?_⟩
    have hmem : d ∈ String.utf8EncodeChar c := hbytes ▸ List.mem_cons_of_mem b hd
    exact le_of_mem_utf8EncodeChar (by omega) hmem

/-- Folding fixes a byte outside ASCII. -/
theorem toAsciiLower_eq_self {b : UInt8} (h : 0x80 ≤ b.toNat) : b.toAsciiLower = b := by
  have hcapital : ¬b - 65 < 26 := by
    have hlt := b.toNat_lt
    rw [UInt8.lt_iff_toNat_lt, UInt8.toNat_sub]
    simp only [UInt8.reduceToNat]
    omega
  rw [UInt8.toAsciiLower, decide_eq_false hcapital]
  exact UInt8.add_zero b

/-- Folding takes no byte out of ASCII. -/
theorem toNat_toAsciiLower_lt {b : UInt8} (h : b.toNat < 0x80) : b.toAsciiLower.toNat < 0x80 := by
  have hall : ∀ n < 0x80, (UInt8.ofNat n).toAsciiLower.toNat < 0x80 := by decide
  have hn := hall b.toNat h
  rwa [UInt8.ofNat_toNat] at hn

/-- Folding a character folds its bytes. -/
theorem map_toAsciiLower_utf8EncodeChar (c : Char) :
    (String.utf8EncodeChar c).map UInt8.toAsciiLower = String.utf8EncodeChar c.toLower := by
  by_cases hc : c.toNat < 0x80
  · have hall : ∀ n < 0x80, (String.utf8EncodeChar (Char.ofNat n)).map UInt8.toAsciiLower =
        String.utf8EncodeChar (Char.ofNat n).toLower := by decide
    have hn := hall c.toNat hc
    rwa [Char.ofNat_toNat] at hn
  · have hbytes : ∀ b ∈ String.utf8EncodeChar c, b.toAsciiLower = b := fun b hb =>
      toAsciiLower_eq_self (le_of_mem_utf8EncodeChar (by omega) hb)
    rw [toLower_eq_self (by omega), List.map_congr_left hbytes, List.map_id']

theorem map_toAsciiLower_bytes (s : List Char) :
    (bytes s).map UInt8.toAsciiLower = bytes (lower s) := by
  induction s with
  | nil => rfl
  | cons c s ih =>
    rw [bytes_cons, List.map_append, map_toAsciiLower_utf8EncodeChar, ih, lower_cons, bytes_cons]

/-- A mark stands at the front of a text, in any case of letters, if its bytes do. -/
theorem map_toAsciiLower_take_iff {mark s : List Char} :
    ((bytes s).take (bytes mark).length).map UInt8.toAsciiLower =
        (bytes mark).map UInt8.toAsciiLower ↔
      lower (s.take mark.length) = lower mark := by
  have hlength : (bytes mark).length = (bytes (lower mark)).length := by
    rw [← map_toAsciiLower_bytes, List.length_map]
  rw [List.map_take, map_toAsciiLower_bytes, map_toAsciiLower_bytes, hlength, lower_take,
    ← length_lower mark, eq_comm, ← List.prefix_iff_eq_take, bytes_prefix_iff,
    List.prefix_iff_eq_take, eq_comm]

/-! ### Searching -/

/-- The first offset in some bytes at which `mark` stands, whatever the case of its letters. -/
def offsetCaseless? (mark : List UInt8) : List UInt8 → Option Nat
  | [] => none
  | b :: s =>
    if ((b :: s).take mark.length).map UInt8.toAsciiLower = mark.map UInt8.toAsciiLower then some 0
    else (offsetCaseless? mark s).map (· + 1)

/-- A mark does not stand where its first byte does not. -/
theorem offsetCaseless?_append {m : UInt8} {mark front : List UInt8}
    (h : ∀ b ∈ front, b.toAsciiLower ≠ m.toAsciiLower) (s : List UInt8) :
    offsetCaseless? (m :: mark) (front ++ s) =
      (offsetCaseless? (m :: mark) s).map (· + front.length) := by
  induction front with
  | nil => simp
  | cons b front ih =>
    obtain ⟨hb, hfront⟩ := List.forall_mem_cons.mp h
    have hne : ((b :: (front ++ s)).take (m :: mark).length).map UInt8.toAsciiLower ≠
        (m :: mark).map UInt8.toAsciiLower := by
      intro heq
      exact hb (List.cons.inj heq).1
    rw [List.cons_append, offsetCaseless?, if_neg hne, ih hfront, Option.map_map]
    rfl

/-- A mark that begins with a character of ASCII is found at the front of a character or behind it. -/
theorem offsetCaseless?_bytes_cons {m : UInt8} (hm : m.toNat < 0x80) (mark : List UInt8) (c : Char)
    (s : List Char) :
    offsetCaseless? (m :: mark) (bytes (c :: s)) =
      if ((bytes (c :: s)).take (m :: mark).length).map UInt8.toAsciiLower =
          (m :: mark).map UInt8.toAsciiLower then some 0
      else (offsetCaseless? (m :: mark) (bytes s)).map (· + c.utf8Size) := by
  obtain ⟨b, rest, hbytes, hrest⟩ := exists_utf8EncodeChar_eq c
  have hcons : bytes (c :: s) = b :: (rest ++ bytes s) := by
    rw [bytes_cons, hbytes, List.cons_append]
  -- The bytes behind the first are not in ASCII.
  have hpass : ∀ d ∈ rest, d.toAsciiLower ≠ m.toAsciiLower := by
    intro d hd heq
    have hd := hrest d hd
    have hlt := toNat_toAsciiLower_lt hm
    rw [← heq, toAsciiLower_eq_self hd] at hlt
    omega
  have hlength : rest.length + 1 = c.utf8Size := by
    rw [← String.length_utf8EncodeChar, hbytes, List.length_cons]
  rw [hcons, offsetCaseless?, offsetCaseless?_append hpass, Option.map_map, ← hlength]
  rfl

/-- A character that is not in a text is not found in it. -/
theorem find?_eq_none {s : String} {c : Char} (h : c ∉ s.toList) : s.find? c = none := by
  cases hfind : s.find? c with
  | none => rfl
  | some p =>
    obtain ⟨t, u, hsplits, -⟩ := String.find?_char_eq_some_iff_splits.mp hfind
    refine absurd ?_ h
    rw [hsplits.eq_append]
    simp

/-- A character is found at the first place where it stands. -/
theorem exists_find?_eq {s : String} {c : Char} {front rest : List Char}
    (h : s.toList = front ++ c :: rest) (hfront : c ∉ front) :
    ∃ p, s.find? c = some p ∧ p.offset.byteIdx = byteSize front := by
  have hs : s = String.ofList front ++ (String.singleton c ++ String.ofList rest) := by
    rw [String.singleton_eq_ofList, ← String.ofList_append, ← String.ofList_append,
      List.singleton_append, ← h, String.ofList_toList]
  have hsplits := String.Pos.splits_ofEqAppend hs
  refine ⟨_, String.find?_char_eq_some_iff_splits.mpr ⟨_, _, hsplits, ?_⟩, ?_⟩
  · rwa [String.toList_ofList]
  · rw [hsplits.offset_eq_rawEndPos]
    exact utf8ByteSize_ofList front

end BoundMarkup.Text
