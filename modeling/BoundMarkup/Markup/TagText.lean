import BoundMarkup.Log
import BoundMarkup.Markup.Name
import BoundMarkup.Markup.Reference
import BoundMarkup.Markup.Token
import BoundMarkup.Markup.Tree
import BoundMarkup.Text.Quoted

/-!
# Tags from their text

What stands between the angle brackets of a tag, read as a name and attributes. A tag whose name
cannot be written again is no tag at all; an attribute whose name cannot be written again is
dropped, and so is every attribute but the first of a name.
-/

namespace BoundMarkup.Markup

open Text

/-- An attribute as a tag's text has it: a key, and a value in which references still stand. -/
structure RawAttribute where
  /-- The key in the case in which it is written. -/
  key : List Char
  /-- The value without its quotation marks. -/
  value : List Char
deriving DecidableEq, Repr

/-- Whether a key ends in front of this character. -/
def endsKey (c : Char) : Bool := c == '=' || isTagSpace c

/-- How the text goes on behind the key of an attribute. -/
inductive ValueText where
  /-- There is no value. -/
  | absent (rest : List Char)
  /-- A value in quotation marks. -/
  | quoted (value rest : List Char)
  /-- A value without quotation marks. -/
  | bare (value rest : List Char)
  /-- A value is announced and does not come, or its quotation does not end. -/
  | broken
deriving DecidableEq, Repr

/-- Reads the value of an attribute behind its key. -/
def valueText (s : List Char) : ValueText :=
  match s.dropWhile isTagSpace with
  | '=' :: s =>
    match s.dropWhile isTagSpace with
    | [] => .broken
    | c :: s =>
      if c = '"' ∨ c = '\'' then
        match cutAt [c] s with
        | some (value, rest) => .quoted value rest
        | none => .broken
      else .bare (c :: s.takeWhile (!isTagSpace ·)) (s.dropWhile (!isTagSpace ·))
  | s => .absent s

/-- The value and where the next attribute begins, unless no further attribute can be read. -/
def ValueText.split? : ValueText → Option (List Char × List Char)
  | absent rest => some ([], rest)
  | quoted value rest => some (value, rest)
  | bare value rest => some (value, rest)
  | broken => none

/-- Where the next attribute begins behind a key that is repeated. Its value is passed over as if
quotation marks had no meaning: it ends at the first space behind the equals sign. -/
def passValue (s : List Char) : List Char :=
  match s.dropWhile isTagSpace with
  | '=' :: s => s.dropWhile (!isTagSpace ·)
  | s => s

theorem length_dropWhile_le (p : Char → Bool) (s : List Char) :
    (s.dropWhile p).length ≤ s.length :=
  (List.dropWhile_sublist p).length_le

theorem length_passValue_le (s : List Char) : (passValue s).length ≤ s.length := by
  have hs := length_dropWhile_le isTagSpace s
  unfold passValue
  split
  · next t ht =>
    have hu := length_dropWhile_le (!isTagSpace ·) t
    rw [ht] at hs
    simp only [List.length_cons] at hs
    omega
  · exact hs

theorem length_of_split? {s value rest : List Char}
    (h : (valueText s).split? = some (value, rest)) : rest.length ≤ s.length := by
  have hs := length_dropWhile_le isTagSpace s
  unfold valueText at h
  split at h
  · next t ht =>
    have hu := length_dropWhile_le isTagSpace t
    rw [ht] at hs
    simp only [List.length_cons] at hs
    split at h
    · cases h
    · next c u hcu =>
      rw [hcu] at hu
      simp only [List.length_cons] at hu
      split at h
      · split at h
        · next v w hc =>
          have hl := congrArg List.length (append_of_cutAt hc)
          simp only [List.length_append, List.length_cons, List.length_nil] at hl
          cases h
          omega
        · cases h
      · cases h
        have := length_dropWhile_le (!isTagSpace ·) u
        omega
  · cases h
    exact hs

/-- The attributes in the text behind a tag's name, in order; `keys` are the keys that were met
before. An attribute whose key is repeated is left out. -/
def rawAttributes (keys : List (List Char)) (s : List Char) : List RawAttribute :=
  match _h : s.dropWhile isTagSpace with
  | [] => []
  | c :: t =>
    -- An equals sign in front of a key belongs to it.
    let key := c :: t.takeWhile (!endsKey ·)
    if keys.contains key then rawAttributes keys (passValue (t.dropWhile (!endsKey ·)))
    else
      match _hv : (valueText (t.dropWhile (!endsKey ·))).split? with
      | none => []
      | some (value, rest) => { key, value } :: rawAttributes (key :: keys) rest
termination_by s.length
decreasing_by
  all_goals
    have h1 := length_dropWhile_le isTagSpace s
    have h2 := length_dropWhile_le (!endsKey ·) t
    rw [_h] at h1
    simp only [List.length_cons] at h1
  · have h3 := length_passValue_le (t.dropWhile (!endsKey ·))
    omega
  · have h3 := length_of_split? _hv
    omega

namespace RawAttribute

/-- The name of an attribute is its key in lowercase. -/
def name (a : RawAttribute) : String := String.ofList (lower a.key)

/-- The attribute with the references in its value decoded. -/
def decoded (a : RawAttribute) : Attribute where
  name := a.name
  value := String.ofList (decodeReferences a.value)

end RawAttribute

/-- The first attribute of each name. -/
def firstOfEach : List Attribute → List Attribute
  | [] => []
  | a :: rest => a :: (firstOfEach rest).filter (·.name ≠ a.name)

/-- The name in a tag's text, in lowercase. -/
def tagName (text : List Char) : String :=
  String.ofList (lower (text.takeWhile (!isTagSpace ·)))

/-- The attributes in a tag's text, as they are written. -/
def tagAttributes (text : List Char) : List RawAttribute :=
  rawAttributes [] (text.dropWhile (!isTagSpace ·))

/-- The tag that a text between angle brackets stands for. -/
def Tag.ofText? (text : List Char) : Option Tag :=
  if validElementName (tagName text) then
    some {
      name := tagName text
      attributes :=
        firstOfEach (((tagAttributes text).map RawAttribute.decoded).filter fun a =>
          validAttributeName a.name) }
  else none

/-! ### Notices -/

/-- What is left aside when a tag is read. -/
inductive TagNotice where
  /-- A tag whose name is not valid stays text. -/
  | keptAsText (name : String)
  /-- An attribute whose name is not valid is dropped. -/
  | droppedAttribute (name element : String)
deriving DecidableEq, Repr

namespace TagNotice

/-- The log line of a notice. -/
def line : TagNotice → LogLine
  | keptAsText name => ⟨.debug, "Keeping malformed tag <" ++ name ++ "> as text"⟩
  | droppedAttribute name element =>
    ⟨.debug, "Dropping attribute " ++ quoted name ++ " on <" ++ element ++ ">"⟩

end TagNotice

/-- What is left aside when the text of a tag is read. -/
def tagNotices (text : List Char) : List TagNotice :=
  if validElementName (tagName text) then
    (((tagAttributes text).map RawAttribute.name).filter (!validAttributeName ·)).map
      (.droppedAttribute · (tagName text))
  else [.keptAsText (tagName text)]

end BoundMarkup.Markup
