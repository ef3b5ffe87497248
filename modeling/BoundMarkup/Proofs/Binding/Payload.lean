import BoundMarkup.Binding.Payload
import Mathlib.Data.List.Basic

/-!
# Where the items of a payload are found

A payload is documented as an array of items, or as an object that has the array as its member
`items` or else as its member `data`. What is taken from a text is what is documented, but not from
every text that has it: an object is refused as soon as one of the two members occurs twice or holds
something else than an array or `null`, even if the other one has the items.

## Main definitions

* `Json.Value.names`, `Json.Value.items?`: what names a value gives, and what items it has;
* `Payload.listed`: the items where they are documented to be;
* `Payload.IsAccepted`: the values that are not refused for their form.

## Main results

* `Json.member?_canonical`: in the canonical form a name has what was written for it last;
* `Payload.items_cases`: what is taken of a value, or that it is refused;
* `decodeItems_iff`: the texts that items are taken from, and which items, and the texts that are
  said to have none.
-/

namespace BoundMarkup

open Json

namespace Json

/-! ### Members of a canonical form -/

namespace Value

/-- The names of the members of an object, as often as they are written. -/
def names : Value → List String
  | object members => members.map (·.1)
  | _ => []

/-- The items of an array. -/
def items? : Value → Option (List Value)
  | array items => some items
  | _ => none

theorem items?_eq_some_iff {v : Value} {items : List Value} :
    v.items? = some items ↔ v = .array items := by
  cases v with
  | array l => simp [items?]
  | _ => simp [items?]

@[simp]
theorem member?_object (members : List (String × Value)) (name : String) :
    (object members).member? name = (members.find? (·.1 = name)).map (·.2) := rfl

end Value

/-- A name that is given a value has it from then on, and no other name is concerned. -/
theorem find?_putMember (name : String) (v : Value) (members : List (String × Value))
    (key : String) :
    (putMember name v members).find? (·.1 = key) =
      if name = key then some (name, v) else members.find? (·.1 = key) := by
  induction members with
  | nil =>
    rw [putMember, List.find?_singleton]
    simp
  | cons member rest ih =>
    obtain ⟨k, w⟩ := member
    rw [putMember]
    split
    · -- It stands in front of all others.
      by_cases hname : name = key <;> simp [hname]
    · split
      · next hk =>
        -- It stands in place of what it had before.
        subst hk
        by_cases hname : name = key <;> simp [hname]
      · next hk =>
        by_cases hkey : k = key
        · subst hkey
          simp [hk]
        · simp [hkey, ih]

/-- Among the members that are added, the last one of a name counts. -/
theorem find?_canonicalMembers (sorted members : List (String × Value)) (key : String) :
    ((canonicalMembers sorted members).find? (·.1 = key)).map (·.2) =
      ((members.filter (·.1 = key)).getLast?.map (·.2.canonical)).or
        ((sorted.find? (·.1 = key)).map (·.2)) := by
  -- The members that are added later may overwrite what is found among those added so far.
  induction members generalizing sorted with
  | nil => simp [canonicalMembers]
  | cons member rest ih =>
    obtain ⟨name, v⟩ := member
    rw [canonicalMembers, ih, find?_putMember]
    by_cases hname : name = key
    · rw [if_pos hname, List.filter_cons_of_pos (by simpa using hname), List.getLast?_cons]
      cases (rest.filter (·.1 = key)).getLast? with
      | none => rfl
      | some last => rfl
    · rw [if_neg hname, List.filter_cons_of_neg (by simpa using hname)]

/-- In the canonical form of an object a name has what was written for it last. -/
theorem member?_canonical (members : List (String × Value)) (key : String) :
    (Value.object members).canonical.member? key =
      (members.filter (·.1 = key)).getLast?.map (·.2.canonical) := by
  rw [Value.canonical, Value.member?_object, find?_canonicalMembers]
  simp

end Json

namespace Payload

/-- The items of a value where they are documented to be: the value itself, its member `items`, or
else its member `data`. -/
def listed (v : Value) : Option (List Value) :=
  v.items?.or (((v.member? "items").bind Value.items?).or ((v.member? "data").bind Value.items?))

/-- A name is not refused among members: it occurs once at most, and it has no other value than an
array or `null`. -/
structure Admits (members : List (String × Value)) (name : String) : Prop where
  /-- The name is not repeated. -/
  count_le : (Value.object members).names.count name ≤ 1
  /-- Its value could be the items, or stands for nothing. -/
  isNull_or : ∀ w ∈ (Value.object members).canonical.member? name, w = .null ∨ w.items?.isSome

/-- The values that are not refused for their form. -/
def IsAccepted : Value → Prop
  | .array _ => True
  | .object members => Admits members "items" ∧ Admits members "data"
  | _ => False

/-- In terms of the members as they are written. -/
theorem admits_iff {members : List (String × Value)} {name : String} :
    Admits members name ↔ (members.filter (·.1 = name)).length ≤ 1 ∧
      ∀ w ∈ (members.filter (·.1 = name)).getLast?.map (·.2.canonical),
        w = .null ∨ w.items?.isSome := by
  have hcount : (Value.object members).names.count name =
      (members.filter (·.1 = name)).length := by
    rw [Value.names, List.count, List.countP_map, List.countP_eq_length_filter]
    rfl
  rw [← hcount, ← member?_canonical]
  exact ⟨fun h => ⟨h.count_le, h.isNull_or⟩, fun h => ⟨h.1, h.2⟩⟩

/-- A name that is not refused has its array, if it has one, and any other name is an error. -/
theorem member_cases (members : List (String × Value)) (name : String) :
    (Admits members name ∧ ∃ found, member name members = .ok found ∧
      found.map canonicalItems =
        ((Value.object members).canonical.member? name).bind Value.items?) ∨
    (¬Admits members name ∧ member name members = .error (.noForm "Payload")) := by
  rw [admits_iff, member?_canonical, member]
  -- All that counts is what is written for the name: nothing, one value, or several.
  generalize members.filter (·.1 = name) = written
  rcases written with _ | ⟨⟨k, w⟩, _ | ⟨second, rest⟩⟩
  · exact .inl ⟨by simp, none, rfl, rfl⟩
  · cases w with
    | null => exact .inl ⟨by simp [Value.canonical], none, rfl, rfl⟩
    | array items => exact .inl ⟨by simp [Value.canonical, Value.items?], some items, rfl, rfl⟩
    | _ => exact .inr ⟨by simp [Value.canonical, Value.items?], rfl⟩
  · exact .inr ⟨by simp, by cases w <;> rfl⟩

/-- What is taken of a value that is not refused is what is documented to be its items, and every
other value is an error. -/
theorem items_cases (raw : Value) :
    (IsAccepted raw ∧ ∃ found, items raw = .ok found ∧
      found.map canonicalItems = listed raw.canonical) ∨
    (¬IsAccepted raw ∧ items raw = .error (.noForm "Payload")) := by
  cases raw with
  | array l => exact .inl ⟨trivial, some l, rfl, rfl⟩
  | object members =>
    rw [items]
    rcases member_cases members "items" with ⟨hitems, first, hfirst, hfound⟩ | ⟨hitems, hfirst⟩
    · rcases member_cases members "data" with ⟨hdata, second, hsecond, hfound'⟩ | ⟨hdata, hsecond⟩
      · refine .inl ⟨⟨hitems, hdata⟩, first.or second, ?_, ?_⟩
        · rw [hfirst, hsecond]
          cases first with
          | none => rfl
          | some l => rfl
        · rw [listed, ← hfound, ← hfound', Option.map_or]
          rfl
      · rw [hfirst, hsecond]
        exact .inr ⟨fun h => hdata h.2, rfl⟩
    · rw [hfirst]
      exact .inr ⟨fun h => hitems h.1, rfl⟩
  | _ => exact .inr ⟨id, rfl⟩

end Payload

/-- What is read of a whole text is its value, unless the text goes on behind it. -/
theorem read_of_readValue {s : List Char} {p : Text.Parsed Value s}
    (h : readValue maxDepth s = .ok p) :
    Json.read s = (checkEnd p.rest).map fun _ => p.value := by
  rw [Json.read, h]
  show (checkEnd p.rest >>= fun _ => pure p.value) = _
  cases checkEnd p.rest with
  | error e => rfl
  | ok u => rfl

/-- A text is no JSON, or it holds a value that is refused for its form, or else it gives the items
where they are documented to be, if they are there. -/
theorem decodeItems_cases (json : String) :
    ((∃ e, Json.read json.toList = .error e) ∧ ∃ d ≠ .noItems, decodeItems json = .error d) ∨
    ∃ raw, Json.read json.toList = .ok raw ∧
      ((¬Payload.IsAccepted raw ∧ decodeItems json = .error (.form (.noForm "Payload"))) ∨
        (Payload.IsAccepted raw ∧
          decodeItems json = (Payload.listed raw.canonical).elim (.error .noItems) .ok)) := by
  rw [decodeItems]
  cases hvalue : readValue maxDepth json.toList with
  | error e =>
    have hread : Json.read json.toList = .error e := by
      rw [Json.read, hvalue]
      rfl
    exact .inl ⟨⟨e, hread⟩, .text (e.inText json.toList), nofun, rfl⟩
  | ok p =>
    have hread := read_of_readValue hvalue
    cases hend : checkEnd p.rest with
    | error e =>
      -- The value may be refused first, but this is another error all the same.
      rw [hend] at hread
      refine .inl ⟨⟨e, hread⟩, ?_⟩
      cases hitems : Payload.items p.value with
      | error m => exact ⟨.form m, nofun, by simp only [hitems]⟩
      | ok found => exact ⟨.text (e.inText json.toList), nofun, by simp only [hitems, hend]⟩
    | ok u =>
      rw [hend] at hread
      refine .inr ⟨p.value, hread, ?_⟩
      rcases Payload.items_cases p.value with ⟨hform, found, hitems, hlisted⟩ | ⟨hform, hitems⟩
      · refine .inr ⟨hform, ?_⟩
        rw [← hlisted]
        simp only [hitems, hend]
        cases found with
        | none => rfl
        | some items => rfl
      · exact .inl ⟨hform, by simp only [hitems]⟩

/-- The items that are taken from a text are those that are documented, and they are taken if and
only if the text is JSON and its value is not refused for its form: it is an array, or an object in
which neither of the two members is repeated or holds something else than an array or `null`. A text
is said to have no items if and only if this holds of it and there are none; for a text that is not
JSON another error is given. -/
theorem decodeItems_iff (json : String) :
    (∀ items, decodeItems json = .ok items ↔ ∃ raw, Json.read json.toList = .ok raw ∧
      Payload.IsAccepted raw ∧ Payload.listed raw.canonical = some items) ∧
    (decodeItems json = .error .noItems ↔ ∃ raw, Json.read json.toList = .ok raw ∧
      Payload.IsAccepted raw ∧ Payload.listed raw.canonical = none) ∧
    ∀ e, Json.parse json = .error e → ∃ d ≠ .noItems, decodeItems json = .error d := by
  rcases decodeItems_cases json with ⟨⟨e, hread⟩, d, hd, hdecode⟩ | ⟨raw, hread, hraw⟩
  · rw [hread, hdecode]
    refine ⟨fun items => ?_, ?_, fun _ _ => ⟨d, hd, rfl⟩⟩
    · exact iff_of_false nofun (by simp)
    · exact iff_of_false (by simpa using hd) (by simp)
  · have hparse : Json.parse json = .ok raw.canonical := by
      rw [Json.parse, hread]
    have hunique (P : Value → Prop) :
        (∃ v, Json.read json.toList = .ok v ∧ P v) ↔ P raw := by
      simp [hread]
    rw [hparse, hunique]
    simp only [hunique]
    refine ⟨fun items => ?_, ?_, nofun⟩
    -- Both are told by whether the value is accepted and by what is listed in it.
    all_goals
      rcases hraw with ⟨hrefused, hdecode⟩ | ⟨haccepted, hdecode⟩
      · rw [hdecode]
        exact iff_of_false (by simp) fun h => hrefused h.1
      · rw [hdecode]
        cases Payload.listed raw.canonical with
        | none => simp [haccepted]
        | some items => simp [haccepted]

/-- An object with items in the one member and a number in the other has no name twice, and it is
refused all the same. -/
theorem decodeItems_mixed :
    let json := "\x7b\"items\":[1],\"data\":5\x7d"
    ∃ raw items, Json.read json.toList = .ok raw ∧ raw.names.Nodup ∧
      raw.canonical.member? "items" = some (.array items) ∧
      decodeItems json = .error (.form (.noForm "Payload")) := by
  intro json
  -- Values have no decidable equality, so the runs are compared by what is seen of them.
  have hview : (Json.read json.toList).map (fun raw =>
      (raw.names, ((raw.canonical.member? "items").bind Value.items?).map List.length)) =
      .ok (["items", "data"], some 1) := by decide +kernel
  have hlength : (decodeItems json).map List.length = .error (.form (.noForm "Payload")) := by
    decide +kernel
  have hdecode : decodeItems json = .error (.form (.noForm "Payload")) := by
    cases hresult : decodeItems json with
    | error d =>
      rw [hresult] at hlength
      exact congrArg Except.error (Except.error.inj hlength)
    | ok items =>
      rw [hresult] at hlength
      exact absurd hlength nofun
  cases hread : Json.read json.toList with
  | error e =>
    rw [hread] at hview
    exact absurd hview nofun
  | ok raw =>
    rw [hread] at hview
    obtain ⟨hnames, hmember⟩ := Prod.mk.inj (Except.ok.inj hview)
    obtain ⟨items, hitems, -⟩ := Option.map_eq_some_iff.mp hmember
    obtain ⟨w, hw, hitems⟩ := Option.bind_eq_some_iff.mp hitems
    obtain rfl := Value.items?_eq_some_iff.mp hitems
    exact ⟨raw, items, rfl, by rw [hnames]; decide, hw, hdecode⟩

end BoundMarkup
