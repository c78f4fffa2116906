import Daimon.Lib.Json
import Mathlib.Data.String.Basic

/-!
# String leaves of a JSON value

A fallible map over the string leaves of a value: keys and other leaves are copied, and an object is
rebuilt field by field.
-/

namespace Daimon.Lib.Json

section Map
variable {ε : Type*} (leaf : String → Except ε String)

mutual
def mapStrings : Json → Except ε Json
  | .null => .ok .null
  | .bool b => .ok (.bool b)
  | .number n => .ok (.number n)
  | .string s => (leaf s).map .string
  | .array items => (mapItems items).map .array
  | .object fields => (mapFields fields []).map .object
termination_by structural v => v

def mapItems : List Json → Except ε (List Json)
  | [] => .ok []
  | item :: items =>
      match mapStrings item with
      | .ok w => (mapItems items).map (w :: ·)
      | .error e => .error e
termination_by structural items => items

def mapFields : List (String × Json) → List (String × Json) → Except ε (List (String × Json))
  | [], out => .ok out
  | field :: fields, out =>
      match mapField field with
      | .ok (key, w) => mapFields fields (insertField key w out)
      | .error e => .error e
termination_by structural fields => fields

def mapField : String × Json → Except ε (String × Json)
  | (key, v) => (mapStrings v).map (key, ·)
termination_by structural field => field
end

end Map

/-! ## Values of one shape -/

section Shape
variable (related : String → String → Prop)

mutual
/-- The values agree but for their string leaves, which are `related` one by one. -/
def SameShape : Json → Json → Prop
  | .null, .null => True
  | .bool a, .bool b => a = b
  | .number a, .number b => a = b
  | .string s, .string t => related s t
  | .array items, .array others => SameItems items others
  | .object fields, .object others => SameFields fields others
  | _, _ => False
termination_by structural v => v

def SameItems : List Json → List Json → Prop
  | [], [] => True
  | item :: items, other :: others => SameShape item other ∧ SameItems items others
  | _, _ => False
termination_by structural items => items

def SameFields : List (String × Json) → List (String × Json) → Prop
  | [], [] => True
  | field :: fields, other :: others => SameField field other ∧ SameFields fields others
  | _, _ => False
termination_by structural fields => fields

def SameField : String × Json → String × Json → Prop
  | (key, v), (other, w) => key = other ∧ SameShape v w
termination_by structural field => field
end

end Shape

section Mono
variable {related weaker : String → String → Prop}

mutual
theorem SameShape.mono (imp : ∀ s t, related s t → weaker s t) :
    ∀ v w, SameShape related v w → SameShape weaker v w
  | .null, w, same => by cases w <;> exact same
  | .bool _, w, same => by cases w <;> exact same
  | .number _, w, same => by cases w <;> exact same
  | .string s, w, same => by
      cases w with
      | string t => exact imp s t same
      | _ => exact same
  | .array items, w, same => by
      cases w with
      | array others => exact SameItems.mono imp items others same
      | _ => exact same
  | .object fields, w, same => by
      cases w with
      | object others => exact SameFields.mono imp fields others same
      | _ => exact same
termination_by structural v => v

theorem SameItems.mono (imp : ∀ s t, related s t → weaker s t) :
    ∀ items others, SameItems related items others → SameItems weaker items others
  | [], others, same => by cases others <;> exact same
  | item :: items, others, same => by
      cases others with
      | nil => exact same
      | cons other others => exact ⟨SameShape.mono imp item other same.1, SameItems.mono imp items others same.2⟩
termination_by structural items => items

theorem SameFields.mono (imp : ∀ s t, related s t → weaker s t) :
    ∀ fields others, SameFields related fields others → SameFields weaker fields others
  | [], others, same => by cases others <;> exact same
  | field :: fields, others, same => by
      cases others with
      | nil => exact same
      | cons other others => exact ⟨SameField.mono imp field other same.1, SameFields.mono imp fields others same.2⟩
termination_by structural fields => fields

theorem SameField.mono (imp : ∀ s t, related s t → weaker s t) :
    ∀ field other, SameField related field other → SameField weaker field other
  | (_, v), (_, w), same => ⟨same.1, SameShape.mono imp v w same.2⟩
termination_by structural field => field
end

end Mono

mutual
/-- Every object in the value has its keys in order, each once, as an ordered map keeps them. -/
def KeysSorted : Json → Prop
  | .array items => ItemsSorted items
  | .object fields => (fields.map Prod.fst).Pairwise (· < ·) ∧ FieldsSorted fields
  | _ => True
termination_by structural v => v

def ItemsSorted : List Json → Prop
  | [] => True
  | item :: items => KeysSorted item ∧ ItemsSorted items
termination_by structural items => items

def FieldsSorted : List (String × Json) → Prop
  | [] => True
  | field :: fields => FieldSorted field ∧ FieldsSorted fields
termination_by structural fields => fields

def FieldSorted : String × Json → Prop
  | (_, v) => KeysSorted v
termination_by structural field => field
end

theorem insertField_last {key : String} {w : Json} {out : List (String × Json)}
    (before : ∀ k ∈ out.map Prod.fst, k < key) : insertField key w out = out ++ [(key, w)] := by
  induction out with
  | nil => rfl
  | cons field out ih =>
      obtain ⟨k, v⟩ := field
      have earlier : k < key := before k (by simp)
      have rest := ih fun k member => before k (by simp [List.mem_map.mp member])
      rw [insertField, if_neg (ne_of_gt earlier), if_neg (not_lt_of_gt earlier), rest]
      rfl

theorem bind_ok {ε α β : Type} {x : Except ε α} {f : α → Except ε β} {b : β} (ok : (x >>= f) = .ok b) :
    ∃ a, x = .ok a ∧ f a = .ok b := by
  cases x with
  | error e => cases ok
  | ok a => exact ⟨a, rfl, ok⟩

theorem map_eq_ok {ε α β : Type*} {x : Except ε α} {f : α → β} {b : β} :
    x.map f = .ok b ↔ ∃ a, x = .ok a ∧ f a = b := by
  cases x <;> simp [Except.map]

theorem toOption_map {ε α β : Type*} (x : Except ε α) (f : α → β) :
    (x.map f).toOption = x.toOption.map f := by
  cases x <;> rfl

@[simp] theorem toOption_ok {ε α : Type*} (a : α) : (Except.ok a : Except ε α).toOption = some a := rfl

@[simp] theorem toOption_error {ε α : Type*} (e : ε) : (Except.error e : Except ε α).toOption = none := rfl

variable {ε : Type*} {leaf : String → Except ε String}

mutual
theorem mapStrings_eq_ok (v w : Json) (sorted : v.KeysSorted) :
    v.mapStrings leaf = .ok w ↔ SameShape (fun s t => leaf s = .ok t) v w := by
  cases v with
  | null => cases w <;> simp [mapStrings, SameShape]
  | bool b => cases w <;> simp [mapStrings, SameShape]
  | number n => cases w <;> simp [mapStrings, SameShape]
  | string s => cases w <;> simp [mapStrings, SameShape, map_eq_ok]
  | array items => cases w <;> simp [mapStrings, SameShape, map_eq_ok, mapItems_eq_ok items _ sorted]
  | object fields =>
      have keys := sorted.1
      have fieldsFilled (result : List (String × Json)) :=
        mapFields_eq_ok fields [] result (by simpa using keys) sorted.2
      cases w <;> simp [mapStrings, SameShape, map_eq_ok, fieldsFilled]
termination_by structural v

theorem mapItems_eq_ok (items others : List Json) (sorted : ItemsSorted items) :
    mapItems leaf items = .ok others ↔ SameItems (fun s t => leaf s = .ok t) items others := by
  cases items with
  | nil => cases others <;> simp [mapItems, SameItems]
  | cons item items =>
      have first (w : Json) := mapStrings_eq_ok item w sorted.1
      have rest (others : List Json) := mapItems_eq_ok items others sorted.2
      cases mapped : mapStrings leaf item with
      | error e =>
          cases others with
          | nil => simp [mapItems, SameItems, mapped]
          | cons w others => simp [mapItems, SameItems, mapped, ← first]
      | ok u =>
          cases others with
          | nil => simp [mapItems, SameItems, mapped, map_eq_ok]
          | cons w others => simp [mapItems, SameItems, mapped, ← first, map_eq_ok, rest, and_comm]
termination_by structural items

theorem mapFields_eq_ok (fields out result : List (String × Json))
    (keys : (out.map Prod.fst ++ fields.map Prod.fst).Pairwise (· < ·)) (sorted : FieldsSorted fields) :
    mapFields leaf fields out = .ok result ↔
      ∃ others, SameFields (fun s t => leaf s = .ok t) fields others ∧ result = out ++ others := by
  cases fields with
  | nil =>
      constructor
      · intro ended
        cases ended
        exact ⟨[], trivial, (List.append_nil _).symm⟩
      · rintro ⟨others, same, rfl⟩
        cases others with
        | nil => simp [mapFields]
        | cons other others => exact same.elim
  | cons field fields =>
      have first (other : String × Json) := mapField_eq_ok field other sorted.1
      cases mapped : mapField leaf field with
      | error e =>
          simp only [mapFields, mapped, reduceCtorEq, false_iff]
          rintro ⟨others, same, -⟩
          cases others with
          | nil => exact same.elim
          | cons other others => cases mapped.symm.trans ((first other).mpr same.1)
      | ok mappedField =>
          obtain ⟨k, w⟩ := mappedField
          have sameKey : field.1 = k := by
            have same := (first (k, w)).mp mapped
            cases field
            exact same.1
          -- The keys come in order, so each field is put behind those already there.
          have after : insertField k w out = out ++ [(k, w)] := by
            apply insertField_last
            intro earlier member
            rw [← sameKey]
            exact (List.pairwise_append.mp keys).2.2 earlier member field.1 (by simp)
          have rest := mapFields_eq_ok fields (out ++ [(k, w)]) result
            (by simpa [← sameKey] using keys) sorted.2
          simp only [mapFields, mapped, after, rest]
          constructor
          · rintro ⟨others, same, rfl⟩
            exact ⟨(k, w) :: others, ⟨(first (k, w)).mp mapped, same⟩, by simp⟩
          · rintro ⟨others, same, rfl⟩
            cases others with
            | nil => exact same.elim
            | cons other others =>
                obtain rfl : (k, w) = other := Except.ok.inj (mapped.symm.trans ((first other).mpr same.1))
                exact ⟨others, same.2, by simp⟩
termination_by structural fields

theorem mapField_eq_ok (field other : String × Json) (sorted : FieldSorted field) :
    mapField leaf field = .ok other ↔ SameField (fun s t => leaf s = .ok t) field other := by
  obtain ⟨key, v⟩ := field
  obtain ⟨k, w⟩ := other
  have inner := mapStrings_eq_ok v w sorted
  simp [mapField, SameField, map_eq_ok, ← inner, and_comm]
termination_by structural field
end

/-! ## Two maps -/

variable {ε' : Type*} {other : String → Except ε' String}

mutual
theorem mapStrings_toOption (agree : ∀ s, (leaf s).toOption = (other s).toOption) (v : Json) :
    (v.mapStrings leaf).toOption = (v.mapStrings other).toOption := by
  cases v with
  | null => rfl
  | bool b => rfl
  | number n => rfl
  | string s => simpa [mapStrings, toOption_map] using congrArg (Option.map Json.string) (agree s)
  | array items =>
      simpa [mapStrings, toOption_map] using congrArg (Option.map Json.array) (mapItems_toOption agree items)
  | object fields =>
      simpa [mapStrings, toOption_map] using
        congrArg (Option.map Json.object) (mapFields_toOption agree fields [])
termination_by structural v

theorem mapItems_toOption (agree : ∀ s, (leaf s).toOption = (other s).toOption) (items : List Json) :
    (mapItems leaf items).toOption = (mapItems other items).toOption := by
  cases items with
  | nil => rfl
  | cons item items =>
      have first := mapStrings_toOption agree item
      have rest := mapItems_toOption agree items
      cases left : mapStrings leaf item <;> cases right : mapStrings other item <;>
        simp_all [mapItems, toOption_map]
termination_by structural items

theorem mapFields_toOption (agree : ∀ s, (leaf s).toOption = (other s).toOption)
    (fields out : List (String × Json)) :
    (mapFields leaf fields out).toOption = (mapFields other fields out).toOption := by
  cases fields with
  | nil => rfl
  | cons field fields =>
      have first := mapField_toOption agree field
      have rest (out : List (String × Json)) := mapFields_toOption agree fields out
      cases left : mapField leaf field <;> cases right : mapField other field <;>
        simp_all [mapFields]
termination_by structural fields

theorem mapField_toOption (agree : ∀ s, (leaf s).toOption = (other s).toOption) (field : String × Json) :
    (mapField leaf field).toOption = (mapField other field).toOption := by
  obtain ⟨key, v⟩ := field
  have inner := mapStrings_toOption agree v
  simp [mapField, toOption_map, inner]
termination_by structural field
end

end Daimon.Lib.Json
