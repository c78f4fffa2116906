import Mathlib.Data.String.Basic
import Daimon.Lib.Json

/-!
# Texts of JSON values

What is relied on of a JSON library that prints a value to a text and reads it back. Reading stops at a fixed depth of
arrays and objects, and a floating-point number need not come back as the number it was.
-/

namespace Daimon.Lib

/-- The number is an integer, and kept as the reader keeps it. -/
def Number.integral : Number → Bool
  | .posInt _ => true
  | .negInt n => decide (-0x8000000000000000 ≤ n ∧ n < 0)
  | .float _ => false

namespace Json

mutual
/-- The value has no floating-point number and nests below `budget`, which an array or an object takes one of. -/
def plain (budget : Nat) : Json → Bool
  | .null | .bool _ | .string _ => true
  | .number n => n.integral
  | .array items => 1 < budget && plainItems (budget - 1) items
  | .object fields =>
      1 < budget && decide ((fields.map Prod.fst).Pairwise (· < ·)) && plainFields (budget - 1) fields
termination_by structural v => v

def plainItems (budget : Nat) : List Json → Bool
  | [] => true
  | item :: items => plain budget item && plainItems budget items
termination_by structural items => items

def plainFields (budget : Nat) : List (String × Json) → Bool
  | [] => true
  | field :: fields => plainField budget field && plainFields budget fields
termination_by structural fields => fields

def plainField (budget : Nat) : String × Json → Bool
  | (_, v) => plain budget v
termination_by structural field => field
end

theorem mem_keys_insertField {key k : String} {value : Json} {fields : List (String × Json)}
    (member : k ∈ (insertField key value fields).map Prod.fst) : k = key ∨ k ∈ fields.map Prod.fst := by
  induction fields with
  | nil => exact Or.inl (by simpa [insertField] using member)
  | cons field rest ih =>
      obtain ⟨l, v⟩ := field
      simp only [insertField] at member
      split_ifs at member with same before <;>
        simp only [List.map_cons, List.mem_cons] at member ⊢
      · rcases member with rfl | later
        · exact Or.inl rfl
        · exact Or.inr (Or.inr later)
      · exact member
      · rcases member with rfl | later
        · exact Or.inr (Or.inl rfl)
        · exact (ih later).imp_right Or.inr

theorem sorted_insertField (key : String) (value : Json) {fields : List (String × Json)}
    (sorted : (fields.map Prod.fst).Pairwise (· < ·)) :
    ((insertField key value fields).map Prod.fst).Pairwise (· < ·) := by
  induction fields with
  | nil => simp [insertField]
  | cons field rest ih =>
      obtain ⟨l, v⟩ := field
      obtain ⟨first, later⟩ := List.pairwise_cons.mp sorted
      simp only [insertField]
      split_ifs with same before
      · subst same
        exact List.pairwise_cons.mpr ⟨first, later⟩
      · refine List.pairwise_cons.mpr ⟨fun k member => ?_, sorted⟩
        rcases List.mem_cons.mp member with rfl | among
        · exact before
        · exact lt_trans before (first k among)
      · refine List.pairwise_cons.mpr ⟨fun k member => ?_, ih later⟩
        rcases mem_keys_insertField member with rfl | among
        · exact lt_of_le_of_ne (not_lt.mp before) (Ne.symm same)
        · exact first k among

theorem plainFields_insertField {budget : Nat} {key : String} {value : Json} {fields : List (String × Json)}
    (plain : value.plain budget) (rest : plainFields budget fields) :
    plainFields budget (insertField key value fields) := by
  induction fields with
  | nil => simp [insertField, plainFields, plainField, plain]
  | cons field fields ih =>
      obtain ⟨l, v⟩ := field
      simp only [plainFields, plainField, Bool.and_eq_true] at rest
      simp only [insertField]
      split_ifs <;> simp [plainFields, plainField, plain, rest, ih]

theorem plain_ofFields {budget : Nat} {pairs : List (String × Json)} (room : 1 < budget)
    (plain : ∀ p ∈ pairs, p.2.plain (budget - 1)) : (ofFields pairs).plain budget := by
  suffices built : ∀ fields, (fields.map Prod.fst).Pairwise (· < ·) → plainFields (budget - 1) fields →
      (Json.object (pairs.foldl (fun fields p => insertField p.1 p.2 fields) fields)).plain budget from
    built [] List.Pairwise.nil rfl
  induction pairs with
  | nil =>
      intro fields sorted rest
      simp only [List.foldl_nil, Json.plain, Bool.and_eq_true, decide_eq_true_eq]
      exact ⟨⟨room, decide_eq_true sorted⟩, rest⟩
  | cons p pairs ih =>
      intro fields sorted rest
      exact ih (fun q member => plain q (List.mem_cons_of_mem _ member)) _ (sorted_insertField p.1 p.2 sorted)
        (plainFields_insertField (plain p List.mem_cons_self) rest)

theorem lookup_foldl_insertField {pairs fields : List (String × Json)} (distinct : (pairs.map Prod.fst).Nodup)
    (key : String) :
    (pairs.foldl (fun fields p => insertField p.1 p.2 fields) fields).lookup key =
      (pairs.lookup key).or (fields.lookup key) := by
  induction pairs generalizing fields with
  | nil => rfl
  | cons p pairs ih =>
      obtain ⟨k, v⟩ := p
      obtain ⟨fresh, later⟩ := List.nodup_cons.mp distinct
      rw [List.foldl_cons, ih later]
      by_cases same : key = k
      · subst same
        have absent : pairs.lookup key = none := by
          rw [List.lookup_eq_none_iff]
          intro q member
          rw [bne_iff_ne]
          rintro rfl
          exact fresh (List.mem_map.mpr ⟨q, member, rfl⟩)
        simp [absent, lookup_insertField_self]
      · have skip : (key == k) = false := by simpa using same
        rw [lookup_insertField_of_ne same, List.lookup_cons, skip]

theorem get?_ofFields {pairs : List (String × Json)} (distinct : (pairs.map Prod.fst).Nodup) (key : String) :
    (ofFields pairs).get? key = pairs.lookup key := by
  rw [ofFields, get?, lookup_foldl_insertField distinct, List.lookup_nil, Option.or_none]

end Json

structure JsonText (Text : Type) where
  encode : Json → Text
  decode : Text → Except String Json
  /-- What is said of a JSON text that is not of the type asked for. -/
  shapeError : Text → String
  round_trip : ∀ v : Json, v.plain 128 → decode (encode v) = .ok v

/-- RFC 3339 texts of instants, in nanoseconds from the epoch. -/
structure TimeText where
  display : Int → String
  parse : String → Option Int
  round_trip : ∀ t, parse (display t) = some t

namespace JsonText

/-- Values stand for their own texts: an instance on which a model can be run. -/
def values : JsonText Json where
  encode := id
  decode v := if v.plain 128 then .ok v else .error "recursion limit exceeded"
  shapeError _ := "invalid type"
  round_trip := by
    intro v plain
    exact if_pos plain

end JsonText

namespace TimeText

def epoch : String := "1970-01-01T00:00:00Z"

def tally : Int → String
  | .ofNat n => String.ofList (List.replicate n '+')
  | .negSucc n => String.ofList ('-' :: List.replicate n '-')

def untally (text : String) : Int :=
  match text.toList with
  | '-' :: rest => .negSucc rest.length
  | marks => .ofNat marks.length

theorem untally_tally (t : Int) : untally (tally t) = t := by
  cases t with
  | ofNat n => cases n <;> simp [tally, untally, List.replicate_succ]
  | negSucc n => simp [tally, untally]

theorem tally_ne_epoch (t : Int) : tally t ≠ epoch := by
  intro same
  have first : '1' ∈ (tally t).toList := by
    rw [same]
    decide
  cases t <;> simp [tally] at first

/-- The epoch as it is written, and a tally for every other instant: an instance on which a model can be run. -/
def tallies : TimeText where
  display t := if t = 0 then epoch else tally t
  parse text := some (if text = epoch then 0 else untally text)
  round_trip := by
    intro t
    split
    · simp_all
    · simp [tally_ne_epoch, untally_tally]

end TimeText
end Daimon.Lib
