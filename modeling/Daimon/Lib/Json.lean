import Mathlib.Data.List.Basic

/-!
# JSON values

An object keeps its fields in key order, each key once, as an ordered map does.
-/

namespace Daimon.Lib

inductive Number where
  | posInt (n : UInt64)
  | negInt (n : Int)
  | float (q : Rat)
  deriving DecidableEq

inductive Json where
  | null
  | bool (b : Bool)
  | number (n : Number)
  | string (s : String)
  | array (items : List Json)
  | object (fields : List (String × Json))

namespace Json

mutual
def decEq : (a b : Json) → Decidable (a = b)
  | .null, .null => isTrue rfl
  | .bool a, .bool b => decidable_of_iff (a = b) (by simp)
  | .number a, .number b => decidable_of_iff (a = b) (by simp)
  | .string a, .string b => decidable_of_iff (a = b) (by simp)
  | .array a, .array b =>
      match decEqItems a b with
      | isTrue h => isTrue (by rw [h])
      | isFalse h => isFalse (by simpa using h)
  | .object a, .object b =>
      match decEqFields a b with
      | isTrue h => isTrue (by rw [h])
      | isFalse h => isFalse (by simpa using h)
  | .null, .bool _ | .null, .number _ | .null, .string _ | .null, .array _ | .null, .object _
  | .bool _, .null | .bool _, .number _ | .bool _, .string _ | .bool _, .array _
  | .bool _, .object _ | .number _, .null | .number _, .bool _ | .number _, .string _
  | .number _, .array _ | .number _, .object _ | .string _, .null | .string _, .bool _
  | .string _, .number _ | .string _, .array _ | .string _, .object _ | .array _, .null
  | .array _, .bool _ | .array _, .number _ | .array _, .string _ | .array _, .object _
  | .object _, .null | .object _, .bool _ | .object _, .number _ | .object _, .string _
  | .object _, .array _ => isFalse (by simp)
termination_by structural a => a

def decEqItems : (a b : List Json) → Decidable (a = b)
  | [], [] => isTrue rfl
  | [], _ :: _ => isFalse (by simp)
  | _ :: _, [] => isFalse (by simp)
  | a :: as, b :: bs =>
      match decEq a b, decEqItems as bs with
      | isTrue h, isTrue hs => isTrue (by rw [h, hs])
      | isFalse h, _ => isFalse (by simp [h])
      | _, isFalse hs => isFalse (by simp [hs])
termination_by structural a => a

def decEqFields : (a b : List (String × Json)) → Decidable (a = b)
  | [], [] => isTrue rfl
  | [], _ :: _ => isFalse (by simp)
  | _ :: _, [] => isFalse (by simp)
  | a :: as, b :: bs =>
      match decEqField a b, decEqFields as bs with
      | isTrue h, isTrue hs => isTrue (by rw [h, hs])
      | isFalse h, _ => isFalse (by simp [h])
      | _, isFalse hs => isFalse (by simp [hs])
termination_by structural a => a

def decEqField : (a b : String × Json) → Decidable (a = b)
  | (k, a), (l, b) =>
      match decEq a b with
      | isTrue h => decidable_of_iff (k = l) (by simp [h])
      | isFalse h => isFalse (by simp [h])
termination_by structural a => a
end

instance : DecidableEq Json := decEq

instance : Inhabited Json := ⟨.null⟩

def get? (key : String) : Json → Option Json
  | .object fields => fields.lookup key
  | _ => none

def asStr? : Json → Option String
  | .string s => some s
  | _ => none

def asBool? : Json → Option Bool
  | .bool b => some b
  | _ => none

def asU64? : Json → Option UInt64
  | .number (.posInt n) => some n
  | _ => none

/-- The strings of a map, read back. -/
theorem mapM_strings (entries : List (String × String)) :
    (entries.map fun entry => (entry.1, Json.string entry.2)).mapM
      (fun field => field.2.asStr?.map fun value => (field.1, value)) = some entries := by
  induction entries with
  | nil => rfl
  | cons entry rest ih =>
      rw [List.map_cons, List.mapM_cons, ih]
      rfl

/-- Insert into an ordered map: the value of an existing key is replaced. -/
def insertField (key : String) (value : Json) : List (String × Json) → List (String × Json)
  | [] => [(key, value)]
  | (k, v) :: rest =>
      if key = k then (key, value) :: rest
      else if key < k then (key, value) :: (k, v) :: rest
      else (k, v) :: insertField key value rest

def ofFields (pairs : List (String × Json)) : Json :=
  .object (pairs.foldl (fun fields p => insertField p.1 p.2 fields) [])

theorem lookup_insertField_self (key : String) (value : Json) (fields : List (String × Json)) :
    (insertField key value fields).lookup key = some value := by
  induction fields with
  | nil => simp [insertField]
  | cons field rest ih =>
      obtain ⟨k, v⟩ := field
      simp only [insertField]
      split_ifs with same before
      · simp
      · simp
      · have other : (key == k) = false := by simpa using same
        simp [List.lookup_cons, other, ih]

theorem lookup_insertField_of_ne {key other : String} (distinct : other ≠ key) (value : Json)
    (fields : List (String × Json)) :
    (insertField key value fields).lookup other = fields.lookup other := by
  have skip : (other == key) = false := by simpa using distinct
  induction fields with
  | nil => simp [insertField, List.lookup_cons, skip]
  | cons field rest ih =>
      obtain ⟨k, v⟩ := field
      simp only [insertField]
      split_ifs with same before
      · subst same
        simp [List.lookup_cons, skip]
      · simp [List.lookup_cons, skip]
      · simp [List.lookup_cons, ih]

end Json
end Daimon.Lib
