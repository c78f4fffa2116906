import Daimon.Lib.Lists
import Daimon.Lib.Serde

/-!
# JSON schemas

Whether a value satisfies a schema, for the keywords `type`, `required` and `properties`; the others say nothing.
-/

namespace Daimon.Lib

def Number.isInteger : Number → Bool
  | .posInt _ | .negInt _ => true
  | .float q => q.den == 1

namespace Json

def hasType (type : String) : Json → Bool
  | .null => type == "null"
  | .bool _ => type == "boolean"
  | .number n => type == "number" || type == "integer" && n.isInteger
  | .string _ => type == "string"
  | .array _ => type == "array"
  | .object _ => type == "object"

/-- Every name is a key of the object; a value of another type is not looked at. -/
def hasKeys (names : List Json) : Json → Bool
  | .object fields => names.all fun
      | .string name => (fields.lookup name).isSome
      | _ => true
  | _ => true

mutual
def conforms (value : Json) : Json → Bool
  | .object keywords => conformsAll value keywords
  | .bool b => b
  | _ => true
termination_by structural schema => schema

def conformsAll (value : Json) : List (String × Json) → Bool
  | [] => true
  | keyword :: rest => conformsKeyword value keyword && conformsAll value rest
termination_by structural keywords => keywords

def conformsKeyword (value : Json) : String × Json → Bool
  | (keyword, .string type) => keyword != "type" || value.hasType type
  | (keyword, .array names) => keyword != "required" || value.hasKeys names
  | (keyword, .object properties) => keyword != "properties" || conformsProperties value properties
  | _ => true
termination_by structural keyword => keyword

def conformsProperties (value : Json) : List (String × Json) → Bool
  | [] => true
  | property :: rest => conformsProperty value property && conformsProperties value rest
termination_by structural properties => properties

def conformsProperty (value : Json) : String × Json → Bool
  | (name, schema) =>
      match value.get? name with
      | some v => conforms v schema
      | none => true
termination_by structural property => property
end

/-- The names that a schema requires. -/
def required (schema : Json) : List String :=
  match schema.get? "required" with
  | some (.array names) => names.filterMap asStr?
  | _ => []

theorem conformsKeyword_of_mem {value : Json} {keywords : List (String × Json)} (all : conformsAll value keywords = true)
    {keyword : String × Json} (member : keyword ∈ keywords) : conformsKeyword value keyword = true := by
  induction keywords with
  | nil => cases member
  | cons first rest ih =>
      rw [conformsAll, Bool.and_eq_true] at all
      rcases List.mem_cons.mp member with rfl | among
      · exact all.1
      · exact ih all.2 among

section Keywords
variable {value schema v : Json} (conforming : value.conforms schema = true)
include conforming

theorem conforms_keyword {keyword : String} (found : schema.get? keyword = some v) :
    conformsKeyword value (keyword, v) = true := by
  cases schema with
  | object keywords =>
      rw [conforms] at conforming
      exact conformsKeyword_of_mem conforming (mem_of_lookup found)
  | _ => cases found

theorem hasType_of_conforms {type : String} (found : schema.get? "type" = some (.string type)) :
    value.hasType type = true := by
  simpa [conformsKeyword] using conforms_keyword conforming found

theorem hasKeys_of_conforms {names : List Json} (found : schema.get? "required" = some (.array names)) :
    value.hasKeys names = true := by
  simpa [conformsKeyword] using conforms_keyword conforming found

/-- A conforming object has every required name. -/
theorem isSome_of_required (type : schema.get? "type" = some (.string "object")) {name : String}
    (member : name ∈ schema.required) : (value.get? name).isSome = true := by
  unfold required at member
  split at member
  · rename_i names found
    obtain ⟨json, among, text⟩ := List.mem_filterMap.mp member
    have keys := hasKeys_of_conforms conforming found
    have shape := hasType_of_conforms conforming type
    cases value with
    | object fields =>
        have one := List.all_eq_true.mp keys json among
        cases json <;> cases text
        exact one
    | number n => simp [hasType] at shape
    | _ => simp [hasType] at shape
  · cases member

end Keywords

end Json
end Daimon.Lib
