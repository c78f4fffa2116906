import Daimon.Broker.Request

/-!
# Parameter classes

`param::validate` (`daimon-driver/src/param.rs`): the character class that a parameter has to satisfy before
it is put into a command.
-/

namespace Daimon.Driver
open Broker (isAsciiHexDigit)

inductive ParamClass where
  | safeText
  | cidr
  | identifier
  | int
  | enum (allowed : List String)
  deriving DecidableEq, Repr

inductive ParamError where
  | empty
  | disallowedChar (ch : Char) (cls value : String)
  | malformed (value cls : String)
  | notInEnum (value : String) (allowed : List String)
  deriving DecidableEq, Repr

def isSafeTextChar (c : Char) : Bool := c.isAlphanum || [' ', '.', '/', '-', '_', ':', '!', '@'].contains c

def isCidrChar (c : Char) : Bool := isAsciiHexDigit c || ['.', ':', '/'].contains c

def isIdentifierChar (c : Char) : Bool := c.isAlphanum || ['_', '-'].contains c

def parseDigits (cs : List Char) : Option Nat :=
  if !cs.isEmpty && cs.all Char.isDigit then
    some (cs.foldl (fun n c => 10 * n + (c.toNat - '0'.toNat)) 0)
  else none

def parseU8 (text : List Char) : Option Nat :=
  let digits := match text with
    | '+' :: rest => rest
    | _ => text
  (parseDigits digits).filter (· ≤ 255)

def parseI64 (text : List Char) : Option Int :=
  match text with
  | '-' :: rest => ((parseDigits rest).filter (· ≤ 0x8000000000000000)).map fun n => -(n : Int)
  | '+' :: rest => ((parseDigits rest).filter (· < 0x8000000000000000)).map fun n => (n : Int)
  | _ => ((parseDigits text).filter (· < 0x8000000000000000)).map fun n => (n : Int)

def validateChars (allowed : Char → Bool) (cls value : String) : Except ParamError Unit :=
  if value = "" then .error .empty
  else
    match value.toList.find? fun c => !allowed c with
    | some ch => .error (.disallowedChar ch cls value)
    | none => .ok ()

/-- An address, and a prefix length of at most 128 after the first slash. -/
def cidrShape (value : String) : Bool :=
  let addr := value.toList.takeWhile (· != '/')
  match value.toList.dropWhile (· != '/') with
  | [] => !addr.isEmpty
  | _ :: suffix => !addr.isEmpty &&
      match parseU8 suffix with
      | some length => length ≤ 128
      | none => false

def validate (value : String) : ParamClass → Except ParamError Unit
  | .safeText => validateChars isSafeTextChar "SafeText" value
  | .cidr =>
      match validateChars isCidrChar "Cidr" value with
      | .error e => .error e
      | .ok () => if cidrShape value then .ok () else .error (.malformed value "Cidr")
  | .identifier => validateChars isIdentifierChar "Identifier" value
  | .int => if (parseI64 value.toList).isSome then .ok () else .error (.malformed value "Int")
  | .enum allowed => if value ∈ allowed then .ok () else .error (.notInEnum value allowed)

end Daimon.Driver
