import Mathlib.Data.List.Infix
import Daimon.Lib.Json

/-!
# Capabilities

`daimon-core`: agent ids, versioned capabilities and their read/write disposition. The `semver`
crate is a parameter; its fields state the two facts about the requirement `*` that the code
relies on.
-/

namespace Daimon.Core
open Lib

abbrev Uuid := BitVec 128

instance : LawfulBEq Uuid := inferInstance

/-- `Uuid::to_string`: lower-case hexadecimal digits in the groups 8-4-4-4-12. -/
def Uuid.hyphenated (id : Uuid) : String :=
  let hex := (List.range 32).map fun i => Nat.digitChar ((id.toNat >>> (4 * (31 - i))) % 16)
  String.ofList (hex.take 8 ++ '-' :: (hex.drop 8).take 4 ++ '-' :: (hex.drop 12).take 4 ++
    '-' :: (hex.drop 16).take 4 ++ '-' :: hex.drop 20)

structure AgentId where
  name : String
  deriving DecidableEq, Repr

structure Version where
  major : Nat
  minor : Nat
  patch : Nat
  pre : String
  build : String
  deriving DecidableEq, Repr

def Version.new (major minor patch : Nat) : Version := ⟨major, minor, patch, "", ""⟩

/-- The `semver` crate: requirements, how they are parsed, printed and matched. -/
structure Semver where
  VersionReq : Type
  decEq : DecidableEq VersionReq
  parse : String → Except String VersionReq
  display : VersionReq → String
  satisfies : VersionReq → Version → Bool
  star : VersionReq
  parse_star : parse "*" = .ok star
  /-- `*` matches every version that is not a pre-release. -/
  satisfies_star : ∀ v : Version, satisfies star v = (v.pre == "")

instance (sv : Semver) : DecidableEq sv.VersionReq := sv.decEq

structure CompensatingCapability where
  name : String
  versionReq : Option String
  deriving DecidableEq, Repr

structure Capability where
  name : String
  version : Version
  description : Option String
  schema : Option Json
  compensating : Option CompensatingCapability
  irreversible : Bool
  deriving DecidableEq

namespace Capability

def readOnly (name : String) (version : Version) : Capability :=
  { name, version, description := none, schema := none, compensating := none, irreversible := false }

def readMarkers : List String :=
  ["_info", "_list", "list_", ".list", "_addresses", "ip_addresses",
   "_status", ".status", ".read", "_read", "read_state", "describe",
   "diagnose", ".get", "_get", "_show", "_print"]

def nameIsRead (name : String) : Bool :=
  readMarkers.any fun marker => decide (marker.toList <:+: name.toList)

def isRead (cap : Capability) : Bool :=
  cap.compensating.isNone && !cap.irreversible && nameIsRead cap.name

end Capability

/-! ## Requirements on plain versions

Caret requirements on `x.y.z` versions without pre-release or build parts, written `x.y.z` or
`^x.y.z`, and `*`: an instance on which the model can be run.
-/

namespace Semver

inductive CaretReq where
  | any
  | caret (major minor patch : Nat)
  deriving DecidableEq, Repr

def digits? (cs : List Char) : Option Nat :=
  if cs ≠ [] ∧ cs.all Char.isDigit then
    some (cs.foldl (fun n c => 10 * n + (c.toNat - '0'.toNat)) 0)
  else none

def CaretReq.parse (text : String) : Except String CaretReq :=
  if text = "*" then .ok .any
  else
    let body := if text.toList.head? = some '^' then text.toList.tail else text.toList
    match (body.splitOn '.').map digits? with
    | [some major, some minor, some patch] => .ok (.caret major minor patch)
    | _ => .error "unexpected character"

def CaretReq.display : CaretReq → String
  | .any => "*"
  | .caret major minor patch => s!"^{major}.{minor}.{patch}"

def CaretReq.satisfies : CaretReq → Version → Bool
  | .any, v => v.pre == ""
  | .caret major minor patch, v =>
      v.pre == "" && v.major == major &&
        (if 0 < major then minor < v.minor || (minor == v.minor && patch ≤ v.patch)
         else if 0 < minor then v.minor == minor && patch ≤ v.patch
         else v.minor == 0 && v.patch == patch)

def caret : Semver where
  VersionReq := CaretReq
  decEq := inferInstance
  parse := CaretReq.parse
  display := CaretReq.display
  satisfies := CaretReq.satisfies
  star := .any
  parse_star := rfl
  satisfies_star := fun _ => rfl

end Semver
end Daimon.Core
