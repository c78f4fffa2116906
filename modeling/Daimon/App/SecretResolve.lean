import Daimon.Vault.Store

/-!
# References in settings

`resolve_maybe_ref` (`daimon-app/src/secret_resolve.rs`) opens a `vault://` value of the settings through the broker's
listing and `vault_reveal`. The broker path parses the same kind of text as a `CredentialRef` and resolves that.
-/

namespace Daimon.App
open Daimon.Core Daimon.Broker Daimon.Vault

variable (collation : String → String → Bool)

def findMetadata (t : Credentials) (credName : String) : Option CredentialRow :=
  (listMetadata collation t).find? fun m => m.name = credName

def resolveVaultApiToken (t : Credentials) (credName : String) : Option String :=
  match findMetadata collation t credName with
  | some found =>
      match reveal t found.id with
      | .ok (.apiToken token) => some token
      | _ => none
  | none => none

def resolveMaybeRef (t : Credentials) (value : String) : Option String :=
  match stripPrefix? "vault://" value with
  | some name => resolveVaultApiToken collation t name
  | none => if value = "" then none else some value

/-! ## The credential that each path selects -/

/-- The credential that `vault_reveal` is called for. -/
def settingsSelects (t : Credentials) (value : String) : Option Uuid :=
  (stripPrefix? "vault://" value).bind fun name => (findMetadata collation t name).map CredentialRow.id

/-- The credential that the broker resolves: `CredentialRef::parse`, then the row of its name. -/
def brokerSelects (t : Credentials) (text : String) : Option Uuid :=
  match CredentialRef.parse text with
  | .ok ref =>
      match resolveRow t ref with
      | .ok row => some row.id
      | .error _ => none
  | .error _ => none

end Daimon.App
