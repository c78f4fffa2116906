import Daimon.Driver.Connector

/-!
# Connector profiles

How `ConnectorDriver::from_profiles` (`daimon-driver/src/connector.rs`) indexes the capabilities of its profiles: the
list that the agent registers and the map that `dispatch` reads.
-/

namespace Daimon.Driver
open Daimon.Core Broker

inductive TargetClass where
  | compute
  | network
  | storage
  | orchestrator
  | firewall
  deriving DecidableEq, Repr

namespace Connector

structure ProfileAuth where
  scheme : Option String
  header : Option String
  value : Option String

def ProfileAuth.toScheme (auth : ProfileAuth) : AuthScheme :=
  match auth.scheme with
  | some "none" => .none
  | some "header" =>
      match auth.header, auth.value with
      | some h, some v => .header h v
      | _, _ => .bearer
  | _ => .bearer

/-- A profile as it is parsed; the profile's own enumeration of classes mirrors `TargetClass`. -/
structure ConnectorProfile where
  name : String
  targetClass : TargetClass
  transport : ProfileTransport
  auth : Option ProfileAuth
  capabilities : List ProfileCapability

/-- The broker is left out. In `declared` the latest insertion of a name stands first. -/
structure ConnectorDriver where
  id : AgentId
  targetClass : TargetClass
  capabilities : List Capability
  declared : List (String × DeclaredCap)
  actorId : String

def ConnectorProfile.scheme (profile : ConnectorProfile) : AuthScheme :=
  (profile.auth.map ProfileAuth.toScheme).getD .bearer

namespace ConnectorDriver

def addCapability (auth : AuthScheme) (transport : ProfileTransport) (driver : ConnectorDriver)
    (cap : ProfileCapability) : ConnectorDriver :=
  { driver with
    capabilities := driver.capabilities ++ [projectCapability cap]
    declared := (cap.name, { cap, auth, transport }) :: driver.declared }

def addProfile (driver : ConnectorDriver) (profile : ConnectorProfile) : ConnectorDriver :=
  if profile.targetClass ≠ driver.targetClass then driver
  else profile.capabilities.foldl (addCapability profile.scheme profile.transport) driver

def fromProfiles (id : AgentId) (profiles : List ConnectorProfile) (actorId : String) : ConnectorDriver :=
  let targetClass := (profiles.head?.map ConnectorProfile.targetClass).getD .compute
  profiles.foldl addProfile { id, targetClass, capabilities := [], declared := [], actorId }

end ConnectorDriver
end Connector
end Daimon.Driver
