import Daimon.Driver.Profiles
import Daimon.Proof.Driver.Injection
import Daimon.Runtime.Bus

/-!
# Routing by version

A connector advertises every version that its profiles declare and is addressed by any of them, but it dispatches by
the name alone, to the version that was declared last.
-/

namespace Daimon.Proof.Driver
open Daimon.Core Lib Daimon.Driver Daimon.Driver.Connector Daimon.Runtime

/-! ## What is declared -/

def driverClass (profiles : List ConnectorProfile) : TargetClass :=
  (profiles.head?.map ConnectorProfile.targetClass).getD .compute

def ConnectorProfile.declares (profile : ConnectorProfile) : List DeclaredCap :=
  profile.capabilities.map fun cap => { cap, auth := profile.scheme, transport := profile.transport }

/-- The capabilities of the profiles of the driver's class, in the order of their declaration. -/
def declares (profiles : List ConnectorProfile) : List DeclaredCap :=
  (profiles.filter fun p => p.targetClass = driverClass profiles).flatMap ConnectorProfile.declares

/-- The last declaration of its name. -/
def LastDeclared (profiles : List ConnectorProfile) (name : String) (d : DeclaredCap) : Prop :=
  ∃ before after, declares profiles = before ++ d :: after ∧ d.cap.name = name ∧ ∀ e ∈ after, e.cap.name ≠ name

variable {sv : Semver} {profiles : List ConnectorProfile} {id : AgentId} {actorId : String}

/-- A request that the agent handles is dispatched to a capability with the name and a version that it was addressed by. -/
def Routed (profiles : List ConnectorProfile) (driver : ConnectorDriver) (env : AgentEnvelope sv)
    (capability : String) : Prop :=
  ∀ name versionReq d, env.recipient = .byCapability name versionReq →
    envelopeAddressedTo env driver.id driver.capabilities = true → driver.declared.lookup capability = some d →
    (∃ profile ∈ profiles, d.cap ∈ profile.capabilities) ∧ d.cap.name = name ∧ sv.satisfies versionReq d.cap.version = true

/-! ## The three views -/

theorem foldl_addCapability (auth : Broker.AuthScheme) (transport : ProfileTransport) (driver : ConnectorDriver)
    (caps : List ProfileCapability) : caps.foldl (ConnectorDriver.addCapability auth transport) driver =
      { driver with
        capabilities := driver.capabilities ++ caps.map projectCapability
        declared := (caps.map fun cap => (cap.name, ⟨cap, auth, transport⟩)).reverse ++ driver.declared } := by
  induction caps generalizing driver with
  | nil => simp
  | cons cap caps ih => simp [ih, ConnectorDriver.addCapability]

def entry (d : DeclaredCap) : String × DeclaredCap := (d.cap.name, d)

theorem addProfile_eq (driver : ConnectorDriver) (profile : ConnectorProfile)
    (own : profile.targetClass = driver.targetClass) : driver.addProfile profile =
      { driver with
        capabilities := driver.capabilities ++ (ConnectorProfile.declares profile).map (projectCapability ·.cap)
        declared := ((ConnectorProfile.declares profile).map entry).reverse ++ driver.declared } := by
  rw [ConnectorDriver.addProfile, if_neg (not_not.mpr own), foldl_addCapability]
  simp [ConnectorProfile.declares, entry, Function.comp_def]

theorem foldl_addProfile (driver : ConnectorDriver) (profiles : List ConnectorProfile) :
    profiles.foldl ConnectorDriver.addProfile driver =
      let added := (profiles.filter fun p => p.targetClass = driver.targetClass).flatMap ConnectorProfile.declares
      { driver with
        capabilities := driver.capabilities ++ added.map (projectCapability ·.cap)
        declared := (added.map entry).reverse ++ driver.declared } := by
  induction profiles generalizing driver with
  | nil => simp
  | cons profile profiles ih =>
      rw [List.foldl_cons]
      by_cases own : profile.targetClass = driver.targetClass
      · simp [addProfile_eq driver profile own, ih, own]
      · simp [ConnectorDriver.addProfile, ih, own]

theorem fromProfiles_eq (id : AgentId) (profiles : List ConnectorProfile) (actorId : String) :
    ConnectorDriver.fromProfiles id profiles actorId =
      { id, actorId, targetClass := driverClass profiles
        capabilities := (declares profiles).map (projectCapability ·.cap)
        declared := ((declares profiles).map entry).reverse } := by
  rw [ConnectorDriver.fromProfiles, foldl_addProfile]
  simp only [List.nil_append, List.append_nil]
  rfl

theorem lookup_declared_iff {name : String} {d : DeclaredCap} :
    (ConnectorDriver.fromProfiles id profiles actorId).declared.lookup name = some d ↔ LastDeclared profiles name d := by
  rw [fromProfiles_eq, List.lookup_eq_some_iff]
  constructor
  · rintro ⟨later, earlier, split, other⟩
    have split : (declares profiles).map entry = earlier.reverse ++ (name, d) :: later.reverse := by
      simpa using congrArg List.reverse split
    obtain ⟨before, rest, listed, isBefore, isRest⟩ := List.map_eq_append_iff.mp split
    obtain ⟨d', after, rfl, isEntry, isAfter⟩ := List.map_eq_cons_iff.mp isRest
    obtain ⟨named, rfl⟩ := Prod.mk.inj isEntry
    refine ⟨before, after, listed, named, fun e member same => ?_⟩
    have among : entry e ∈ later := List.mem_reverse.mp (isAfter ▸ List.mem_map_of_mem member)
    simpa [entry, same] using other _ among
  · rintro ⟨before, after, listed, rfl, other⟩
    refine ⟨(after.map entry).reverse, (before.map entry).reverse, by simp [listed, entry], fun p member => ?_⟩
    obtain ⟨e, among, rfl⟩ := List.mem_map.mp (List.mem_reverse.mp member)
    simpa [entry, bne_iff_ne] using (other e among).symm

theorem projectCapability_name (cap : ProfileCapability) : (projectCapability cap).name = cap.name := by
  unfold projectCapability
  split <;> rfl

theorem projectCapability_version (cap : ProfileCapability) : (projectCapability cap).version = cap.version := by
  unfold projectCapability
  split <;> rfl

theorem mem_declares {d : DeclaredCap} (member : d ∈ declares profiles) :
    ∃ profile ∈ profiles, d.cap ∈ profile.capabilities := by
  obtain ⟨profile, own, declared⟩ := List.mem_flatMap.mp member
  obtain ⟨cap, among, rfl⟩ := List.mem_map.mp declared
  exact ⟨profile, List.mem_of_mem_filter own, among⟩

/-! ## Routing -/

theorem fromProfiles_id (profiles : List ConnectorProfile) (id : AgentId) (actorId : String) :
    (ConnectorDriver.fromProfiles id profiles actorId).id = id := by rw [fromProfiles_eq]

theorem agrees_of_routed {env : AgentEnvelope sv} {capability name : String} {versionReq : sv.VersionReq} {d : DeclaredCap}
    (routed : Routed profiles (.fromProfiles id profiles actorId) env capability)
    (recipient : env.recipient = .byCapability name versionReq)
    (addressed : envelopeAddressedTo env id (ConnectorDriver.fromProfiles id profiles actorId).capabilities = true)
    (last : LastDeclared profiles capability d) : capability = name ∧ sv.satisfies versionReq d.cap.version = true := by
  obtain ⟨-, named, satisfied⟩ := routed name versionReq d recipient (by rwa [fromProfiles_id])
    ((lookup_declared_iff).mpr last)
  obtain ⟨-, -, -, same, -⟩ := last
  exact ⟨same.symm.trans named, satisfied⟩

theorem routed_of_agrees {env : AgentEnvelope sv} {capability : String}
    (agrees : ∀ name versionReq d, env.recipient = .byCapability name versionReq →
      envelopeAddressedTo env id (ConnectorDriver.fromProfiles id profiles actorId).capabilities = true →
      LastDeclared profiles capability d → capability = name ∧ sv.satisfies versionReq d.cap.version = true) :
    Routed profiles (.fromProfiles id profiles actorId) env capability := by
  intro name versionReq d recipient addressed found
  have last := (lookup_declared_iff).mp found
  obtain ⟨rfl, satisfied⟩ := agrees name versionReq d recipient (by rwa [fromProfiles_id] at addressed) last
  obtain ⟨before, after, listed, named, -⟩ := last
  exact ⟨mem_declares (listed ▸ List.mem_append_right _ List.mem_cons_self), named, satisfied⟩

/-- A request is routed to what it was addressed by exactly if it names the same capability in its body and the version
that was declared last satisfies its requirement. -/
theorem version_routing_iff (profiles : List ConnectorProfile) (id : AgentId) (actorId : String)
    (env : AgentEnvelope sv) (capability : String) :
    Routed profiles (.fromProfiles id profiles actorId) env capability ↔
      ∀ name versionReq d, env.recipient = .byCapability name versionReq →
        envelopeAddressedTo env id (ConnectorDriver.fromProfiles id profiles actorId).capabilities = true →
        LastDeclared profiles capability d → capability = name ∧ sv.satisfies versionReq d.cap.version = true := by
  constructor
  · intro routed name versionReq d recipient addressed last
    exact agrees_of_routed routed recipient addressed last
  · exact routed_of_agrees

/-- If each name is declared once, a request that names the capability it is addressed by is routed. -/
theorem routed_of_nodup (single : ((declares profiles).map fun d => d.cap.name).Nodup) (env : AgentEnvelope sv)
    {name : String} {versionReq : sv.VersionReq} (recipient : env.recipient = .byCapability name versionReq) :
    Routed profiles (.fromProfiles id profiles actorId) env name := by
  apply routed_of_agrees
  intro name' versionReq' d recipient' addressed last
  obtain ⟨rfl, rfl⟩ := Recipient.byCapability.inj (recipient.symm.trans recipient')
  refine ⟨rfl, ?_⟩
  rw [envelopeAddressedTo, recipient, fromProfiles_eq] at addressed
  obtain ⟨cap, advertised, matched⟩ := List.any_eq_true.mp addressed
  obtain ⟨e, declared, rfl⟩ := List.mem_map.mp advertised
  obtain ⟨before, after, listed, named, -⟩ := last
  have member : d ∈ declares profiles := listed ▸ List.mem_append_right _ List.mem_cons_self
  rw [Bool.and_eq_true, beq_iff_eq, projectCapability_name, projectCapability_version] at matched
  obtain rfl := List.inj_on_of_nodup_map single declared member (matched.1.trans named.symm)
  exact matched.2

/-! ## Two versions of a capability -/

def restartVersion (major : Nat) (command : String) : ProfileCapability :=
  { restartService.cap with
    version := .new major 0 0
    op := { restartService.cap.op with command := some command } }

def twoVersions : ConnectorProfile where
  name := "linux"
  targetClass := .compute
  transport := .ssh
  auth := none
  capabilities := [restartVersion 1 "systemctl restart {service}", restartVersion 2 "systemctl kill {service}"]

def restartRequest : AgentEnvelope Semver.caret where
  correlationId := 0
  sender := ⟨"operator"⟩
  recipient := .byCapability "compute.linux.service_restart" (.caret 1 0 0)
  body := .null

/-- The request is for version 1, and version 2 is rendered. -/
theorem version_two_rendered :
    let driver := ConnectorDriver.fromProfiles ⟨"connector:compute"⟩ [twoVersions] "connector"
    envelopeAddressedTo restartRequest driver.id driver.capabilities = true ∧
      (∃ req, dispatchRequest sampleTexts driver.declared "operator" "compute.linux.service_restart" "target://web"
        (.object [("service", .string "nginx")]) 30 = .ok req ∧ req.op = .shellCommand "systemctl kill nginx" 30) ∧
      ¬ Routed [twoVersions] driver restartRequest "compute.linux.service_restart" := by
  refine ⟨by decide +kernel, ⟨_, rfl, rfl⟩, fun routed => ?_⟩
  obtain ⟨-, -, satisfied⟩ := routed "compute.linux.service_restart" (.caret 1 0 0) _ rfl (by decide +kernel) rfl
  exact absurd satisfied (by decide +kernel)

end Daimon.Proof.Driver
