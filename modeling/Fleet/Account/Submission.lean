import Fleet.Account.Basic
import Fleet.Cloud.Operation

/-!
# Submitting a server

A new server needs the firewall of the project, which is created if it is missing.  Then the
instance is submitted under a name made from the time, and the operation that creates it is
waited for.  How that wait ends is the server's matter: the server is handed out in any case.
-/

namespace Fleet.Account

/-- The machine type of new instances. -/
def machineSize : String := "e2-small"

/-- The image of new instances. -/
def sourceImage : String :=
  "projects/ubuntu-os-cloud/global/images/family/ubuntu-2204-lts"

/-- The firewall that lets everything in to tagged instances. -/
def firewallData : Json :=
  .obj [("name", .str managedLabel), ("direction", .str "INGRESS"), ("priority", .int 1000),
    ("targetTags", .arr [.str managedLabel]),
    ("allowed", .arr [.obj [("IPProtocol", .str "all")]]),
    ("sourceRanges", .arr [.str "0.0.0.0/0"])]

/-- Create the firewall of a project if there is none. -/
def ensureFirewall (account : Account) (project : String) : Call Unit := do
  let reply ← account.client.execute (account.client.listFirewalls project managedLabel)
  if !(← Call.ofFault (reply.get "items")).truthy then
    Call.log .info s!"Creating firewall {managedLabel} in {project}"
    let operation ← account.client.execute (account.client.createFirewall project firewallData)
    let errors ← Call.ofFault (Operation.errors operation)
    if errors.truthy then throw (.setback (.firewallCreation errors))

/-- The description of a new instance. It has an ephemeral address, the tag of the firewall and
the install script. -/
def instanceData (account : Account) (instanceName name zone : String) (metrics : Bool) : Json :=
  .obj [
    ("name", .str instanceName),
    ("description", .str name),
    ("machineType", .str s!"zones/{zone}/machineTypes/{machineSize}"),
    ("disks", .arr [.obj [
      ("boot", .bool true),
      ("initializeParams", .obj [("sourceImage", .str sourceImage)])]]),
    ("networkInterfaces", .arr [.obj [
      ("network", .str "global/networks/default"),
      ("accessConfigs", .arr [.obj []])]]),
    ("labels", .obj [(managedLabel, .str "true")]),
    ("tags", .obj [("items", .arr [.str managedLabel])]),
    ("metadata", .obj [("items", .arr [
      .obj [("key", .str "enable-guest-attributes"), ("value", .str "TRUE")],
      .obj [("key", .str "user-data"),
        ("value", .str (Install.script account.settings name metrics))]])])]

/-- Wait until the instance is created, at most so many times. -/
def awaitCreation (account : Account) (waits : Nat) (zone : ZoneLocator) (operation : Json) :
    Job Json :=
  account.client.awaitZone zone operation
    (fun current => Call.log .info
      s!"Instance creation {operation.text} still {Operation.statusText current}, waiting again")
    waits

/-- Submit an instance and tell what became of the submission: the instance and the operation
that creates it. -/
def submitInstance (account : Account) (project name zone : String) (metrics : Bool)
    (instanceName : String) : Call (InstanceLocator × Json) := do
  let data := account.instanceData instanceName name zone metrics
  let operation ← account.client.execute (account.client.createInstance ⟨project, zone⟩ data)
  let errors ← Call.ofFault (Operation.errors operation)
  if errors.truthy then throw (.setback (.instanceCreation errors))
  let target ← Call.ofFault (operation.part "targetId")
  let locator : InstanceLocator := ⟨project, zone, target.text⟩
  Call.log .info s!"Submitted instance {instanceName} ({locator.instanceId}) in {zone}"
  let operationName ← Call.ofFault (operation.part "name")
  return (locator, operationName)

/-- Create a server. -/
def createServer (account : Account) (waits : Nat) (project name zone : String)
    (metrics : Bool) : Job Server := do
  account.ensureFirewall project
  let instanceName := instanceNameAt (← get).today
  let (locator, operation) ← account.submitInstance project name zone metrics instanceName
  -- a failed creation is the server's to report
  let creation ← Job.attempt (account.awaitCreation waits ⟨project, zone⟩ operation)
  account.makeServer locator (.str instanceName) (creation.map fun _ => ())

end Fleet.Account
