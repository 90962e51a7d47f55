import Fleet.Cloud.Listing
import Fleet.Install.Script
import Fleet.Server.Basic

/-!
# Accounts

An account carries out all its requests with one client and makes its servers with the same
settings.  This module has what an account can look up: its user, its servers, the locations for
new ones, its projects and its billing accounts.
-/

namespace Fleet

/-- An account of the cloud platform. -/
structure Account where
  id : String
  client : Client := {}
  settings : InstallSettings := {}
  pollInterval : Option Seconds := none
  installTimeout : Option Seconds := none
deriving Inhabited

/-- A zone offered for new servers. -/
structure ZoneOption where
  zone : Json
  available : Bool
deriving Inhabited

/-- A project. -/
structure Project where
  id : Json
  name : Json
deriving Inhabited

/-- A billing account. -/
structure BillingAccount where
  id : String
  name : Json
deriving Inhabited

namespace Account

/-- The label, the tag and the name of all that belongs to managed servers. -/
def managedLabel : String := "outline"

/-- A server of the account. -/
def makeServer (account : Account) (locator : InstanceLocator) (name : Json)
    (creation : Except Failure Unit) : StateM World Server :=
  Server.make account.client (account.id ++ ":" ++ locator.instanceId) locator name creation
    account.pollInterval account.installTimeout

/-- The e-mail address of the signed-in user. -/
def getName (account : Account) : Call Json := do
  let user ← account.client.execute Client.getUserInfo
  Call.ofFault (user.get "email")

/-! ## §1 Servers -/

/-- The locator and the name of a listed instance. -/
def listedInstance (project : String) (data : Json) :
    Except Failure (InstanceLocator × Json) := do
  let url ← (data.part "zone").mapError .fault
  let zone ← ZoneLocator.ofUrl url
  let id ← (data.part "id").mapError .fault
  let name ← (data.part "name").mapError .fault
  return (⟨project, zone.zone, id.text⟩, name)

/-- The servers of listed instances, one after the other. -/
def serversOf (account : Account) (project : String) : List Json → Call (List Server)
  | [] => return []
  | data :: rest => do
    let (locator, name) ← ofExcept (listedInstance project data)
    let server ← account.makeServer locator name (.ok ())
    return server :: (← serversOf account project rest)

/-- The servers of a project: its instances with the managed label, on at most so many pages. -/
def listServers (account : Account) (pages : Nat) (project : String) : Job (List Server) := do
  let instances ← account.client.listAllInstances pages project s!"labels.{managedLabel}=true"
  let servers ← account.serversOf project instances
  Job.log .info s!"Found {servers.length} server(s) in {project}"
  return servers

/-! ## §2 Locations, projects and billing accounts -/

/-- The present items of a member of a reply. -/
def listedItems (reply : Json) (name : String) : Except Fault (List Json) := do
  ((← reply.get name).orElse (.arr [])).elements

/-- The zones of a project, and whether each can be used. -/
def listLocations (account : Account) (project : String) : Call (List ZoneOption) := do
  let reply ← account.client.execute (account.client.listZones project)
  Call.ofFault do
    (← listedItems reply "items").mapM fun zone => do
      let name ← zone.part "name"
      let status ← zone.get "status"
      return { zone := name, available := status.isText "UP" }

/-- The projects for managed servers. -/
def listProjects (account : Account) : Call (List Project) := do
  let reply ← account.client.execute
    (Client.listProjects s!"labels.{managedLabel}=true AND lifecycleState=ACTIVE")
  Call.ofFault do
    (← listedItems reply "projects").mapM fun project => do
      let id ← project.part "projectId"
      let name ← project.getD "name" (.str "")
      return { id, name }

/-- What follows the last slash. -/
def lastSegment (path : String) : String :=
  String.ofList (path.toList.reverse.takeWhile (· != '/')).reverse

/-- One billing account of a reply, if it is open. -/
def openBillingAccount? (data : Json) : Except Fault (Option BillingAccount) := do
  -- a closed account need not have a name
  if (← data.get "open").truthy then
    match ← data.part "name" with
    | .str path =>
      let name ← data.getD "displayName" (.str "")
      return some { id := lastSegment path, name }
    | other => throw (.noOperation other.kind "rsplit")
  else return none

/-- The billing accounts that are open. -/
def listOpenBillingAccounts (account : Account) : Call (List BillingAccount) := do
  let reply ← account.client.execute Client.listBillingAccounts
  Call.ofFault do
    let accounts ← (← listedItems reply "billingAccounts").mapM openBillingAccount?
    return accounts.filterMap fun found => found

end Account

end Fleet
