import Fleet.Cloud.Client
import Fleet.Zone

/-!
# Requests for resources

Every resource of the platform has its URL, made of the locator of what contains it and its own
name.  These are the requests that the program makes, one function for each.
-/

namespace Fleet.Client

/-! ## §1 URLs -/

/-- The URL of a path of the compute API. -/
def computeUrl (client : Client) (path : String) : String :=
  client.computeBase ++ "/" ++ path

/-- The path of a zone. -/
def zonePath (l : ZoneLocator) : String :=
  "projects/" ++ l.project ++ "/zones/" ++ l.zone

/-- The path of a region. -/
def regionPath (l : RegionLocator) : String :=
  "projects/" ++ l.project ++ "/regions/" ++ l.region

/-- The path of an instance. -/
def instancePath (l : InstanceLocator) : String :=
  zonePath l.zoneLocator ++ "/instances/" ++ l.instanceId

/-- The root of the resource manager. -/
def resourceManagerBase : String := "https://cloudresourcemanager.googleapis.com/v1"

/-- The root of the billing API. -/
def billingBase : String := "https://cloudbilling.googleapis.com/v1"

/-- The root of the service usage API. -/
def serviceUsageBase : String := "https://serviceusage.googleapis.com/v1"

/-- The URL of the description of the signed-in user. -/
def userInfoUrl : String := "https://openidconnect.googleapis.com/v1/userinfo"

/-! ## §2 Instances -/

/-- Submit an instance. -/
def createInstance (client : Client) (l : ZoneLocator) (data : Json) : Request :=
  { method := "POST", url := client.computeUrl (zonePath l ++ "/instances"), body := data }

/-- Describe an instance. -/
def getInstance (client : Client) (l : InstanceLocator) : Request :=
  { method := "GET", url := client.computeUrl (instancePath l) }

/-- Delete an instance. -/
def deleteInstance (client : Client) (l : InstanceLocator) : Request :=
  { method := "DELETE", url := client.computeUrl (instancePath l) }

/-- One page of the instances of a project in all its zones. -/
def listInstances (client : Client) (project : String) (selection : Option String)
    (pageToken : Json) : Request :=
  let selected := match TokenStore.usable selection with
    | some s => [("filter", Json.str s)]
    | none => []
  let paged := if pageToken.truthy then [("pageToken", pageToken)] else []
  { method := "GET"
    url := client.computeUrl ("projects/" ++ project ++ "/aggregated/instances")
    params := .obj (selected ++ paged) }

/-- The guest attributes of an instance in a namespace. -/
def getGuestAttributes (client : Client) (l : InstanceLocator) (space : String) : Request :=
  { method := "GET"
    url := client.computeUrl (instancePath l ++ "/getGuestAttributes")
    params := .obj [("queryPath", .str space)] }

/-! ## §3 Addresses -/

/-- Reserve a static address. -/
def createAddress (client : Client) (l : RegionLocator) (data : Json) : Request :=
  { method := "POST", url := client.computeUrl (regionPath l ++ "/addresses"), body := data }

/-- Describe a static address. -/
def getAddress (client : Client) (l : RegionLocator) (name : String) : Request :=
  { method := "GET", url := client.computeUrl (regionPath l ++ "/addresses/" ++ name) }

/-- Release a static address. -/
def deleteAddress (client : Client) (l : RegionLocator) (name : String) : Request :=
  { method := "DELETE", url := client.computeUrl (regionPath l ++ "/addresses/" ++ name) }

/-! ## §4 Firewalls and zones -/

/-- The URL of the firewalls of a project. -/
def firewallsUrl (client : Client) (project : String) : String :=
  client.computeUrl ("projects/" ++ project ++ "/global/firewalls")

/-- The firewalls of a name. -/
def listFirewalls (client : Client) (project name : String) : Request :=
  { method := "GET"
    url := client.firewallsUrl project
    params := .obj [("filter", .str ("name=" ++ name))] }

/-- Create a firewall. -/
def createFirewall (client : Client) (project : String) (data : Json) : Request :=
  { method := "POST", url := client.firewallsUrl project, body := data }

/-- The zones of a project. -/
def listZones (client : Client) (project : String) : Request :=
  { method := "GET", url := client.computeUrl ("projects/" ++ project ++ "/zones") }

/-! ## §5 Compute operations -/

/-- Wait for an operation of a zone. -/
def waitZoneOperation (client : Client) (l : ZoneLocator) (name : String) : Request :=
  { method := "POST"
    url := client.computeUrl (zonePath l ++ "/operations/" ++ name ++ "/wait") }

/-- Wait for an operation of a region. -/
def waitRegionOperation (client : Client) (l : RegionLocator) (name : String) : Request :=
  { method := "POST"
    url := client.computeUrl (regionPath l ++ "/operations/" ++ name ++ "/wait") }

/-- Wait for an operation of a whole project. -/
def waitGlobalOperation (client : Client) (project name : String) : Request :=
  { method := "POST"
    url := client.computeUrl ("projects/" ++ project ++ "/global/operations/" ++ name ++ "/wait") }

/-! ## §6 Projects, billing and services -/

/-- Create a project. -/
def createProject (data : Json) : Request :=
  { method := "POST", url := resourceManagerBase ++ "/projects", body := data }

/-- The projects that a filter selects, or all. -/
def listProjects (selection : Option String) : Request :=
  { method := "GET"
    url := resourceManagerBase ++ "/projects"
    params := match TokenStore.usable selection with
      | some s => .obj [("filter", .str s)]
      | none => .null }

/-- An operation of the resource manager. -/
def getProjectOperation (name : String) : Request :=
  { method := "GET", url := resourceManagerBase ++ "/" ++ name }

/-- The URL of the billing information of a project. -/
def billingInfoUrl (project : String) : String :=
  billingBase ++ "/projects/" ++ project ++ "/billingInfo"

/-- The billing information of a project. -/
def getBillingInfo (project : String) : Request :=
  { method := "GET", url := billingInfoUrl project }

/-- Link a project to a billing account. -/
def updateBillingInfo (project : String) (data : Json) : Request :=
  { method := "PUT", url := billingInfoUrl project, body := data }

/-- The billing accounts of the user. -/
def listBillingAccounts : Request :=
  { method := "GET", url := billingBase ++ "/billingAccounts" }

/-- Switch on services of a project. -/
def enableServices (project : String) (data : Json) : Request :=
  { method := "POST"
    url := serviceUsageBase ++ "/projects/" ++ project ++ "/services:batchEnable"
    body := data }

/-- The services of a project that are switched on. -/
def listEnabledServices (project : String) : Request :=
  { method := "GET"
    url := serviceUsageBase ++ "/projects/" ++ project ++ "/services"
    params := .obj [("filter", .str "state:ENABLED")] }

/-- An operation of the service usage API. -/
def getServiceOperation (name : String) : Request :=
  { method := "GET", url := serviceUsageBase ++ "/" ++ name }

/-- The signed-in user. -/
def getUserInfo : Request :=
  { method := "GET", url := userInfoUrl }

end Fleet.Client
