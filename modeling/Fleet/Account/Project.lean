import Fleet.Account.Basic
import Fleet.Cloud.Operation

/-!
# Projects for servers

A project can hold servers once it is linked to a billing account and the required services are
switched on.  Creating a project ends with these two steps, and repairing one repeats them.
-/

namespace Fleet.Account

/-- The name of new projects. -/
def projectName : String := "Outline servers"

/-- The services that a project needs. -/
def requiredServices : List String := ["compute.googleapis.com"]

/-- The seconds before every poll of an operation. -/
def operationPollInterval : Seconds := .fractional 2.0

/-- The description of a new project. -/
def projectData (project : String) : Json :=
  .obj [("projectId", .str project), ("name", .str projectName),
    ("labels", .obj [(managedLabel, .str "true")])]

/-- The link between a project and a billing account. -/
def billingData (project billingAccount : String) : Json :=
  .obj [("name", .str s!"projects/{project}/billingInfo"), ("projectId", .str project),
    ("billingAccountName", .str s!"billingAccounts/{billingAccount}")]

/-- Poll the operation that a reply names until it is done. -/
def finishOperation (account : Account) (polls : Nat) (fetch : String → Request)
    (reply : Json) : Job Unit := do
  let name ← Job.ofFault (reply.part "name")
  discard (Client.pollUntilDone (account.client.execute (fetch name.text)) name
    operationPollInterval polls)

/-- Link a project to a billing account and switch the required services on. -/
def configureProject (account : Account) (polls : Nat) (project billingAccount : String) :
    Job Unit := do
  discard (account.client.execute
    (Client.updateBillingInfo project (billingData project billingAccount)))
  let services := Json.obj [("serviceIds", .arr (requiredServices.map .str))]
  let operation ← account.client.execute (Client.enableServices project services)
  account.finishOperation polls Client.getServiceOperation operation
  Job.log .info s!"Configured billing and services for {project}"

/-- Create a project for servers. -/
def createProject (account : Account) (polls : Nat) (project billingAccount : String) :
    Job Project := do
  let operation ← account.client.execute (Client.createProject (projectData project))
  account.finishOperation polls Client.getProjectOperation operation
  Job.log .info s!"Created project {project}"
  account.configureProject polls project billingAccount
  return { id := .str project, name := .str projectName }

/-- Configure a project again. -/
def repairProject (account : Account) (polls : Nat) (project billingAccount : String) :
    Job Unit :=
  account.configureProject polls project billingAccount

/-- The name under which a service is switched on. -/
def serviceName (service : Json) : Except Fault Json := do
  let config ← service.get "config"
  let name ← (config.orElse (.obj [])).get "name"
  match name with
  | .arr _ | .obj _ => throw (.notAKey name.kind)
  | _ => return name

/-- Whether billing is enabled and the required services are switched on. -/
def isProjectHealthy (account : Account) (project : String) : Call Bool := do
  let billing ← account.client.execute (Client.getBillingInfo project)
  if !(← Call.ofFault (billing.get "billingEnabled")).truthy then return false
  let reply ← account.client.execute (Client.listEnabledServices project)
  let enabled ← Call.ofFault do (← listedItems reply "services").mapM serviceName
  return requiredServices.all fun service => enabled.any (·.isText service)

end Fleet.Account
