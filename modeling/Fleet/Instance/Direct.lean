import Fleet.Cloud.Client
import Fleet.Instance.Info
import Fleet.Instance.Name

/-!
# The direct instance API

Here the creation of an instance answers with the instance itself.  An SSH key is registered
first, under the same name.  While an instance of that name is still being removed the creation is
refused with the word "finalizing", and is tried again up to ten times.
-/

namespace Fleet

/-- What an instance of the direct API is made of. -/
structure InstanceSpecification where
  installCommand : Json
  size : Json
  image : Json
  tags : Json
deriving Inhabited

/-- The direct API of one account. -/
structure DirectApi where
  client : Client := {}
  base : String := "https://compute.api.cloud.yandex.net/compute/v1"
deriving Inhabited

namespace DirectApi

/-- The direct API at another root; slashes at its end do not matter. -/
def ofBase (base : String) : DirectApi :=
  { base := Text.dropTrailingSlashes base }

/-- Carry out a request for a path below the root. -/
def request (api : DirectApi) (method path : String) (params body : Json := .null) : Call Json :=
  api.client.execute { method, url := api.base ++ "/" ++ path, params, body }

/-- The account, as the API describes it. -/
def getAccount (api : DirectApi) : Call Json := do
  Call.log .info "Requesting account"
  Call.ofFault ((← api.request "GET" "account").getD "account" (.obj []))

/-- The regions, as the API describes them. -/
def getRegions (api : DirectApi) : Call Json := do
  Call.log .info "Requesting region info"
  Call.ofFault ((← api.request "GET" "regions").getD "regions" (.arr []))

/-- Delete an instance. -/
def deleteInstance (api : DirectApi) (id : String) : Call Unit := do
  Call.log .info "Requesting instance deletion"
  discard (api.request "DELETE" ("instances/" ++ id))

/-- The instance of an identifier. -/
def getInstance (api : DirectApi) (id : String) : Call InstanceInfo := do
  Call.log .info "Requesting instance"
  ofExcept (InstanceInfo.ofReply (← api.request "GET" ("instances/" ++ id)))

/-- The tags of an instance. -/
def getInstanceTags (api : DirectApi) (id : String) : Call (List Json) := do
  return (← api.getInstance id).tags

/-- The instances that a reply lists. -/
def listed (reply : Json) : Call (List InstanceInfo) := do
  let instances ← Call.ofFault (reply.getD "instances" (.arr []))
  let items ← Call.ofFault instances.elements
  ofExcept (items.mapM InstanceInfo.ofJson)

/-- All instances. -/
def getInstances (api : DirectApi) : Call (List InstanceInfo) := do
  Call.log .info "Requesting instances"
  listed (← api.request "GET" "instances")

/-- The instances with a tag. -/
def getInstancesByTag (api : DirectApi) (tag : String) : Call (List InstanceInfo) := do
  Call.log .info "Requesting instance by tag"
  listed (← api.request "GET" "instances" (.obj [("tag_name", .str tag)]))

/-! ## §2 Creation -/

/-- The identifier of a registered key. -/
def keyId (reply : Json) : Except Fault Json := do
  (← reply.part "ssh_key").part "id"

/-- Register a public key under a name. -/
def registerKey (api : DirectApi) (name publicKey : String) : Call Json := do
  Call.log .info "Requesting key registration"
  let reply ← api.request "POST" "account/keys" .null
    (.obj [("name", .str name), ("public_key", .str publicKey)])
  match keyId reply with
  | .ok id => return id
  | .error _ => throw (.malformed (.keyRegistration reply))

/-- The body of a creation. -/
def creationBody (name region : String) (key : Json) (spec : InstanceSpecification) : Json :=
  .obj [("name", .str name), ("region", .str region), ("size", spec.size), ("image", spec.image),
    ("ssh_keys", .arr [key]), ("user_data", spec.installCommand), ("tags", spec.tags),
    ("ipv6", .bool true)]

/-- How often a creation is tried. -/
def maxAttempts : Nat := 10

/-- The seconds between two tries. -/
def retryDelay : Seconds := .fractional 5.0

/-- Whether a failure says that an instance of the same name is still being removed. Faults of
access are no failures of the platform and say nothing. -/
def isFinalizing (f : Failure) : Bool :=
  f.class?.isSome &&
    Text.occursIn "finalizing".toList (f.message.toList.map Char.toLower)

/-- Try a creation with so many tries left, and once more while a try fails because an instance
of the same name is still being removed. -/
def attempt (api : DirectApi) (name : String) (body : Json) : Nat → Call Json
  | 0 => api.request "POST" "instances" .null body
  | left + 1 => do
    Call.log .info
      s!"Requesting instance creation {maxAttempts - left}/{maxAttempts}"
    tryCatch (api.request "POST" "instances" .null body) fun f => do
      -- the last try passes its failure on
      if isFinalizing f && 0 < left then
        Call.log .warning s!"Instance name {name} is still finalizing, retrying in 5s"
        modify (·.sleep retryDelay)
        attempt api name body left
      else throw f

/-- Register a key and create an instance that uses it. -/
def createInstance (api : DirectApi) (displayName region publicKey : String)
    (spec : InstanceSpecification) : Call InstanceInfo := do
  let name := validInstanceName displayName
  let key ← api.registerKey name publicKey
  let reply ← api.attempt name (creationBody name region key spec) maxAttempts
  ofExcept (InstanceInfo.ofReply reply)

end DirectApi

end Fleet
