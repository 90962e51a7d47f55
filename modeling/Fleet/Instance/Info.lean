import Fleet.Failure
import Fleet.Json.Access

/-!
# Descriptions of instances

The direct API describes an instance as an object.  Only the identifier must be there; what is
missing takes its default, and anything of the wrong shape makes the description malformed.
-/

namespace Fleet

/-- An instance as the direct API describes it. -/
structure InstanceInfo where
  id : Json
  status : Json
  tags : List Json
  zoneId : Json
  publicIpv4 : Json
deriving Inhabited

/-- The parts of a description. -/
def InstanceInfo.parts (data : Json) : Except Fault InstanceInfo := do
  let interfaces ← data.getD "networkInterfaces" (.obj [])
  let primary ← interfaces.getD "primaryV4Address" (.obj [])
  let address ← primary.get "address"
  let id ← data.part "id"
  let status ← data.getD "status" (.str "PROVISIONING")
  let tags ← data.get "tags"
  let tags ← (tags.orElse (.arr [])).elements
  let zone ← data.get "zone"
  let zoneId ← (zone.orElse (.obj [])).getD "id" (.str "")
  return { id, status, tags, zoneId, publicIpv4 := address }

/-- Whether a fault shows that a value has another shape: it lacks a member, or it is of a kind
that does not have what was asked of it. -/
def Fault.isOfShape (fault : Fault) : Bool :=
  match fault.family with
  | .key | .attribute | .type => true
  | _ => false

/-- The instance that an object describes. Only faults of shape make a description malformed. -/
def InstanceInfo.ofJson (data : Json) : Except Failure InstanceInfo :=
  match parts data with
  | .ok info => .ok info
  | .error fault =>
    if fault.isOfShape then .error (.malformed (.instanceData data)) else .error (.fault fault)

/-- The instance in a reply that must have one. -/
def InstanceInfo.ofReply (reply : Json) : Except Failure InstanceInfo := do
  let present ← (reply.contains "instance").mapError .fault
  if present then
    let data ← (reply.part "instance").mapError .fault
    ofJson data
  else throw (.malformed (.noInstance reply))

end Fleet
