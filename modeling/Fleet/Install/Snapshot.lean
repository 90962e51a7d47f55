import Fleet.Install.State
import Fleet.Failure
import Fleet.Json.Access
import Fleet.Text.Base64

/-!
# Snapshots of guest attributes

While it installs itself, a server publishes attributes: that the script has started, the
fingerprint of its certificate, the URL of its management API, or that the installation failed.
A snapshot of these attributes signals the most advanced milestone that it shows.  A complete
snapshot carries the endpoint under which the server can be managed.
-/

namespace Fleet

/-- Where and how an installed server is managed. -/
structure ManagementEndpoint where
  apiUrl : Json
  fingerprint : String
deriving Inhabited

/-- The attribute with the URL of the management API, published last. -/
def apiUrlAttribute : String := "apiUrl"

/-- The attribute with the certificate's fingerprint in Base64. -/
def fingerprintAttribute : String := "certSha256"

/-- The attribute of a failed installation. -/
def errorAttribute : String := "install-error"

/-- The attribute of a started installation. -/
def startedAttribute : String := "install-started"

/-- The state that a snapshot signals. Later milestones imply the earlier ones and are looked
for first. -/
def signalledState (attributes : Json) : Except Fault (Option InstallState) := do
  let complete ←
    if ← attributes.contains apiUrlAttribute then attributes.contains fingerprintAttribute
    else pure false
  if complete then return some .completed
  if ← attributes.contains errorAttribute then return some .failed
  if ← attributes.contains fingerprintAttribute then return some .certificateCreated
  if ← attributes.contains startedAttribute then return some .instanceRunning
  return none

/-- The text of bytes that are all ASCII. -/
def asciiText? (bytes : List UInt8) : Option String :=
  if bytes.all (· < 128) then some (String.ofList (bytes.map fun b => Char.ofNat b.toNat))
  else none

/-- The endpoint of a URL and a fingerprint in Base64. The fingerprint must decode to ASCII. -/
def ManagementEndpoint.make (apiUrl certificate : Json) : Except Failure ManagementEndpoint :=
  match certificate with
  | .str s =>
    if s.toList.all (·.toNat < 128) then
      match (Text.Base64.decode? s.toList).bind asciiText? with
      | some fingerprint => .ok ⟨apiUrl, fingerprint⟩
      | none => .error (.malformed (.fingerprint s))
    else .error (.fault .notAscii)
  | _ => .error (.fault (.notEncodedText certificate.kind))

/-- The endpoint of a complete snapshot. -/
def ManagementEndpoint.ofSnapshot (attributes : Json) : Except Failure ManagementEndpoint := do
  let apiUrl ← (attributes.part apiUrlAttribute).mapError .fault
  let certificate ← (attributes.part fingerprintAttribute).mapError .fault
  make apiUrl certificate

/-! ## §2 The resource -/

/-- One entry of the resource, entered into the snapshot. A key that comes again takes the later
value. Only texts name attributes; other keys are passed over if they can be keys at all. -/
def addAttribute (entry : Json) (attributes : List (String × Json)) :
    Except Fault (List (String × Json)) := do
  -- the value is looked at before the key, so an entry that is no object fails here
  let value ← entry.getD "value" (.str "")
  match ← entry.part "key" with
  | .str key => return Json.put key value attributes
  | .arr _ => throw (.notAKey .arr)
  | .obj _ => throw (.notAKey .obj)
  | _ => return attributes

/-- The snapshot in a guest attributes resource. What is missing or not present counts as
empty. -/
def snapshotOfResource (resource : Json) : Except Fault Json := do
  let query ← (resource.orElse (.obj [])).get "queryValue"
  let items ← (query.orElse (.obj [])).get "items"
  let entries ← (items.orElse (.arr [])).elements
  let attributes ← entries.foldlM (fun attributes entry => addAttribute entry attributes) []
  return .obj attributes

end Fleet
