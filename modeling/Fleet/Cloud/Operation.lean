import Fleet.Cloud.Resource
import Fleet.Json.Access

/-!
# Long-running operations

The platform answers many requests with an operation that goes on after the answer.  A compute
operation is waited for with requests that come back when it is done or after a while, so one may
have to wait again; the operations of other services are polled.  A finished operation may carry
errors, of which the first is reported.
-/

namespace Fleet

namespace Operation

/-- The errors that an operation carries; what is not present counts as none. -/
def errors (operation : Json) : Except Fault Json := do
  let error ← operation.get "error"
  (error.orElse (.obj [])).get "errors"

/-- The failure that an error entry describes. -/
def failureOf (entry name : Json) : Except Fault Failure := do
  let code ← entry.getD "code" (.str "UNKNOWN")
  let message ← entry.getD "message" (.str "")
  return .operation (.str code.text) message name

/-- The operation itself if it carries no errors, else the failure of the first of them. -/
def checked (operation : Json) : Call Json := do
  let errors ← Call.ofFault (errors operation)
  if errors.truthy then
    let first ← Call.ofFault errors.first
    let name ← Call.ofFault (operation.get "name")
    if 1 < errors.size then
      Call.log .debug
        s!"Operation {name.text} reported {errors.size} errors, surfacing the first"
    throw (← Call.ofFault (failureOf first name))
  else return operation

/-- Whether an operation is done. One that does not say is. -/
def isDone (operation : Json) : Except Fault Bool := do
  let status ← operation.getD "status" (.str "DONE")
  return status.isText "DONE"

/-- The status of an operation, for messages. -/
def statusText (operation : Json) : String :=
  ((operation.member? "status").getD .null).text

end Operation

namespace Client

/-! ## §2 Waiting for compute operations -/

/-- Wait once for an operation of a zone. -/
def waitZone (client : Client) (l : ZoneLocator) (name : Json) : Call Json := do
  Call.log .debug s!"Waiting on zone operation {name.text} in {l.zone}"
  Operation.checked (← client.execute (client.waitZoneOperation l name.text))

/-- Wait once for an operation of a region. -/
def waitRegion (client : Client) (l : RegionLocator) (name : Json) : Call Json := do
  Call.log .debug s!"Waiting on region operation {name.text} in {l.region}"
  Operation.checked (← client.execute (client.waitRegionOperation l name.text))

/-- Wait once for an operation of a project. -/
def waitGlobal (client : Client) (project : String) (name : Json) : Call Json := do
  Call.log .debug s!"Waiting on global operation {name.text} in {project}"
  Operation.checked (← client.execute (client.waitGlobalOperation project name.text))

/-- Wait until an operation of a zone is done: at most the given number of times, then the wait
is given up on. Before every wait but the first, `note` is told of the operation so far. -/
def awaitZone (client : Client) (l : ZoneLocator) (name : Json) (note : Json → Call Unit) :
    Nat → Job Json
  | 0 => throw .unfinished
  | rounds + 1 => do
    let operation ← client.waitZone l name
    if ← Job.ofFault (Operation.isDone operation) then return operation
    note operation
    awaitZone client l name note rounds

/-! ## §3 Polling other operations -/

/-- The operation that a poll found done: itself, or the failure of the error it carries. -/
def polled (operation name : Json) : Call Json := do
  let error ← Call.ofFault (operation.get "error")
  if error.truthy then throw (← Call.ofFault (Operation.failureOf error name))
  return operation

/-- Poll an operation until it is done, sleeping before every poll: at most the given number of
times, then it is given up on. -/
def pollUntilDone (fetch : Call Json) (name : Json) (interval : Seconds) : Nat → Job Json
  | 0 => throw .unfinished
  | rounds + 1 => do
    modify (·.sleep interval)
    let operation ← fetch
    let done ← Job.ofFault (operation.get "done")
    if done.truthy then polled operation name
    else pollUntilDone fetch name interval rounds

end Client

end Fleet
