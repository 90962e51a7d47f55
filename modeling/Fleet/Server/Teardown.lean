import Fleet.Server.Provisioning

/-!
# Teardown

Deleting a server calls its installation off, lets provisioning settle the setup, and then
releases the address and deletes the instance.  What does not exist any more is passed over; any
other failure ends the teardown.
-/

namespace Fleet

/-- Delete a resource that may not exist. -/
def removeResource (client : Client) (request : Call Request) (absent : String) : Call Unit :=
  tryCatch (do discard (client.execute (← request))) fun f =>
    if f.isNotFound then Call.log .warning absent else throw f

/-- Release the address and delete the instance. -/
def Server.removeResources (s : Server) : Call Unit := do
  let address : Call Request := do
    let region ← ofExcept s.locator.regionLocator
    return s.client.deleteAddress region s.name.text
  removeResource s.client address "Deleted server did not have a static IP"
  removeResource s.client (pure (s.client.deleteInstance s.locator))
    "No instance for deleted server"

/-- Let the setup come to its end if it is not settled. -/
def Run.awaitSettled (r : Run) (steps : Nat) : Option Run :=
  if r.server.readiness.isSettled then some r else r.toEnd steps

/-- Release the address and delete the instance of a server whose setup is settled. -/
def Run.tearDown (r : Run) : Except Failure Unit × Run :=
  let r := match r.server.readiness with
    | .failed f =>
      r.log .warning s!"Attempting deletion of server that failed setup: {f.message}"
    | _ => r
  (Stage.ofCall r.server.removeResources).outcome r

/-- Delete a server, if its setup comes to an end in so many steps. -/
def Run.delete (r : Run) (steps : Nat) : Option (Except Failure Unit × Run) :=
  (r.cancel.awaitSettled steps).map Run.tearDown

end Fleet
