import Fleet.Cloud.Resource
import Fleet.Json.Access

/-!
# Listing all instances of a project

The instances of a project come in pages, and in a page they are grouped by scope.  Pages are
asked for until one names no successor; the result has the instances of all pages in their order.
-/

namespace Fleet.Client

/-- The instances of one scope. -/
def scopeInstances (scope : Json) : Except Fault (List Json) := do
  let instances ← scope.get "instances"
  (instances.orElse (.arr [])).elements

/-- The instances of one page, scope after scope. -/
def pageInstances (page : Json) : Except Fault (List Json) := do
  let items ← page.get "items"
  let scopes ← (items.orElse (.obj [])).values
  return (← scopes.mapM scopeInstances).flatten

/-- The instances from the page of the given token on: at most the given number of pages, then
the listing is given up on. -/
def listInstancesFrom (client : Client) (project : String) (selection : Option String) :
    Nat → Json → Job (List Json)
  | 0, _ => throw .unfinished
  | pages + 1, pageToken => do
    let page ← client.execute (client.listInstances project selection pageToken)
    let instances ← Job.ofFault (pageInstances page)
    let next ← Job.ofFault (page.get "nextPageToken")
    -- an empty token names no page
    if next.truthy then
      return instances ++ (← listInstancesFrom client project selection pages next)
    return instances

/-- All instances of a project that the filter selects. -/
def listAllInstances (client : Client) (pages : Nat) (project : String)
    (selection : Option String) : Job (List Json) :=
  client.listInstancesFrom project selection pages .null

end Fleet.Client
