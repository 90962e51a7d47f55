import Fleet.Cloud.Listing
import Fleet.Proofs.Cloud.Requests

/-!
# The pages of a listing

A listing asks for one page after the other, each with the token that the page before it names, and
it ends with the first page that names none.  If something goes wrong with a page, the listing ends
there and comes back with nothing.

## Main definitions

- `Client.Lists`: the pages of a listing from a given one on, and the instances on them

## Main statements

- `Client.listInstancesFrom_outcome`: a listing is a page and the listing of the pages after it
- `Client.lists_of_outcome`: a listing comes back with the instances of all its pages in order
- `Client.listInstancesFrom_extends`: a listing only reads
-/

namespace Fleet

open World

/-- Events that only read: log lines and requests that get something. -/
def Event.Reads : Event → Prop
  | .logged .. => True
  | .requested sent => sent.request.method = "GET"
  | _ => False

theorem Event.Serves.reads {request : Request} (hget : request.method = "GET") {e : Event}
    (h : e.Serves (some request)) : e.Reads := by
  cases e with
  | requested sent =>
    obtain rfl : request = sent.request := Option.some.inj h
    exact hget
  | _ => exact h

namespace Client

variable {client : Client} {project : String} {selection : Option String} {pageToken : Json}
  {w v : World} {instances : List Json}

/-- A listing is a page and the listing of the pages after it. -/
theorem listInstancesFrom_outcome (client : Client) (project : String)
    (selection : Option String) (pages : Nat) (pageToken : Json) (w : World) :
    (client.listInstancesFrom project selection (pages + 1) pageToken).outcome w =
      match (client.execute (client.listInstances project selection pageToken)).outcome w with
      | (.error f, v) => (.error (.failure f), v)
      | (.ok page, v) =>
        match pageInstances page, page.get "nextPageToken" with
        | .error fault, _ => (.error (.failure (.fault fault)), v)
        | .ok _, .error fault => (.error (.failure (.fault fault)), v)
        | .ok instances, .ok next =>
          if next.truthy then
            let later := (client.listInstancesFrom project selection pages next).outcome v
            (later.1.map (instances ++ ·), later.2)
          else (.ok instances, v) := by
  rw [listInstancesFrom, Job.outcome]
  rcases hx : (client.execute (client.listInstances project selection pageToken)).outcome w with
    ⟨f | page, v⟩
  · exact run_bind_of_error (Job.run_ofCall_of_error hx)
  · refine (run_bind_of_ok (Job.run_ofCall_of_ok hx)).trans ?_
    simp only [Job.run_ofFault_bind]
    cases pageInstances page with
    | error fault => rfl
    | ok instances =>
      cases page.get "nextPageToken" with
      | error fault => rfl
      | ok next =>
        simp only
        split
        · rcases hl : (client.listInstancesFrom project selection pages next).outcome v with
            ⟨halt | later, u⟩
          · exact run_bind_of_error hl
          · exact run_bind_of_ok hl
        · rfl

/-- The pages of a listing from the page of the given token on, with the instances on them. -/
inductive Lists (client : Client) (project : String) (selection : Option String) :
    Json → World → List Json → World → Prop
  /-- a page that names no successor -/
  | last {pageToken page next : Json} {w v : World} {instances : List Json}
      (hpage : (client.execute (client.listInstances project selection pageToken)).outcome w =
        (.ok page, v))
      (hinstances : pageInstances page = .ok instances)
      (hnext : page.get "nextPageToken" = .ok next) (hlast : next.truthy = false) :
      Lists client project selection pageToken w instances v
  /-- a page, and those from its successor on -/
  | more {pageToken page next : Json} {w v u : World} {instances later : List Json}
      (hpage : (client.execute (client.listInstances project selection pageToken)).outcome w =
        (.ok page, v))
      (hinstances : pageInstances page = .ok instances)
      (hnext : page.get "nextPageToken" = .ok next) (hmore : next.truthy = true)
      (hlater : Lists client project selection next v later u) :
      Lists client project selection pageToken w (instances ++ later) u

/-- A listing comes back with the instances of all its pages in their order. -/
theorem lists_of_outcome {pages : Nat}
    (h : (client.listInstancesFrom project selection pages pageToken).outcome w =
      (.ok instances, v)) : client.Lists project selection pageToken w instances v := by
  induction pages generalizing pageToken w instances with
  | zero => cases h
  | succ pages ih =>
    rw [listInstancesFrom_outcome] at h
    split at h
    · cases h
    · rename_i hpage
      split at h
      · cases h
      · cases h
      · rename_i hinstances hnext
        split at h
        · rename_i hmore
          rcases hl : (client.listInstancesFrom project selection pages _).outcome _ with
            ⟨halt | later, u⟩
          · rw [hl] at h
            cases h
          · rw [hl] at h
            cases h
            exact .more hpage hinstances hnext hmore (ih hl)
        · rename_i hlast
          cases h
          exact .last hpage hinstances hnext (Bool.not_eq_true _ ▸ hlast)

/-- A listing only reads. -/
theorem listInstancesFrom_extends (client : Client) (project : String)
    (selection : Option String) (pages : Nat) (pageToken : Json) (w : World) :
    w.Extends Event.Reads
      ((client.listInstancesFrom project selection pages pageToken).outcome w).2 := by
  induction pages generalizing pageToken w with
  | zero => exact .refl w
  | succ pages ih =>
    rw [listInstancesFrom_outcome]
    have hpage := client.execute_extends (client.listInstances project selection pageToken) w
    rcases hx : (client.execute (client.listInstances project selection pageToken)).outcome w with
      ⟨f | page, v⟩
    all_goals
      replace hpage : w.Extends Event.Reads v :=
        ((client.execute_extends _).of_run hx).mono fun _ he => he.reads rfl
    · exact hpage
    · simp only
      split
      · exact hpage
      · exact hpage
      · split
        · exact hpage.trans (ih _ v)
        · exact hpage

end Client

end Fleet
