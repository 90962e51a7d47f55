import Mathlib.Tactic.Common
import Fleet.Cloud.World

/-!
# Which rule responds to a request

A request takes the first rule that fits it, and nothing but the number of its uses changes in that
rule.  So the responses to some requests depend on the rules that these requests take and on no
other ones: requests that take other rules may come in between.

## Main definitions

- `Network.route?`: the place of the rule that a request takes
- `Network.responses`, `Network.after`: what the network responds to requests, one after the other,
  and the network after them
- `Network.Agree asked n m`: the networks have used the rules of these requests as often
- `Network.Apart asked asked'`: no rule is taken by requests of both kinds

## Main statements

- `Network.respond_eq`: the rule of a request responds, and it is used once more
- `Network.Agree.respond_eq`, `Network.Agree.respond`: networks that agree on a request respond to
  it in the same way, and go on agreeing
- `Network.Agree.after_apart`: requests that take other rules keep networks in agreement
-/

namespace Fleet

/-! ## §1 Rules -/

namespace Rule

/-- The rule after one more use. -/
def used (rule : Rule) : Rule :=
  { rule with uses := rule.uses + 1 }

theorem fits_used (rule : Rule) (method url : String) :
    rule.used.fits method url = rule.fits method url := rfl

end Rule

namespace Network

/-- The place of the first rule that fits a request. -/
def route? (n : Network) (q : Request) : Option Nat :=
  n.findIdx? (·.fits q.method q.url)

/-- The response that the rule at a place holds ready; without a rule there is no route. -/
def responseAt (n : Network) (place : Option Nat) : Response :=
  (place.bind fun i => n[i]?.bind Rule.current?).getD unrouted

/-- The network after the rule at a place was used. -/
def usedAt (n : Network) (place : Option Nat) : Network :=
  match place with
  | none => n
  | some i => n.modify i Rule.used

/-- The rule of a request responds, and it is used once more. -/
theorem respond_eq (n : Network) (q : Request) :
    n.respond q.method q.url = (n.responseAt (n.route? q), n.usedAt (n.route? q)) := by
  induction n with
  | nil => rfl
  | cons rule rest ih =>
    rw [respond]
    cases hfits : rule.fits q.method q.url with
    | true =>
      have hroute : route? (rule :: rest) q = some 0 := by
        simp [route?, List.findIdx?_cons, hfits]
      rw [hroute]
      rfl
    | false =>
      -- the rule is passed over, so all places are one further
      have hroute : route? (rule :: rest) q = (route? rest q).map (· + 1) := by
        simp [route?, List.findIdx?_cons, hfits]
      rw [hroute, ih]
      cases route? rest q <;> rfl

/-- What is used does not change which rule a request takes. -/
theorem route?_usedAt (n : Network) (place : Option Nat) (q : Request) :
    (n.usedAt place).route? q = n.route? q := by
  cases place with
  | none => rfl
  | some i =>
    show List.findIdx? _ (List.modify n i Rule.used) = List.findIdx? _ n
    induction n generalizing i with
    | nil => rw [List.modify_nil]
    | cons rule rest ih =>
      cases i with
      | zero =>
        simp only [List.modify_zero_cons, List.findIdx?_cons, Rule.fits_used]
        rfl
      | succ i => simp only [List.modify_succ_cons, List.findIdx?_cons, ih]

/-! ## §2 Several requests -/

/-- The network after some requests, one after the other. -/
def after (n : Network) (requests : List Request) : Network :=
  requests.foldl (fun n q => (n.respond q.method q.url).2) n

/-- What the network responds to some requests, one after the other. -/
def responses : Network → List Request → List Response
  | _, [] => []
  | n, q :: requests =>
    (n.respond q.method q.url).1 :: responses (n.respond q.method q.url).2 requests

theorem after_append (n : Network) (requests requests' : List Request) :
    n.after (requests ++ requests') = (n.after requests).after requests' :=
  List.foldl_append

theorem responses_append (n : Network) (requests requests' : List Request) :
    n.responses (requests ++ requests') =
      n.responses requests ++ (n.after requests).responses requests' := by
  induction requests generalizing n with
  | nil => rfl
  | cons q requests ih =>
    rw [List.cons_append, responses, ih]
    rfl

theorem route?_after (n : Network) (requests : List Request) (q : Request) :
    (n.after requests).route? q = n.route? q := by
  induction requests generalizing n with
  | nil => rfl
  | cons q' requests ih =>
    calc (n.after (q' :: requests)).route? q = (n.respond q'.method q'.url).2.route? q := ih _
      _ = n.route? q := by rw [respond_eq, route?_usedAt]

/-! ## §3 Networks that agree on requests -/

/-- Both networks have the same routes, and they have used the rules of the given requests as
often. -/
structure Agree (asked : Request → Prop) (n m : Network) : Prop where
  route_eq : ∀ q, m.route? q = n.route? q
  rule_eq : ∀ q i, asked q → n.route? q = some i → m[i]? = n[i]?

/-- No rule is the first one that fits both a request of the one kind and one of the other. -/
def Apart (n : Network) (asked asked' : Request → Prop) : Prop :=
  ∀ q q' i, asked q → asked' q' → n.route? q = some i → n.route? q' ≠ some i

/-- It is a matter of the routes only. -/
theorem Apart.of_route_eq {n m : Network} {asked asked' : Request → Prop}
    (h : n.Apart asked asked') (hroute : ∀ q, m.route? q = n.route? q) : m.Apart asked asked' := by
  intro q q' i hq hq'
  rw [hroute, hroute]
  exact h q q' i hq hq'

namespace Agree

variable {asked : Request → Prop} {n m : Network} {q : Request}

theorem refl (n : Network) : Agree asked n n :=
  ⟨fun _ => rfl, fun _ _ _ _ => rfl⟩

/-- Networks that agree on a request respond to it in the same way. -/
theorem respond_eq (h : Agree asked n m) (hq : asked q) :
    (m.respond q.method q.url).1 = (n.respond q.method q.url).1 := by
  rw [Network.respond_eq, Network.respond_eq, h.route_eq]
  cases hroute : n.route? q with
  | none => rfl
  | some i => simp only [responseAt, Option.bind_some, h.rule_eq q i hq hroute]

/-- After any request they still agree, since they have both used the rule of the request. -/
theorem respond (h : Agree asked n m) (q : Request) :
    Agree asked (n.respond q.method q.url).2 (m.respond q.method q.url).2 := by
  rw [Network.respond_eq, Network.respond_eq, h.route_eq]
  refine ⟨fun q' => by rw [route?_usedAt, route?_usedAt, h.route_eq], fun q' i hq' hroute' => ?_⟩
  rw [route?_usedAt] at hroute'
  have hrule := h.rule_eq q' i hq' hroute'
  cases n.route? q with
  | none => exact hrule
  | some j => simp only [usedAt, List.getElem?_modify, hrule]

/-- A request that takes none of their rules may be made to one of them only. -/
theorem respond_apart (h : Agree asked n m)
    (hapart : ∀ q' i, asked q' → n.route? q' = some i → n.route? q ≠ some i) :
    Agree asked n (m.respond q.method q.url).2 := by
  rw [Network.respond_eq, h.route_eq]
  refine ⟨fun q' => by rw [route?_usedAt, h.route_eq], fun q' i hq' hroute' => ?_⟩
  have hrule := h.rule_eq q' i hq' hroute'
  cases hroute : n.route? q with
  | none => exact hrule
  | some j =>
    -- the rule that was used is another one
    have hne : j ≠ i := fun hji => hapart q' i hq' hroute' (by rw [hroute, hji])
    simp only [usedAt, List.getElem?_modify, if_neg hne, hrule]
    exact Option.map_id'

/-- Requests that take other rules keep networks in agreement. -/
theorem after_apart {asked' : Request → Prop} (h : Agree asked n m) {requests : List Request}
    (hasked : ∀ q ∈ requests, asked' q) (hapart : n.Apart asked asked') :
    Agree asked n (m.after requests) := by
  induction requests generalizing m with
  | nil => exact h
  | cons q requests ih =>
    have hq : asked' q := hasked q List.mem_cons_self
    have hfirst : Agree asked n (m.respond q.method q.url).2 :=
      h.respond_apart fun q' i hq' => hapart q' q i hq' hq
    exact ih hfirst fun q' hq' => hasked q' (List.mem_cons_of_mem q hq')

end Agree

end Network

end Fleet
