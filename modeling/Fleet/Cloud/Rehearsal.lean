import Fleet.Cloud.World
import Fleet.Json.Literal

/-!
# Rehearsals

A rehearsal lays down, as a JSON document, what the outside of the program answers: `http` has the
rules of the network, `refresh` the answers of the token endpoint, and `now` the reading of the
wall clock.  What a document leaves out takes its default.

## Main definitions

- `rule`, `grant`, `moment`: one entry of a rehearsal
- `world`: the world that a rehearsal describes
-/

namespace Fleet.Rehearsal

/-- The named member of a document, null where it is missing. -/
def field (name : String) (document : Json) : Json :=
  (document.member? name).getD .null

/-- The items of an array. -/
def items : Json → List Json
  | .arr items => items
  | _ => []

/-- The text of a value that is not null. -/
def text? : Json → Option String
  | .null => none
  | j => some j.text

/-- Whether a value is the truth value true. -/
def isTrue : Json → Bool
  | .bool b => b
  | _ => false

/-- A whole number that is not negative. -/
def count : Json → Nat
  | .int n => n.toNat
  | _ => 0

/-! ## §1 The network -/

/-- A response: a transport failure with its reason, or a status, a body and a reason. -/
def response (j : Json) : Response :=
  let cancels := isTrue (field "cancel" j)
  match j.member? "raise" with
  | some reason => { answer := .broken reason.text, cancels }
  | none =>
    let status := match j.member? "s" with
      | some (.int n) => n
      | _ => 200
    let body := (text? (field "t" j)).getD ""
    let reason := (text? (field "reason" j)).getD ""
    { answer := .reply { status, body, reason }, cancels }

/-- A rule: a method or none, a part of the URL, and responses. -/
def rule (j : Json) : Rule :=
  { method := text? (field "m" j)
    urlPart := (text? (field "u" j)).getD ""
    responses := (items (field "r" j)).map response }

/-- The rules of a network in their order. -/
def network (j : Json) : Network :=
  (items j).map rule

/-! ## §2 The token endpoint and the wall clock -/

/-- An answer of the token endpoint. -/
def grant (j : Json) : Grant :=
  match j.member? "refresh_error", j.member? "transport_error" with
  | some reason, _ => .rejected reason.text
  | _, some reason => .unreachable reason.text
  | _, _ => .token (text? (field "token" j))

/-- The answers of the token endpoint in their order. -/
def grants (j : Json) : List Grant :=
  (items j).map grant

/-- A reading of the wall clock: year, month, day, hour, minute and second. -/
def moment? (j : Json) : Option Moment :=
  match (items j).map count with
  | year :: month :: day :: hour :: minute :: second :: _ =>
    some { year, month, day, hour, minute, second }
  | _ => none

/-- The world that a rehearsal describes, for a store of tokens that is still without the answers
of the token endpoint. -/
def world (tokens : TokenStore) (document : Json) : World :=
  { network := network (field "http" document)
    tokens := { tokens with grants := grants (field "refresh" document) }
    today := (moment? (field "now" document)).getD World.defaultToday }

end Fleet.Rehearsal
