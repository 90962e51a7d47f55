import Fleet.Text.Segment

/-!
# The network as a script

What the network answers is laid down by a list of rules.  A request takes the first rule that
fits its method and URL, and a rule gives its responses one after the other, the last one again
and again.  A request that no rule fits is answered with "not found".
-/

namespace Fleet

/-- How deep a body may usually be nested to be read. -/
def usualDepth : Nat := 985

/-- An answer with a status. `depth` says how deep its body may be nested to be read: that depends
on what else is under way when the answer arrives. -/
structure Reply where
  status : Int := 200
  body : String := ""
  reason : String := ""
  depth : Nat := usualDepth
deriving DecidableEq, Repr, Inhabited

/-- What comes back for a request. -/
inductive Answer where
  | reply (r : Reply)
  /-- no answer; the transport gives a reason -/
  | broken (reason : String)
deriving DecidableEq, Repr, Inhabited

/-- One response of a rule. `cancels` says that, if the request belongs to the provisioning of a
server, somebody deletes that server just before the answer is delivered. -/
structure Response where
  answer : Answer
  cancels : Bool := false
deriving DecidableEq, Repr, Inhabited

/-- Responses for the requests of one method, or of any, whose URL has the given part. -/
structure Rule where
  method : Option String := none
  urlPart : String := ""
  responses : List Response
  uses : Nat := 0
deriving DecidableEq, Repr, Inhabited

/-- The rules in the order in which they are tried. -/
abbrev Network := List Rule

namespace Rule

/-- Whether a rule is for a request. -/
def fits (rule : Rule) (method url : String) : Bool :=
  (rule.method.all (· == method)) && Text.occursIn rule.urlPart.toList url.toList

/-- The response of a rule at its next use. -/
def current? (rule : Rule) : Option Response :=
  (rule.responses[rule.uses]?).or rule.responses.getLast?

end Rule

/-- The answer to a request that no rule fits. -/
def unrouted : Response :=
  { answer := .reply
      { status := 404
        body := "\x7b\"error\": \x7b\"code\": 404, \"message\": \"no route\"\x7d\x7d" } }

/-- The response to a request, and the network after it. -/
def Network.respond (method url : String) : Network → Response × Network
  | [] => (unrouted, [])
  | rule :: rest =>
    if rule.fits method url then
      (rule.current?.getD unrouted, { rule with uses := rule.uses + 1 } :: rest)
    else
      let (response, rest) := respond method url rest
      (response, rule :: rest)

end Fleet
