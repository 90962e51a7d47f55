import Fleet.Fault

/-!
# Failures

What can go wrong in working with the platform: a request is refused, never answered or answered
with something unreadable, a long-running operation reports an error, the installation of a server
fails or is called off.  Every failure is recorded by its cause; its class, by which callers tell
failures apart, and its wording follow from the cause.  A fault of access is a failure outside
these classes.
-/

namespace Fleet

/-- The classes of failures. -/
inductive FailureClass where
  | general | transport | notFound | unauthorized | network | parse | operation
  | installFailed | installCanceled
deriving DecidableEq, Repr

/-- What a request was refused for, as far as callers tell refusals apart. -/
inductive Refusal where
  | general
  | notFound
  | unauthorized
deriving DecidableEq, Repr

/-- The classes of failures that carry nothing but a wording. -/
inductive PlainClass where
  | general | network | parse | installFailed | installCanceled
deriving DecidableEq, Repr

/-- Something that should have been readable and was not. -/
inductive Malformed where
  | zoneUrl (url : Json)
  | zoneName (zone : String)
  | instanceData (data : Json)
  | fingerprint (certificate : String)
  | response (method url : String)
  | keyRegistration (reply : Json)
  | noInstance (reply : Json)

/-- A reason for which a server cannot be installed. -/
inductive Setback where
  | addressCheck (reason : String)
  | noEphemeralAddress (name : Json)
  | addressCreation (errors : Json)
  | firewallCreation (errors : Json)
  | instanceCreation (errors : Json)
  | installation (server : String)

/-- What went wrong. -/
inductive Failure where
  /-- an answer whose status is not a success, or a token that could not be had -/
  | refused (refusal : Refusal) (status message requestId : Json)
  /-- no answer came -/
  | unanswered (method url reason : String)
  /-- something could not be read -/
  | malformed (what : Malformed)
  /-- a finished operation reports an error -/
  | operation (code message name : Json)
  /-- a server cannot be installed -/
  | setback (why : Setback)
  /-- the installation was called off -/
  | canceled (server : String)
  /-- a failure of which only class and wording are known -/
  | stated (cls : PlainClass) (message : String)
  /-- a value did not have the shape that was needed -/
  | fault (cause : Fault)

/-! ## §1 Wording -/

/-- A noun with an optional name after it. -/
def named (noun : String) (name : Json) : String :=
  if name.truthy then noun ++ " " ++ name.text else noun

/-- The wording of something unreadable. -/
def Malformed.message : Malformed → String
  | .zoneUrl url => "Not a zone URL: " ++ url.literal
  | .zoneName zone => "Zone name does not encode a region: " ++ Text.quoted zone
  | .instanceData data => "Malformed instance: " ++ data.literal
  | .fingerprint certificate => "Malformed certificate fingerprint: " ++ Text.quoted certificate
  | .response method url => s!"Malformed response from {method} {url}: <json>"
  | .keyRegistration reply => "Key registration returned unexpected response: " ++ reply.text
  | .noInstance reply => "Response has no instance: " ++ reply.text

/-- The wording of a setback. -/
def Setback.message : Setback → String
  | .addressCheck reason => "Static IP check failed: " ++ reason
  | .noEphemeralAddress name => s!"Instance {name.text} has no ephemeral IP to promote"
  | .addressCreation errors => "Static IP creation failed: " ++ errors.text
  | .firewallCreation errors => "Firewall creation failed: " ++ errors.text
  | .instanceCreation errors => "Instance creation failed: " ++ errors.text
  | .installation server => s!"Installation of server {server} failed"

namespace Failure

/-- The wording of a failure. -/
def message : Failure → String
  | refused _ status message requestId =>
    named "Request" requestId ++ s!" failed with {status.text}: {message.text}"
  | unanswered method url reason => s!"{method} {url} failed: {reason}"
  | malformed what => what.message
  | operation code message name =>
    named "Operation" name ++ s!" failed with {code.text}: {message.text}"
  | setback why => why.message
  | canceled server => s!"Installation of server {server} was canceled"
  | stated _ message => message
  | fault cause => cause.message

end Failure

/-! ## §2 Classes -/

/-- The class of a refusal. -/
def Refusal.toClass : Refusal → FailureClass
  | .general => .transport
  | .notFound => .notFound
  | .unauthorized => .unauthorized

/-- A class without further members, among all classes. -/
def PlainClass.toClass : PlainClass → FailureClass
  | .general => .general
  | .network => .network
  | .parse => .parse
  | .installFailed => .installFailed
  | .installCanceled => .installCanceled

/-- The class of a failure; a fault has none. -/
def Failure.class? : Failure → Option FailureClass
  | .refused refusal .. => some refusal.toClass
  | .unanswered .. => some .network
  | .malformed _ => some .parse
  | .operation .. => some .operation
  | .setback _ => some .installFailed
  | .canceled _ => some .installCanceled
  | .stated cls _ => some cls.toClass
  | .fault _ => none

/-- The class of which a class is a special case; `general` is above all others. -/
def FailureClass.parent? : FailureClass → Option FailureClass
  | .general => none
  | .notFound | .unauthorized => some .transport
  | _ => some .general

/-- Whether every failure of the first class counts as one of the second. -/
def FailureClass.isWithin (cls other : FailureClass) : Bool :=
  cls == other || other == .general || cls.parent? == some other

/-- All classes, each after the one that it is a special case of. -/
def FailureClass.all : List FailureClass :=
  [.general, .transport, .notFound, .unauthorized, .network, .parse, .operation,
    .installFailed, .installCanceled]

/-- The classes that a class is a case of, itself included. -/
def FailureClass.ancestry (cls : FailureClass) : List FailureClass :=
  FailureClass.all.filter cls.isWithin

theorem FailureClass.mem_all (cls : FailureClass) : cls ∈ FailureClass.all := by
  cases cls <;> decide

/-- Whether a failure counts as one of the class. -/
def Failure.isA (f : Failure) (cls : FailureClass) : Bool :=
  match f.class? with
  | some own => own.isWithin cls
  | none => false

/-- Whether the request was refused because what it names does not exist. -/
def Failure.isNotFound (f : Failure) : Bool :=
  f.class? == some .notFound

/-! ## §3 Failures from given arguments -/

/-- The wording of a plain failure: its argument, or all of them as a row. -/
def argumentsText : List Json → String
  | [] => ""
  | [argument] => argument.text
  | arguments => "(" ++ Json.commaList (Json.literals arguments) ++ ")"

/-- The failure of a class that carries the given arguments. Refusals take a status, a message
and perhaps a request; operation failures take a code, a message and perhaps an operation. -/
def Failure.ofArguments (cls : FailureClass) (arguments : List Json) : Except Fault Failure :=
  let refusal (r : Refusal) : Except Fault Failure :=
    match arguments with
    | [status, message] => .ok (.refused r status message (.str ""))
    | [status, message, requestId] => .ok (.refused r status message requestId)
    | _ => .error .wrongArguments
  match cls with
  | .transport => refusal .general
  | .notFound => refusal .notFound
  | .unauthorized => refusal .unauthorized
  | .operation =>
    match arguments with
    | [code, message] => .ok (.operation code message .null)
    | [code, message, name] => .ok (.operation code message name)
    | _ => .error .wrongArguments
  | .general => .ok (.stated .general (argumentsText arguments))
  | .network => .ok (.stated .network (argumentsText arguments))
  | .parse => .ok (.stated .parse (argumentsText arguments))
  | .installFailed => .ok (.stated .installFailed (argumentsText arguments))
  | .installCanceled => .ok (.stated .installCanceled (argumentsText arguments))

end Fleet
