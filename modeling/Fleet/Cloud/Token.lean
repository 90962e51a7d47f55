import Fleet.Failure

/-!
# Access tokens

Requests carry an access token.  The current one is kept until it is rejected; a new one is
obtained with the account's refresh token.  Callers may come at the same time: the current token
is first looked at without a lock, and only a caller who finds none goes through the locked
section, where it looks again before it refreshes.  So callers who come while a refresh is under
way wait for it and share its token.

## Main definitions

- `TokenStore`: the current token, the credentials and what the token endpoint will answer
- `TokenStore.getToken`, `TokenStore.invalidate`: what a single caller does
- `TokenDesk`: several callers on one store, who may take their steps in any order
-/

namespace Fleet

/-- What the token endpoint answers to a refresh. -/
inductive Grant where
  | token (token : Option String)
  | rejected (reason : String)
  | unreachable (reason : String)
deriving DecidableEq, Repr, Inhabited

/-- What is needed to obtain access tokens. -/
structure Credentials where
  refreshToken : String
  tokenUri : String
  clientId : Option String
  clientSecret : Option String
  scopes : List String
deriving DecidableEq, Repr, Inhabited

/-- The token endpoint, unless another one is given. -/
def defaultTokenUri : String := "https://oauth2.googleapis.com/token"

/-- The scopes that are asked for, unless others are given. -/
def defaultScopes : List String :=
  ["https://www.googleapis.com/auth/compute", "https://www.googleapis.com/auth/cloud-platform"]

/-- The current token, the credentials and the answers of the token endpoint to come, of which
the last is given again and again. `refreshes` counts the answers that brought a token, be it an
empty one. -/
structure TokenStore where
  cached : Option String
  credentials : Option Credentials
  grants : List Grant
  refreshes : Nat := 0
deriving DecidableEq, Repr, Inhabited

namespace TokenStore

/-- A token that can be sent: an empty one is none. -/
def usable (token : Option String) : Option String :=
  token.filter (! ·.isEmpty)

/-- A store with the given tokens. Without a refresh token there are no credentials. -/
def make (accessToken refreshToken clientId clientSecret : Option String)
    (tokenUri : String := defaultTokenUri) (scopes : List String := [])
    (grants : List Grant := []) : TokenStore :=
  { cached := accessToken
    credentials := (usable refreshToken).map fun refreshToken =>
      { refreshToken, tokenUri, clientId, clientSecret
        scopes := if scopes.isEmpty then defaultScopes else scopes }
    grants }

/-- The next answer of the token endpoint, and those to come after it. -/
def nextGrant : List Grant → Grant × List Grant
  | [] => (.token none, [])
  | [grant] => (grant, [grant])
  | grant :: rest => (grant, rest)

/-- The failure of a token that cannot be had. -/
def failure (status : Int) (message : String) : Failure :=
  .refused .unauthorized (.int status) (.str message) (.str "")

/-- Whether the locked section will ask the token endpoint. -/
def asksEndpoint (s : TokenStore) : Bool :=
  (usable s.cached).isNone && s.credentials.isSome

/-- Ask the token endpoint for a token. -/
def refresh (s : TokenStore) : Except Failure String × TokenStore :=
  match s.credentials with
  | none => (.error (failure 401 "No refresh token available to obtain an access token"), s)
  | some _ =>
    let (grant, grants) := nextGrant s.grants
    let s := { s with grants }
    match grant with
    | .rejected reason => (.error (failure 401 s!"Token refresh failed: {reason}"), s)
    | .unreachable reason => (.error (failure 0 s!"Token endpoint unreachable: {reason}"), s)
    | .token token =>
      let s := { s with refreshes := s.refreshes + 1 }
      match usable token with
      | none => (.error (failure 401 "Token endpoint returned no access token"), s)
      | some token => (.ok token, s)

/-- The locked section of a caller who found no token: look again, refresh, keep the token. -/
def lockedGet (s : TokenStore) : Except Failure String × TokenStore :=
  match usable s.cached with
  | some token => (.ok token, s)
  | none =>
    -- a failed refresh leaves the store without a token, and the next caller tries again
    match s.refresh with
    | (.ok token, s) => (.ok token, { s with cached := some token })
    | (.error f, s) => (.error f, s)

/-- What a single caller gets: the current token, else the one of the locked section. -/
def getToken (s : TokenStore) : Except Failure String × TokenStore :=
  match usable s.cached with
  | some token => (.ok token, s)
  | none => s.lockedGet

/-- Whether a rejected token is the current one. -/
def holds (s : TokenStore) (token : Option String) : Bool :=
  s.cached == token

/-- Drop a rejected token if it is still the current one. -/
def invalidate (s : TokenStore) (token : Option String) : TokenStore :=
  if s.holds token then { s with cached := none } else s

theorem lockedGet_of_usable {s : TokenStore} {token : String} (h : usable s.cached = some token) :
    s.lockedGet = (.ok token, s) := by
  simp [lockedGet, h]

theorem getToken_eq_lockedGet (s : TokenStore) : s.getToken = s.lockedGet := by
  unfold getToken
  split
  · rename_i token h
    rw [lockedGet_of_usable h]
  · rfl

end TokenStore

/-! ## §2 Several callers -/

/-- How far a caller has come. -/
inductive TokenCaller where
  /-- it has not looked yet -/
  | arriving
  /-- it found no token and waits for the lock -/
  | queuing
  /-- it has left with a token or a failure -/
  | left (outcome : Except Failure String)

/-- A token store and the callers who want a token from it. -/
structure TokenDesk where
  store : TokenStore
  callers : List TokenCaller

namespace TokenDesk

/-- The step of one caller: the look without the lock, or the whole locked section. -/
def stepCaller (s : TokenStore) : TokenCaller → TokenCaller × TokenStore
  | .arriving =>
    match TokenStore.usable s.cached with
    | some token => (.left (.ok token), s)
    | none => (.queuing, s)
  | .queuing =>
    let (outcome, s) := s.lockedGet
    (.left outcome, s)
  | .left outcome => (.left outcome, s)

/-- The step of the caller with the given number. -/
def step (d : TokenDesk) (i : Nat) : TokenDesk :=
  match d.callers[i]? with
  | none => d
  | some caller =>
    let (caller, store) := stepCaller d.store caller
    { store, callers := d.callers.set i caller }

/-- Callers who have just come. -/
def opened (store : TokenStore) (callers : Nat) : TokenDesk :=
  { store, callers := List.replicate callers .arriving }

/-- All callers look first, and then those who found no token go through the lock in turn. -/
def serve (d : TokenDesk) : TokenDesk :=
  let turn := List.range d.callers.length
  (turn ++ turn).foldl step d

/-- What the callers who have left took with them. -/
def outcomes (d : TokenDesk) : List (Except Failure String) :=
  d.callers.filterMap fun
    | .left outcome => some outcome
    | _ => none

end TokenDesk

end Fleet
