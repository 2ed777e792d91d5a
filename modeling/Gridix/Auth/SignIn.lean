import Gridix.Base.ReadCommitted
import Gridix.Jobs.Model

/-!
# Wallet sign-in

The control points of `/auth/nonce` and `/auth/verify`.  A sign-in spends its
challenge with a conditional `UPDATE` before it looks at the signature, and
whatever goes wrong afterwards rolls the claim back with the rest of the
transaction.
-/

namespace Gridix.SignIn

open ReadCommitted

/-- The functions on addresses and messages that the routes call. -/
structure Wallets where
  normalizeAddress : String → Option String
  buildMessage : (address nonce : String) → (issuedAt expiresAt : Int) → String
  recoverSigner : (message signature : String) → Option String

structure SignInSettings where
  siweNonceTtlSeconds : Nat
  sessionTtlSeconds : Nat

def challengeExpiry (now : Int) (ttlSeconds : Nat) : Int := now + ttlSeconds * 10 ^ 6

structure AuthNonce where
  id : Uuid
  nonce : String
  address : String
  message : String
  expiresAt : Int
  usedAt : Option Int
  deriving DecidableEq, Repr

structure Developer where
  id : Uuid
  name : String
  walletAddress : Option String
  deriving DecidableEq, Repr

/-- An `api_keys` row of kind `session`, with the challenge and the signature it
was minted for, which are not stored. -/
structure SessionKey where
  developerId : Uuid
  keyHash : String
  expiresAt : Int
  challenge : Uuid
  signature : String
  deriving DecidableEq, Repr

structure Db where
  nonces : List AuthNonce
  developers : List Developer
  keys : List SessionKey

inductive Row where
  | nonceId (id : Uuid)
  | nonce (nonce : String)
  | developerId (id : Uuid)
  | wallet (address : String)
  | keyHash (hash : String)
  | challenge (id : Uuid)
  deriving DecidableEq, Repr

def nonceRows (challenge : AuthNonce) : List Row := [.nonceId challenge.id, .nonce challenge.nonce]

def developerRows (developer : Developer) : List Row :=
  .developerId developer.id :: (developer.walletAddress.map .wallet).toList

def keyRows (key : SessionKey) : List Row := [.keyHash key.keyHash]

/-- Some row has the index entry.  The row of a challenge is taken when it is
spent. -/
def Db.taken (db : Db) : Row → Bool
  | .challenge id =>
    !db.nonces.any fun nonce => nonce.id == id && nonce.usedAt.isNone
  | .keyHash hash => db.keys.any fun key => .keyHash hash ∈ keyRows key
  | .nonceId id => db.nonces.any fun nonce => .nonceId id ∈ nonceRows nonce
  | .nonce text => db.nonces.any fun nonce => .nonce text ∈ nonceRows nonce
  | row => db.developers.any fun developer => row ∈ developerRows developer

/-- `id`, `nonce` and `now` are what the handler draws and reads. -/
structure IssueRequest where
  address : String
  id : Uuid
  nonce : String
  now : Int

def IssueRequest.challenge (wallets : Wallets) (settings : SignInSettings)
    (request : IssueRequest) (address : String) : AuthNonce :=
  let expiresAt := challengeExpiry request.now settings.siweNonceTtlSeconds
  { id := request.id
    nonce := request.nonce
    address := address
    message := wallets.buildMessage address request.nonce request.now expiresAt
    expiresAt := expiresAt
    usedAt := none }

/-- `now` is read once the challenge is loaded; `developerId` and `keyHash`
are drawn by the inserts. -/
structure VerifyRequest where
  address : String
  nonce : String
  signature : String
  now : Int
  developerId : Uuid
  keyHash : String

structure Attempt where
  request : VerifyRequest
  address : String
  challenge : AuthNonce
  live : request.now < challenge.expiresAt

structure Answer (wallets : Wallets) extends Attempt where
  bound : challenge.address = address
  signed : wallets.recoverSigner challenge.message request.signature = some challenge.address

structure Resolution (wallets : Wallets) extends Answer wallets where
  developer : Developer
  created : Bool

section

variable {wallets : Wallets}

def Db.issue (db : Db) (challenge : AuthNonce) : Db :=
  { db with nonces := db.nonces ++ [challenge] }

/-- `UPDATE auth_nonces SET used_at = now WHERE id = ... AND used_at IS
NULL`. -/
def AuthNonce.spent (id : Uuid) (now : Int) (nonce : AuthNonce) : AuthNonce :=
  if nonce.id = id ∧ nonce.usedAt = none then
    { nonce with usedAt := some now }
  else nonce

def Attempt.spend (attempt : Attempt) (db : Db) : Db :=
  { db with
    nonces := db.nonces.map (AuthNonce.spent attempt.challenge.id attempt.request.now) }

def Answer.register (answer : Answer wallets) : Developer where
  id := answer.request.developerId
  name := String.ofList (answer.address.toList.take 6 ++ ['…'] ++
    answer.address.toList.drop (answer.address.length - 4))
  walletAddress := some answer.address

def Db.register (db : Db) (developer : Developer) : Db :=
  { db with developers := db.developers ++ [developer] }

def Resolution.key (settings : SignInSettings) (resolution : Resolution wallets) : SessionKey where
  developerId := resolution.developer.id
  keyHash := resolution.request.keyHash
  expiresAt := challengeExpiry resolution.request.now settings.sessionTtlSeconds
  challenge := resolution.challenge.id
  signature := resolution.request.signature

def Db.mint (db : Db) (key : SessionKey) : Db := { db with keys := db.keys ++ [key] }

end

/-- Where a request is in its transaction. -/
inductive Point (wallets : Wallets) where
  | issue (request : IssueRequest)
  | insertNonce (challenge : AuthNonce) (rows : List Row)
  | issueCommit (challenge : AuthNonce)
  | issued (challenge : AuthNonce)
  | verify (request : VerifyRequest)
  | select (request : VerifyRequest) (address : String)
  | claimNonce (attempt : Attempt)
  | spend (attempt : Attempt)
  | check (attempt : Attempt)
  | findDeveloper (answer : Answer wallets)
  | insertDeveloper (answer : Answer wallets) (rows : List Row)
  | mintKey (resolution : Resolution wallets) (rows : List Row)
  | commit (resolution : Resolution wallets)
  | signedIn (resolution : Resolution wallets)
  | failing (error : Raised)
  | failed (error : Raised)
  | lost

variable {wallets : Wallets} {settings : SignInSettings}

def rejected : Point wallets := .failing (.http 401 "Signature verification failed.")

def duplicate : Point wallets := .failing (.http 500 "duplicate key")

def Resolution.mint (settings : SignInSettings) (resolution : Resolution wallets) : Point wallets :=
  .mintKey resolution (keyRows (resolution.key settings))

def stmt (wallets : Wallets) (settings : SignInSettings) :
    Point wallets → Stmt Db Row (Point wallets)
  | .issue request =>
    .query fun _ =>
      match wallets.normalizeAddress request.address with
      | none => .failing (.http 422 "Not a wallet address.")
      | some address =>
        let challenge := request.challenge wallets settings address
        .insertNonce challenge (nonceRows challenge)
  | .insertNonce challenge rows =>
    .insert Db.taken (fun db => db.issue challenge)
      (.issueCommit challenge) (.insertNonce challenge) duplicate rows
  | .issueCommit challenge => .commit (.issued challenge)
  | .verify request =>
    .query fun _ =>
      match wallets.normalizeAddress request.address with
      | none => rejected
      | some address => .select request address
  | .select request address =>
    .query fun db =>
      match db.nonces.find? fun row => row.nonce == request.nonce with
      | none => rejected
      | some challenge =>
        if live : request.now < challenge.expiresAt then
          .claimNonce ⟨request, address, challenge, live⟩
        else rejected
  -- the conditional `UPDATE` waits for whoever is spending the challenge
  | .claimNonce attempt =>
    .claim (fun db =>
        if db.taken (.challenge attempt.challenge.id) then none
        else some (.challenge attempt.challenge.id))
      .noKeyUpdate (.claimNonce attempt) (fun _ => rejected)
      (fun _ => .spend attempt)
  | .spend attempt => .write [] attempt.spend (.check attempt)
  | .check attempt =>
    .query fun _ =>
      if bound : attempt.challenge.address = attempt.address then
        if signed : wallets.recoverSigner attempt.challenge.message
            attempt.request.signature = some attempt.challenge.address then
          .findDeveloper ⟨attempt, bound, signed⟩
        else rejected
      else rejected
  | .findDeveloper answer =>
    .query fun db =>
      match db.developers.find? fun developer =>
          developer.walletAddress == some answer.address with
      | some developer =>
        Resolution.mint settings ⟨answer, developer, false⟩
      | none => .insertDeveloper answer (developerRows answer.register)
  | .insertDeveloper answer rows =>
    .insert Db.taken (fun db => db.register answer.register)
      (Resolution.mint settings ⟨answer, answer.register, true⟩)
      (.insertDeveloper answer) duplicate rows
  | .mintKey resolution rows =>
    .insert Db.taken (fun db => db.mint (resolution.key settings))
      (.commit resolution) (.mintKey resolution) duplicate rows
  | .commit resolution => .commit (.signedIn resolution)
  | .failing error => .rollback (.failed error)
  | .issued _ => .halt
  | .signedIn _ => .halt
  | .failed _ => .halt
  | .lost => .halt

def program (wallets : Wallets) (settings : SignInSettings) : Program Db Row (Point wallets) where
  stmt := stmt wallets settings
  onAbort := fun _ => .lost

namespace Resolution

variable (resolution : Resolution wallets)

def resolved (db : Db) : Db :=
  let db := resolution.spend db
  if resolution.created then db.register resolution.developer else db

def committed (settings : SignInSettings) (db : Db) : Db :=
  (resolution.resolved db).mint (resolution.key settings)

def rows : List Row := .challenge resolution.challenge.id ::
    if resolution.created then developerRows resolution.developer else []

end Resolution

namespace Point

def effect (settings : SignInSettings) : Point wallets → Db → Db
  | .issueCommit challenge => fun db => db.issue challenge
  | .check attempt => attempt.spend
  | .findDeveloper answer => answer.spend
  | .insertDeveloper answer _ => answer.spend
  | .mintKey resolution _ => resolution.resolved
  | .commit resolution => resolution.committed settings
  | _ => id

def claimed (settings : SignInSettings) : Point wallets → List Row
  | .insertNonce challenge rows => (nonceRows challenge).filter (· ∉ rows)
  | .issueCommit challenge => nonceRows challenge
  | .spend attempt => [.challenge attempt.challenge.id]
  | .check attempt => [.challenge attempt.challenge.id]
  | .findDeveloper answer => [.challenge answer.challenge.id]
  | .insertDeveloper answer rows =>
    .challenge answer.challenge.id :: (developerRows answer.register).filter (· ∉ rows)
  | .mintKey resolution rows =>
    resolution.rows ++ (keyRows (resolution.key settings)).filter (· ∉ rows)
  | .commit resolution =>
    resolution.rows ++ keyRows (resolution.key settings)
  | _ => []

def challenge : Point wallets → Option AuthNonce
  | .claimNonce attempt => some attempt.challenge
  | .spend attempt => some attempt.challenge
  | .check attempt => some attempt.challenge
  | .findDeveloper answer => some answer.challenge
  | .insertDeveloper answer _ => some answer.challenge
  | .mintKey resolution _ => some resolution.challenge
  | .commit resolution => some resolution.challenge
  | _ => none

def resolution : Point wallets → Option (Resolution wallets)
  | .mintKey resolution _ => some resolution
  | .commit resolution => some resolution
  | _ => none

def dropped : Point wallets → Bool
  | .failing _ => true
  | _ => false

def commits : Point wallets → Bool
  | .issueCommit _ => true
  | .commit _ => true
  | _ => false

end Point

/-- The challenge is stored; it may have been spent since it was loaded. -/
def Db.Lists (db : Db) (challenge : AuthNonce) : Prop :=
  ∃ usedAt, { challenge with usedAt := usedAt } ∈ db.nonces

structure Resolution.Stands (resolution : Resolution wallets) (db : Db) : Prop where
  wallet : resolution.developer.walletAddress = some resolution.address
  stored : resolution.created = false → resolution.developer ∈ db.developers

/-- What a connection has loaded is still true of the tables. -/
structure Knows (db : Db) (point : Point wallets) : Prop where
  listed : ∀ challenge ∈ point.challenge, db.Lists challenge
  stands : ∀ resolution ∈ point.resolution, resolution.Stands db

def script (wallets : Wallets) (settings : SignInSettings) : Script Db Row (Point wallets) where
  taken := Db.taken
  effect := Point.effect settings
  claimed := Point.claimed settings
  dropped := Point.dropped
  commits := Point.commits
  Knows := Knows

end Gridix.SignIn
