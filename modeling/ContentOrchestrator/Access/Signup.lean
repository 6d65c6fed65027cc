import ContentOrchestrator.Access.LocalAuth
import ContentOrchestrator.Lib.FieldTexts
import ContentOrchestrator.Model.Text

/-! # Accounts

A password is stored as one text: the algorithm, its rounds, the salt and the digest.
Signing up makes the row that signing in checks; what is drawn at random comes with the
request, and the digest function of the library is a parameter. -/

namespace ContentOrchestrator

open Lib

def minPasswordLength : Nat := 12

/-- The setting and the library functions of a deployment, with `hashlib.pbkdf2_hmac("sha256", …)`
in place of the check of a password. -/
structure AuthDeployment where
  authMode : String
  /-- `email.strip().lower()` -/
  normalize : String → String
  /-- The digest of password and salt after a number of rounds. -/
  pbkdf2Hmac : String → String → Nat → List UInt8
  mintAccessToken : Nat → String → Nat → String

/-! ## Hashes as texts -/

namespace AuthDeployment

variable (d : AuthDeployment)

/-- The algorithm and the rounds `hash_password` uses, as written into the hash. -/
def algorithm : List Char := "pbkdf2_sha256".toList

def rounds : Nat := 200000

def roundsText : List Char := "200000".toList

/-- `secrets.token_hex(16)` of the bytes drawn. -/
def saltText (salt : List UInt8) : String := String.ofList (hex salt)

def digest (password : String) (salt : List UInt8) : List UInt8 :=
  d.pbkdf2Hmac password (saltText salt) rounds

def hashPassword (password : String) (salt : List UInt8) : String :=
  String.ofList (algorithm ++ '$' ::
    (roundsText ++ '$' :: (hex salt ++ '$' :: hex (d.digest password salt))))

/-- `none` where the digest function or the comparison raises. -/
def verifyPassword (password passwordHash : String) : Option Bool :=
  match splitMost '$' 3 passwordHash.toList with
  | [algo, rounds, salt, digest] =>
    if algo ≠ algorithm then some false
    else
      match intOfText? rounds with
      | none => some false
      | some rounds =>
        if rounds < 1 then none
        else
          let candidate := hex (d.pbkdf2Hmac password (String.ofList salt) rounds.toNat)
          if digest.all fun c => decide (c.toNat < 128) then some (candidate == digest) else none
  | _ => some false

/-- The check of a stored hash. -/
def auth : LocalAuth where
  authMode := d.authMode
  normalize := d.normalize
  verifyPassword password passwordHash := d.verifyPassword password passwordHash == some true
  mintAccessToken := d.mintAccessToken

/-! ## Signing up -/

structure SignupIn where
  email : String
  password : String
  /-- `uuid.uuid4()` and the bytes of the salt, as drawn. -/
  userId : Nat
  salt : List UInt8
  now : Nat
deriving DecidableEq, Repr

def signup (store : Credentials) (payload : SignupIn) : Except AuthError AuthToken × Credentials :=
  if d.authMode ≠ "local" then
    (.error ⟨"auth_disabled", "local signup is disabled when AUTH_MODE!=local"⟩, store)
  else
    let normalized := d.normalize payload.email
    if payload.password.length < minPasswordLength then
      (.error ⟨"weak_password", "password must be at least 12 characters"⟩, store)
    else
      match store normalized with
      | some _ => (.error ⟨"email_taken", "an account with this email already exists"⟩, store)
      | none =>
        let row : LocalAuthCredential :=
          { userId := payload.userId, email := normalized
            passwordHash := d.hashPassword payload.password payload.salt }
        (.ok { accessToken := d.mintAccessToken payload.userId normalized payload.now
               tokenType := "bearer", expiresIn := 3600, userId := payload.userId
               email := normalized }, Function.update store normalized (some row))

/-- Only a signup that succeeds is committed. -/
def signupRoute (store : Credentials) (payload : SignupIn) :
    LocalAuth.LoginResponse × Credentials :=
  if d.authMode ≠ "local" then (.refused 404 "local auth is disabled", store)
  else
    match d.signup store payload with
    | (.error error, _) =>
      (.refused (if error.code = "email_taken" then 409 else 400) error.message, store)
    | (.ok token, store) => (.token token, store)

/-! ## Requests one after the other -/

/-- The stored credentials, and the signups that were answered with a token. -/
structure Accounts where
  store : Credentials := fun _ => none
  opened : List SignupIn := []

inductive AuthRequest
  | signup (payload : SignupIn)
  | login (attempt : LoginAttempt)
deriving DecidableEq, Repr

def handle (accounts : Accounts) : AuthRequest → Accounts
  | .signup payload =>
    match d.signupRoute accounts.store payload with
    | (.token _, store) => { store, opened := accounts.opened ++ [payload] }
    | (.refused _ _, store) => { accounts with store }
  | .login attempt => { accounts with store := (d.auth.loginRoute accounts.store attempt).2 }

end AuthDeployment

end ContentOrchestrator
