import ContentOrchestrator.Lib.Spans
import ContentOrchestrator.Model.Clock
import Mathlib.Algebra.Order.Group.Nat
import Mathlib.Logic.Function.Basic

/-! # Signing in with a password

The throttle is kept on the credential row: a count of recent failures and the time a
lock ends. Logins on one account follow each other under the row's lock, so an attempt
is a function of the row it finds. Hashing, the token and the spelling of an address
belong to libraries and are parameters. -/

namespace ContentOrchestrator

open Lib

def maxFailedAttempts : Nat := 10

def lockoutSeconds : Nat := 900

def failureWindowSeconds : Nat := 900

structure LocalAuthCredential where
  userId : Nat
  email : String
  passwordHash : String
  failedAttempts : Nat := 0
  lastFailedAt : Option Nat := none
  lockedUntil : Option Nat := none
deriving DecidableEq, Repr

/-- The stored credentials by their unique address. -/
abbrev Credentials := String → Option LocalAuthCredential

structure AuthError where
  code : String
  message : String
deriving DecidableEq, Repr

structure AuthToken where
  accessToken : String
  tokenType : String
  expiresIn : Nat
  userId : Nat
  email : String
deriving DecidableEq, Repr

/-- The setting and the library functions of a deployment. -/
structure LocalAuth where
  authMode : String
  /-- `email.strip().lower()` -/
  normalize : String → String
  verifyPassword : String → String → Bool
  mintAccessToken : Nat → String → Nat → String

structure LoginAttempt where
  email : String
  password : String
  now : Nat
deriving DecidableEq, Repr

def invalidCredentials : AuthError := ⟨"invalid_credentials", "invalid email or password"⟩

namespace LocalAuthCredential

def isLocked (row : LocalAuthCredential) (now : Nat) : Bool := row.lockedUntil.any fun u => now < u

/-- The last failure is too long ago to count on from. -/
def isStale (row : LocalAuthCredential) (now : Nat) : Bool :=
  row.lastFailedAt.all fun failed => seconds failureWindowSeconds < now - failed

def fail (row : LocalAuthCredential) (now : Nat) : LocalAuthCredential :=
  let failedAttempts := if row.isStale now then 1 else row.failedAttempts + 1
  { row with
    failedAttempts := failedAttempts
    lastFailedAt := some now
    lockedUntil := if maxFailedAttempts ≤ failedAttempts then some (now + seconds lockoutSeconds)
      else row.lockedUntil }

def succeed (row : LocalAuthCredential) : LocalAuthCredential :=
  { row with failedAttempts := 0, lastFailedAt := none, lockedUntil := none }

end LocalAuthCredential

namespace LocalAuth

variable (auth : LocalAuth)

/-- The part of a login after its row was found. -/
def loginRow (row : LocalAuthCredential) (password : String) (now : Nat) :
    Except AuthError AuthToken × LocalAuthCredential :=
  if row.isLocked now then (.error invalidCredentials, row)
  else if auth.verifyPassword password row.passwordHash = false then
    (.error invalidCredentials, row.fail now)
  else
    (.ok { accessToken := auth.mintAccessToken row.userId row.email now, tokenType := "bearer"
           expiresIn := 3600, userId := row.userId, email := row.email }, row.succeed)

def login (store : Credentials) (attempt : LoginAttempt) :
    Except AuthError AuthToken × Credentials :=
  if auth.authMode ≠ "local" then
    (.error ⟨"auth_disabled", "local login is disabled when AUTH_MODE!=local"⟩, store)
  else
    let normalized := auth.normalize attempt.email
    match store normalized with
    | none => (.error invalidCredentials, store)
    | some row =>
      let (answer, row) := auth.loginRow row attempt.password attempt.now
      (answer, Function.update store normalized (some row))

/-- The status and detail of a refusal, or the token. -/
inductive LoginResponse
  | refused (status : Nat) (detail : String)
  | token (token : AuthToken)
deriving DecidableEq, Repr

/-- The route commits whether the login succeeds or not: a rolled back failure would not count. -/
def loginRoute (store : Credentials) (attempt : LoginAttempt) : LoginResponse × Credentials :=
  if auth.authMode ≠ "local" then (.refused 404 "local auth is disabled", store)
  else
    match auth.login store attempt with
    | (.error error, store) => (.refused 401 error.message, store)
    | (.ok token, store) => (.token token, store)

/-- The attempts of a list, each with the credentials it finds. -/
def served : Credentials → List LoginAttempt → List (Credentials × LoginAttempt)
  | _, [] => []
  | store, attempt :: rest => (store, attempt) :: served (auth.loginRoute store attempt).2 rest

def against (account : String) (attempt : LoginAttempt) : Bool :=
  auth.normalize attempt.email == account

/-- The response, or what is stored after it, depends on the password. -/
def PasswordMatters (store : Credentials) (attempt : LoginAttempt) : Prop :=
  ∃ password : String, auth.loginRoute store { attempt with password := password } ≠
    auth.loginRoute store attempt

theorem served_attempts (store : Credentials) (attempts : List LoginAttempt) :
    (auth.served store attempts).map Prod.snd = attempts := by
  induction attempts generalizing store with
  | nil => rfl
  | cons attempt rest ih => rw [served, List.map_cons, ih]

/-! ## One row -/

/-- The attempts on a row, each with the row it finds. -/
def rowServed : LocalAuthCredential → List LoginAttempt → List (LocalAuthCredential × LoginAttempt)
  | _, [] => []
  | row, attempt :: rest =>
    (row, attempt) :: rowServed (auth.loginRow row attempt.password attempt.now).2 rest

/-- The attempt reaches the comparison of the password. -/
def compares (hit : LocalAuthCredential × LoginAttempt) : Bool := !hit.1.isLocked hit.2.now

theorem isLocked_eq {row : LocalAuthCredential} {now : Nat} :
    row.isLocked now = true ↔ ∃ u, row.lockedUntil = some u ∧ now < u := by
  simp [LocalAuthCredential.isLocked, Option.any_eq_true]

theorem loginRow_locked {row : LocalAuthCredential} {now : Nat} (h : row.isLocked now = true)
    (password : String) :
    auth.loginRow row password now = (.error invalidCredentials, row) := by
  simp [loginRow, h]

theorem loginRow_wrong {row : LocalAuthCredential} {password : String} {now : Nat}
    (h : row.isLocked now = false)
    (hwrong : auth.verifyPassword password row.passwordHash = false) :
    auth.loginRow row password now = (.error invalidCredentials, row.fail now) := by
  simp [loginRow, h, hwrong]

theorem loginRoute_of_local (hlocal : auth.authMode = "local") {store : Credentials}
    {attempt : LoginAttempt} :
    (auth.loginRoute store attempt).2 = (auth.login store attempt).2 := by
  rw [loginRoute, if_neg (not_not.mpr hlocal)]
  split <;> rename_i heq <;> rw [heq]

theorem login_found (hlocal : auth.authMode = "local") {store : Credentials}
    {attempt : LoginAttempt} {row : LocalAuthCredential}
    (hrow : store (auth.normalize attempt.email) = some row) :
    auth.login store attempt = ((auth.loginRow row attempt.password attempt.now).1,
      Function.update store (auth.normalize attempt.email)
        (some (auth.loginRow row attempt.password attempt.now).2)) := by
  rw [login, if_neg (not_not.mpr hlocal)]
  simp only [hrow]

/-- An attempt on the account leaves the row its outcome says; other attempts leave the row
alone. -/
theorem stored_after (hlocal : auth.authMode = "local") {store : Credentials}
    (attempt : LoginAttempt) {account : String} {row : LocalAuthCredential}
    (hrow : store account = some row) :
    (auth.loginRoute store attempt).2 account =
      some (if auth.against account attempt then (auth.loginRow row attempt.password attempt.now).2
        else row) := by
  rw [auth.loginRoute_of_local hlocal]
  by_cases hagainst : auth.normalize attempt.email = account
  · subst hagainst
    rw [auth.login_found hlocal hrow, if_pos (by simp [against])]
    exact Function.update_self ..
  · rw [if_neg (by simpa [against] using hagainst), login, if_neg (not_not.mpr hlocal)]
    cases hother : store (auth.normalize attempt.email) with
    | none => simp only [hother, hrow]
    | some other =>
      simp only [hother]
      rw [Function.update_of_ne (Ne.symm hagainst), hrow]

/-- While the row is locked the route answers and stores the same whatever the password. -/
theorem loginRoute_locked {store : Credentials} {attempt : LoginAttempt} {row : LocalAuthCredential}
    (hrow : store (auth.normalize attempt.email) = some row)
    (hlocked : row.isLocked attempt.now = true) (password : String) :
    auth.loginRoute store { attempt with password := password } =
      auth.loginRoute store attempt := by
  by_cases hlocal : auth.authMode = "local"
  · have hany : ∀ password : String, auth.login store { attempt with password := password } =
        (.error invalidCredentials,
          Function.update store (auth.normalize attempt.email) (some row)) := by
      intro password
      have hrow' : store (auth.normalize { attempt with password := password }.email) = some row :=
        hrow
      rw [auth.login_found hlocal hrow', auth.loginRow_locked hlocked]
    have hown := hany attempt.password
    rw [loginRoute, loginRoute, if_neg (not_not.mpr hlocal), if_neg (not_not.mpr hlocal),
      hany password]
    simp only at hown ⊢
    rw [hown]
  · rw [loginRoute, loginRoute, if_pos hlocal, if_pos hlocal]

theorem loginRoute_unknown {store : Credentials} {attempt : LoginAttempt}
    (hrow : store (auth.normalize attempt.email) = none) (password : String) :
    auth.loginRoute store { attempt with password := password } =
      auth.loginRoute store attempt := by
  by_cases hlocal : auth.authMode = "local"
  · rw [loginRoute, loginRoute, if_neg (not_not.mpr hlocal), if_neg (not_not.mpr hlocal), login,
      login, if_neg (not_not.mpr hlocal), if_neg (not_not.mpr hlocal)]
    simp only [hrow]
  · rw [loginRoute, loginRoute, if_pos hlocal, if_pos hlocal]

/-- Where the password matters, the account is there and open. -/
theorem PasswordMatters.found {store : Credentials} {attempt : LoginAttempt}
    (h : auth.PasswordMatters store attempt) :
    ∃ row, store (auth.normalize attempt.email) = some row ∧ row.isLocked attempt.now = false := by
  obtain ⟨password, hdiffers⟩ := h
  cases hrow : store (auth.normalize attempt.email) with
  | none => exact absurd (auth.loginRoute_unknown hrow password) hdiffers
  | some row =>
    refine ⟨row, rfl, ?_⟩
    by_contra hlocked
    exact hdiffers (auth.loginRoute_locked hrow (by simpa using hlocked) password)

/-! ## The count of failures -/

variable {auth} {within : Nat → Bool}

/-- What a failure leaves: it is the last one, it was counted, and the tenth ends in a lock. -/
structure Counted (row : LocalAuthCredential) (last : Nat) : Prop where
  lastFailed : row.lastFailedAt = some last
  locks : maxFailedAttempts ≤ row.failedAttempts →
    row.lockedUntil = some (last + seconds lockoutSeconds)

theorem fail_counted (row : LocalAuthCredential) (now : Nat) :
    Counted (row.fail now) now ∧ 1 ≤ (row.fail now).failedAttempts := by
  refine ⟨⟨rfl, fun h => if_pos h⟩, ?_⟩
  simp only [LocalAuthCredential.fail]
  split <;> omega

/-- A failure within the window of the last one counts on. -/
theorem fail_counts_on {row : LocalAuthCredential} {last now : Nat} (h : Counted row last)
    (hrecent : now < last + seconds lockoutSeconds) :
    (row.fail now).failedAttempts = row.failedAttempts + 1 := by
  have hwindow : failureWindowSeconds = lockoutSeconds := rfl
  have hfresh : row.isStale now = false := by
    simp only [LocalAuthCredential.isStale, h.lastFailed, Option.all_some, decide_eq_false_iff_not,
      hwindow]
    omega
  simp only [LocalAuthCredential.fail, hfresh, Bool.false_eq_true, if_false]

/-- Ten failures lock the row for the lock's length. -/
theorem locked_of_ten {row : LocalAuthCredential} {last now : Nat} (h : Counted row last)
    (hten : maxFailedAttempts ≤ row.failedAttempts)
    (hrecent : now < last + seconds lockoutSeconds) :
    row.isLocked now = true :=
  isLocked_eq.mpr ⟨_, h.locks hten, hrecent⟩

/-- The attempts on the row, in the order given, that reach the comparison at one of the moments. -/
def comparedWithin (auth : LocalAuth) (within : Nat → Bool) (row : LocalAuthCredential)
    (attempts : List LoginAttempt) : Nat :=
  (auth.rowServed row attempts).countP fun hit => compares hit && within hit.2.now

theorem comparedWithin_outside {attempts : List LoginAttempt} {row : LocalAuthCredential}
    (h : ∀ attempt ∈ attempts, within attempt.now = false) :
    comparedWithin auth within row attempts = 0 := by
  induction attempts generalizing row with
  | nil => rfl
  | cons attempt rest ih =>
    have hrest : comparedWithin auth within (auth.loginRow row attempt.password attempt.now).2
        rest = 0 :=
      ih fun a ha => h a (List.mem_cons_of_mem _ ha)
    rw [comparedWithin, rowServed, List.countP_cons_of_neg (by simp [h attempt List.mem_cons_self])]
    exact hrest

/-- An attempt that reaches the comparison brings a wrong password. -/
def WrongWhenOpen (auth : LocalAuth) (hit : LocalAuthCredential × LoginAttempt) : Prop :=
  hit.1.isLocked hit.2.now = false → auth.verifyPassword hit.2.password hit.1.passwordHash = false

/-- The first attempt of a list: refused by the lock, or a failure that is counted. -/
theorem comparedWithin_cons (within : Nat → Bool) {row : LocalAuthCredential}
    {attempt : LoginAttempt} {rest : List LoginAttempt}
    (hwrong : ∀ hit ∈ auth.rowServed row (attempt :: rest), auth.WrongWhenOpen hit) :
    (row.isLocked attempt.now = true ∧ (∀ hit ∈ auth.rowServed row rest, auth.WrongWhenOpen hit) ∧
      comparedWithin auth within row (attempt :: rest) = comparedWithin auth within row rest) ∨
    (row.isLocked attempt.now = false ∧
      (∀ hit ∈ auth.rowServed (row.fail attempt.now) rest, auth.WrongWhenOpen hit) ∧
      comparedWithin auth within row (attempt :: rest) =
        (within attempt.now).toNat + comparedWithin auth within (row.fail attempt.now) rest) := by
  cases hlocked : row.isLocked attempt.now with
  | true =>
    have hnext : auth.loginRow row attempt.password attempt.now =
        (.error invalidCredentials, row) :=
      auth.loginRow_locked hlocked attempt.password
    have htail : ∀ hit ∈ auth.rowServed row rest, auth.WrongWhenOpen hit := by
      intro hit hhit
      refine hwrong hit ?_
      rw [rowServed, hnext]
      exact List.mem_cons_of_mem _ hhit
    refine .inl ⟨rfl, htail, ?_⟩
    rw [comparedWithin, rowServed, List.countP_cons_of_neg (by simp [compares, hlocked]), hnext]
    rfl
  | false =>
    have hfails := hwrong (row, attempt) List.mem_cons_self hlocked
    have hnext : auth.loginRow row attempt.password attempt.now =
        (.error invalidCredentials, row.fail attempt.now) := auth.loginRow_wrong hlocked hfails
    have htail : ∀ hit ∈ auth.rowServed (row.fail attempt.now) rest, auth.WrongWhenOpen hit := by
      intro hit hhit
      refine hwrong hit ?_
      rw [rowServed, hnext]
      exact List.mem_cons_of_mem _ hhit
    refine .inr ⟨rfl, htail, ?_⟩
    rw [comparedWithin, rowServed, List.countP_cons, hnext, Nat.add_comm, comparedWithin]
    cases hwithin : within attempt.now <;> simp [compares, hlocked]

/-- After a failure inside the span, what is left of ten. -/
theorem comparedWithin_counted (hspan : Span (seconds lockoutSeconds) within)
    {attempts : List LoginAttempt} :
    ∀ {row : LocalAuthCredential} {last : Nat}, Counted row last → within last = true →
      (attempts.map fun attempt => attempt.now).Pairwise (· ≤ ·) →
        (∀ attempt ∈ attempts, last ≤ attempt.now) →
        (∀ hit ∈ auth.rowServed row attempts, auth.WrongWhenOpen hit) →
          comparedWithin auth within row attempts ≤ maxFailedAttempts - row.failedAttempts := by
  induction attempts with
  | nil => intro row last _ _ _ _ _; exact Nat.zero_le _
  | cons attempt rest ih =>
    intro row last hcounted hlast hordered hlater hwrong
    obtain ⟨hnow, hrest⟩ := List.pairwise_cons.mp hordered
    have hnow' : ∀ a ∈ rest, attempt.now ≤ a.now := fun a ha => hnow _ (List.mem_map_of_mem ha)
    obtain ⟨-, htail, hcount⟩ | ⟨hopen, htail, hcount⟩ := comparedWithin_cons within hwrong
    · rw [hcount]
      exact ih hcounted hlast hrest (fun a ha => hlater a (List.mem_cons_of_mem _ ha)) htail
    · rw [hcount]
      cases hwithin : within attempt.now with
      | false =>
        have hgone : ∀ a ∈ rest, within a.now = false := fun a ha =>
          hspan.left hlast (hlater attempt List.mem_cons_self) hwithin (hnow' a ha)
        rw [comparedWithin_outside hgone]
        exact Nat.zero_le _
      | true =>
        have hrecent : attempt.now < last + seconds lockoutSeconds := hspan.short _ _ hlast hwithin
        have hfew : row.failedAttempts < maxFailedAttempts := by
          by_contra hmany
          rw [locked_of_ten hcounted (Nat.le_of_not_lt hmany) hrecent] at hopen
          cases hopen
        have hone := fail_counts_on hcounted hrecent
        have := ih (fail_counted row attempt.now).1 hwithin hrest hnow' htail
        rw [hone] at this
        simp only [Bool.toNat_true]
        omega

/-- **The bound.** In a span of the lock's length no more than ten passwords are compared. -/
theorem comparedWithin_le (hspan : Span (seconds lockoutSeconds) within)
    {attempts : List LoginAttempt} :
    ∀ {row : LocalAuthCredential}, (attempts.map fun attempt => attempt.now).Pairwise (· ≤ ·) →
      (∀ hit ∈ auth.rowServed row attempts, auth.WrongWhenOpen hit) →
        comparedWithin auth within row attempts ≤ maxFailedAttempts := by
  induction attempts with
  | nil => intro row _ _; exact Nat.zero_le _
  | cons attempt rest ih =>
    intro row hordered hwrong
    obtain ⟨hnow, hrest⟩ := List.pairwise_cons.mp hordered
    obtain ⟨-, htail, hcount⟩ | ⟨-, htail, hcount⟩ := comparedWithin_cons within hwrong
    · rw [hcount]
      exact ih hrest htail
    · rw [hcount]
      cases hwithin : within attempt.now with
      | false =>
        rw [Bool.toNat_false, Nat.zero_add]
        exact ih hrest htail
      | true =>
        obtain ⟨hcounted, hone⟩ := fail_counted row attempt.now
        have := comparedWithin_counted hspan hcounted hwithin hrest
          (fun a ha => hnow _ (List.mem_map_of_mem ha)) htail
        simp only [Bool.toNat_true, maxFailedAttempts] at *
        omega

/-! ## The account among the others -/

/-- The attempts on an account find its row as if they were the only ones. -/
theorem rowServed_eq (hlocal : auth.authMode = "local") (account : String)
    (attempts : List LoginAttempt) :
    ∀ {store : Credentials} {row : LocalAuthCredential}, store account = some row →
      (auth.rowServed row (attempts.filter (auth.against account))).map
        (fun hit => (some hit.1, hit.2)) =
        ((auth.served store attempts).filter fun hit => auth.against account hit.2).map
          fun hit => (hit.1 account, hit.2) := by
  induction attempts with
  | nil => intro _ _ _; rfl
  | cons attempt rest ih =>
    intro store row hrow
    have hafter := auth.stored_after hlocal attempt hrow
    cases hagainst : auth.against account attempt with
    | true =>
      rw [hagainst, if_pos rfl] at hafter
      rw [List.filter_cons_of_pos hagainst, rowServed, served,
        List.filter_cons_of_pos (by exact hagainst), List.map_cons, List.map_cons, ih hafter,
          ← hrow]
    | false =>
      rw [hagainst, if_neg Bool.false_ne_true] at hafter
      have hother : ¬ auth.against account attempt = true := by simp [hagainst]
      rw [List.filter_cons_of_neg hother, served, List.filter_cons_of_neg (by exact hother),
        ih hafter]

/-- No attempt creates an account. -/
theorem served_unknown (hlocal : auth.authMode = "local") {account : String}
    {attempts : List LoginAttempt} :
    ∀ {store : Credentials}, store account = none →
      ∀ hit ∈ auth.served store attempts, hit.1 account = none := by
  induction attempts with
  | nil => intro _ _ hit hhit; cases hhit
  | cons attempt rest ih =>
    intro store hnone hit hhit
    have hafter : (auth.loginRoute store attempt).2 account = none := by
      rw [auth.loginRoute_of_local hlocal]
      cases hrow : store (auth.normalize attempt.email) with
      | none => simp only [login, hlocal, ne_eq, not_true_eq_false, if_false, hrow, hnone]
      | some row =>
        have hother : account ≠ auth.normalize attempt.email := by
          intro hsame
          rw [← hsame, hnone] at hrow
          cases hrow
        rw [auth.login_found hlocal hrow]
        exact (Function.update_of_ne hother ..).trans hnone
    rcases List.mem_cons.mp hhit with rfl | hhit
    · exact hnone
    · exact ih hafter hit hhit

/-- **The bound among the others.** The comparisons for the account in a span of the lock's
length. -/
theorem served_compared_le (hspan : Span (seconds lockoutSeconds) within)
    (hlocal : auth.authMode = "local") {account : String} {attempts : List LoginAttempt}
    {store : Credentials} {row : LocalAuthCredential} (hrow : store account = some row)
    (hordered : ((attempts.filter (auth.against account)).map fun attempt => attempt.now).Pairwise
      (· ≤ ·))
    (hwrong : ∀ hit ∈ auth.served store attempts, auth.against account hit.2 = true →
      ∀ row, hit.1 account = some row → auth.WrongWhenOpen (row, hit.2)) :
    (auth.served store attempts).countP (fun hit => auth.against account hit.2 &&
      ((hit.1 account).any (fun row => !row.isLocked hit.2.now) && within hit.2.now)) ≤
        maxFailedAttempts := by
  have hserved := rowServed_eq hlocal account attempts hrow
  have hrows : ∀ hit ∈ auth.rowServed row (attempts.filter (auth.against account)),
      auth.WrongWhenOpen hit := by
    intro hit hhit
    have hfound := List.mem_map_of_mem (f := fun hit => (some hit.1, hit.2)) hhit
    rw [hserved] at hfound
    obtain ⟨found, hmem, heq⟩ := List.mem_map.mp hfound
    obtain ⟨hmem, hagainst⟩ := List.mem_filter.mp hmem
    obtain ⟨hstored, hattempt⟩ := Prod.mk.inj heq
    have := hwrong found hmem hagainst hit.1 hstored
    rwa [hattempt] at this
  have hbound := comparedWithin_le hspan hordered hrows
  have hcount := congrArg (List.countP fun hit : Option LocalAuthCredential × LoginAttempt =>
    hit.1.any (fun row => !row.isLocked hit.2.now) && within hit.2.now) hserved
  rw [List.countP_map, List.countP_map, List.countP_filter] at hcount
  calc _ = _ := List.countP_congr fun hit _ => by simp [and_comm]
    _ = comparedWithin auth within row (attempts.filter (auth.against account)) := hcount.symm
    _ ≤ maxFailedAttempts := hbound

theorem loginRow_passwordHash (row : LocalAuthCredential) (password : String) (now : Nat) :
    (auth.loginRow row password now).2.passwordHash = row.passwordHash := by
  rw [loginRow]
  split
  · rfl
  · split <;> rfl

/-- Signing in never changes what the password of an account is. -/
theorem served_passwordHash (hlocal : auth.authMode = "local") {account : String}
    {attempts : List LoginAttempt} :
    ∀ {store : Credentials} {row : LocalAuthCredential}, store account = some row →
      ∀ hit ∈ auth.served store attempts, ∀ found, hit.1 account = some found →
        found.passwordHash = row.passwordHash := by
  induction attempts with
  | nil => intro _ _ _ hit hhit; cases hhit
  | cons attempt rest ih =>
    intro store row hrow hit hhit found hfound
    rcases List.mem_cons.mp hhit with rfl | hhit
    · exact congrArg _ (Option.some.inj (hfound.symm.trans hrow))
    · have hafter := auth.stored_after hlocal attempt hrow
      rw [ih hafter hit hhit found hfound]
      split
      · exact loginRow_passwordHash ..
      · rfl

end LocalAuth

end ContentOrchestrator
