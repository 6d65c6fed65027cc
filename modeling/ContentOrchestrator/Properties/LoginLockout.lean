import ContentOrchestrator.Access.LocalAuth

/-! # How many passwords can be tried

However attempts on an account follow each other, and whatever is tried on other
accounts meanwhile, no half-open interval of the lock's length holds more than ten
whose outcome the password decides, and a locked account gives no outcome away. -/

namespace ContentOrchestrator

open Lib

theorem matters_counted {auth : LocalAuth} {account : String} {hit : Credentials × LoginAttempt}
    (hagainst : auth.against account hit.2 = true) (hmatters : auth.PasswordMatters hit.1 hit.2) :
    (hit.1 account).any (fun row => !row.isLocked hit.2.now) = true := by
  obtain ⟨row, hrow, hopen⟩ := LocalAuth.PasswordMatters.found auth hmatters
  have haccount : auth.normalize hit.2.email = account := by
    simpa [LocalAuth.against] using hagainst
  rw [haccount] at hrow
  simp [hrow, hopen]

/-- The attempts picked out by their span and by the password mattering are among those that were
compared. -/
theorem picked_le {auth : LocalAuth} {within : Nat → Bool}
    (hspan : Span (seconds lockoutSeconds) within) {store : Credentials} {account : String}
    {attempts : List LoginAttempt}
    (hordered : ((attempts.filter (auth.against account)).map fun attempt => attempt.now).Pairwise
      (· ≤ ·))
    (hwrong : ∀ hit ∈ auth.served store attempts, auth.against account hit.2 = true →
      ∀ row, hit.1 account = some row → auth.WrongWhenOpen (row, hit.2))
    {picked : List (Credentials × LoginAttempt)}
    (hpicked : picked.Sublist (auth.served store attempts))
    (hmatters : ∀ hit ∈ picked, auth.against account hit.2 = true ∧
      auth.PasswordMatters hit.1 hit.2) (hwithin : ∀ hit ∈ picked, within hit.2.now = true) :
    picked.length ≤ maxFailedAttempts := by
  have hall : ∀ hit ∈ picked, (auth.against account hit.2 &&
      ((hit.1 account).any (fun row => !row.isLocked hit.2.now) && within hit.2.now)) = true := by
    intro hit hhit
    obtain ⟨hagainst, hmatter⟩ := hmatters hit hhit
    rw [hagainst, matters_counted hagainst hmatter, hwithin hit hhit]
    rfl
  rcases picked with _ | ⟨first, rest⟩
  · exact Nat.zero_le _
  have hfirst := hall first List.mem_cons_self
  have hmember : first ∈ auth.served store attempts := hpicked.subset List.mem_cons_self
  by_cases hlocal : auth.authMode = "local"
  · cases hrow : store account with
    | none =>
      rw [LocalAuth.served_unknown hlocal hrow first hmember] at hfirst
      simp at hfirst
    | some row =>
      calc (first :: rest).length
          = (first :: rest).countP (fun hit => auth.against account hit.2 &&
              ((hit.1 account).any (fun row => !row.isLocked hit.2.now) && within hit.2.now)) :=
            (List.countP_eq_length.mpr hall).symm
        _ ≤ _ := hpicked.countP_le
        _ ≤ maxFailedAttempts := LocalAuth.served_compared_le hspan hlocal hrow hordered hwrong
  · obtain ⟨-, password, hdiffers⟩ := hmatters first List.mem_cons_self
    refine absurd ?_ hdiffers
    rw [LocalAuth.loginRoute, LocalAuth.loginRoute, if_pos hlocal, if_pos hlocal]

/-- The outcome of an attempt is the response together with what is stored after it. -/
theorem logins_bounded (auth : LocalAuth) (store : Credentials) (account : String)
    (attempts : List LoginAttempt)
    (hordered : ((attempts.filter (auth.against account)).map fun attempt => attempt.now).Pairwise
      (· ≤ ·))
    (hwrong : ∀ hit ∈ auth.served store attempts, auth.against account hit.2 = true →
      ∀ row, hit.1 account = some row → row.isLocked hit.2.now = false →
      auth.verifyPassword hit.2.password row.passwordHash = false) :
    (∀ (first : Nat) (picked : List (Credentials × LoginAttempt)),
    picked.Sublist (auth.served store attempts) →
      (∀ hit ∈ picked, auth.against account hit.2 = true ∧ auth.PasswordMatters hit.1 hit.2) →
      ((∀ hit ∈ picked, first ≤ hit.2.now ∧ hit.2.now < first + seconds 900) ∨
        (∀ hit ∈ picked, first < hit.2.now ∧ hit.2.now ≤ first + seconds 900)) →
          picked.length ≤ 10) ∧
    ∀ hit ∈ auth.served store attempts, ∀ row, hit.1 (auth.normalize hit.2.email) = some row →
      row.isLocked hit.2.now = true →
        ∀ password, auth.loginRoute hit.1 { hit.2 with password := password } =
          auth.loginRoute hit.1 hit.2 := by
  constructor
  · rintro first picked hpicked hmatters (hwithin | hwithin)
    · refine picked_le (span_fromUntil (seconds lockoutSeconds) first) hordered hwrong hpicked
        hmatters ?_
      intro hit hhit
      exact fromUntil_eq.mpr (hwithin hit hhit)
    · refine picked_le (span_afterUpTo (seconds lockoutSeconds) first) hordered hwrong hpicked
        hmatters ?_
      intro hit hhit
      exact afterUpTo_eq.mpr (hwithin hit hhit)
  · intro hit _ row hrow hlocked password
    exact auth.loginRoute_locked hrow hlocked password

/-- A deployment whose hash is the password itself. -/
def plainAuth : LocalAuth where
  authMode := "local"
  normalize email := email
  verifyPassword password passwordHash := password == passwordHash
  mintAccessToken _ email _ := email

def oneAccount : Credentials
  | "owner@example.com" => some { userId := 1, email := "owner@example.com"
                                  passwordHash := "correct horse battery" }
  | _ => none

/-- Eleven guesses a second apart, and one more as the lock ends. -/
def guesses : List LoginAttempt :=
  [1, 2, 3, 4, 5, 6, 7, 8, 9, 10, 11, 910].map fun n =>
    ⟨"owner@example.com", "a wrong guess", seconds n⟩

theorem logins_bounded_guesses :
    (plainAuth.served oneAccount guesses).map (fun hit =>
        (hit.1 "owner@example.com").any fun row => row.isLocked hit.2.now) =
      [false, false, false, false, false, false, false, false, false, false, true, false] ∧
    ∀ picked :
      List (Credentials × LoginAttempt), picked.Sublist (plainAuth.served oneAccount guesses) →
      (∀ hit ∈ picked, plainAuth.against "owner@example.com" hit.2 = true ∧
        plainAuth.PasswordMatters hit.1 hit.2) →
      (∀ hit ∈ picked, seconds 1 ≤ hit.2.now ∧ hit.2.now < seconds 1 + seconds 900) →
          picked.length ≤ 10 := by
  refine ⟨by decide +kernel, fun picked hpicked hmatters hwithin =>
    (logins_bounded plainAuth oneAccount "owner@example.com" guesses (by decide +kernel) ?_).1
      (seconds 1) picked
      hpicked hmatters (.inl hwithin)⟩
  intro hit hhit _ row hrow _
  have hsame : row.passwordHash = "correct horse battery" :=
    LocalAuth.served_passwordHash rfl rfl hit hhit row hrow
  have hmember : hit.2 ∈ guesses := by
    rw [← plainAuth.served_attempts oneAccount guesses]
    exact List.mem_map_of_mem hhit
  have hguess : hit.2.password = "a wrong guess" := by
    have hall : ∀ attempt ∈ guesses, attempt.password = "a wrong guess" := by decide
    exact hall hit.2 hmember
  rw [hsame, hguess]
  decide

end ContentOrchestrator
