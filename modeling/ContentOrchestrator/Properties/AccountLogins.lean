import ContentOrchestrator.Access.Signup
import ContentOrchestrator.Lib.Transition
import Mathlib.Data.List.Nodup

/-! # Who can sign in

Whatever was requested before, a login opens the account that was signed up under its
address, with a password of the same digest, unless the account is locked. What is
stored between the two is a text that is taken apart again. -/

namespace ContentOrchestrator

open Lib

namespace AuthDeployment

variable {d : AuthDeployment} {accounts : Accounts}

/-! ## The stored text -/

theorem dollar_not_mem_hex {bytes : List UInt8} : '$' ∉ hex bytes := by
  intro h
  obtain ⟨digit, hdigit⟩ := mem_hex h
  revert hdigit
  revert digit
  decide

theorem hex_ascii {bytes : List UInt8} : (hex bytes).all fun c => decide (c.toNat < 128) := by
  refine List.all_eq_true.mpr fun c hc => ?_
  obtain ⟨digit, rfl⟩ := mem_hex hc
  clear hc
  revert digit
  decide

/-- A stored hash comes apart into the fields it was made of. -/
theorem split_hashPassword (password : String) (salt : List UInt8) :
    splitMost '$' 3 (d.hashPassword password salt).toList =
      [algorithm, roundsText, hex salt, hex (d.digest password salt)] := by
  have halgorithm : '$' ∉ algorithm := by decide +kernel
  have hrounds : '$' ∉ roundsText := by decide +kernel
  rw [hashPassword, String.toList_ofList, splitMost_field halgorithm, splitMost_field hrounds,
    splitMost_field dollar_not_mem_hex]
  rfl

/-- The check of a stored hash compares the digests of the two passwords under its salt. -/
theorem verify_hashPassword (password own : String) (salt : List UInt8) :
    d.verifyPassword password (d.hashPassword own salt) =
      some (d.digest password salt == d.digest own salt) := by
  have hrounds : intOfText? roundsText = some 200000 := by decide +kernel
  have hsame : (hex (d.digest password salt) == hex (d.digest own salt)) =
      (d.digest password salt == d.digest own salt) := by
    rw [Bool.eq_iff_iff, beq_iff_eq, beq_iff_eq]
    exact ⟨hex_injective, congrArg hex⟩
  rw [verifyPassword, split_hashPassword]
  simp only [hrounds, hex_ascii, ne_eq, not_true_eq_false, if_false, if_true]
  exact congrArg some hsame

/-! ## What the requests keep -/

/-- The row of the account. -/
structure IsRowOf (d : AuthDeployment) (a : SignupIn) (row : LocalAuthCredential) : Prop where
  userId : row.userId = a.userId
  email : row.email = d.normalize a.email
  passwordHash : row.passwordHash = d.hashPassword a.password a.salt

/-- The stored rows are those of the accounts, one for an address. -/
structure Kept (d : AuthDeployment) (accounts : Accounts) : Prop where
  rows : ∀ email row, accounts.store email = some row →
    ∃ a ∈ accounts.opened, d.normalize a.email = email ∧ IsRowOf d a row
  stored : ∀ a ∈ accounts.opened, ∃ row, accounts.store (d.normalize a.email) = some row
  distinct : (accounts.opened.map fun a => d.normalize a.email).Nodup
  strong : ∀ a ∈ accounts.opened, minPasswordLength ≤ a.password.length

/-- After a row is written there is the new one under its address, and the old ones elsewhere. -/
theorem written_cases {store : Credentials} {address email : String}
    {row row' : LocalAuthCredential}
    (h : Function.update store address (some row) email = some row') :
    (email = address ∧ row = row') ∨ store email = some row' := by
  by_cases hown : email = address
  · rw [hown, Function.update_self] at h
    exact .inl ⟨hown, Option.some.inj h⟩
  · rw [Function.update_of_ne hown] at h
    exact .inr h

theorem written_exists {store : Credentials} {address email : String} (row : LocalAuthCredential)
    (h : email = address ∨ ∃ found, store email = some found) :
    ∃ found, Function.update store address (some row) email = some found := by
  by_cases hown : email = address
  · rw [hown]
    exact ⟨row, Function.update_self ..⟩
  · rw [Function.update_of_ne hown]
    exact h.resolve_left hown

theorem signupRoute_cases (store : Credentials) (payload : SignupIn) :
    (∃ status detail, d.signupRoute store payload = (.refused status detail, store)) ∨
      ∃ token row, d.signupRoute store payload =
          (.token token, Function.update store (d.normalize payload.email) (some row)) ∧
        IsRowOf d payload row ∧ store (d.normalize payload.email) = none ∧
          minPasswordLength ≤ payload.password.length := by
  unfold signupRoute
  by_cases hlocal : d.authMode ≠ "local"
  · rw [if_pos hlocal]
    exact .inl ⟨_, _, rfl⟩
  rw [if_neg hlocal, signup, if_neg hlocal]
  dsimp only
  by_cases hweak : payload.password.length < minPasswordLength
  · rw [if_pos hweak]
    exact .inl ⟨_, _, rfl⟩
  rw [if_neg hweak]
  cases hrow : store (d.normalize payload.email) with
  | some _ => exact .inl ⟨_, _, rfl⟩
  | none => exact .inr ⟨_, _, rfl, ⟨rfl, rfl, rfl⟩, rfl, Nat.le_of_not_lt hweak⟩

/-- A login changes nothing of a row but its throttle. -/
theorem loginRoute_row (store : Credentials) (attempt : LoginAttempt) :
    (d.auth.loginRoute store attempt).2 = store ∨
      ∃ row row', store (d.normalize attempt.email) = some row ∧
        (d.auth.loginRoute store attempt).2 =
          Function.update store (d.normalize attempt.email) (some row') ∧
        row'.userId = row.userId ∧ row'.email = row.email ∧
        row'.passwordHash = row.passwordHash := by
  by_cases hlocal : d.auth.authMode = "local"
  · cases hrow : store (d.normalize attempt.email) with
    | none =>
      refine .inl ?_
      have hnone : store (d.auth.normalize attempt.email) = none := hrow
      rw [d.auth.loginRoute_of_local hlocal, LocalAuth.login, if_neg (not_not.mpr hlocal)]
      simp only [hnone]
    | some row =>
      refine .inr ⟨row, (d.auth.loginRow row attempt.password attempt.now).2, rfl, ?_, ?_⟩
      · rw [d.auth.loginRoute_of_local hlocal, d.auth.login_found hlocal hrow]
        rfl
      · unfold LocalAuth.loginRow
        split
        · exact ⟨rfl, rfl, rfl⟩
        · split <;> exact ⟨rfl, rfl, rfl⟩
  · refine .inl ?_
    rw [LocalAuth.loginRoute, if_pos hlocal]

theorem Kept.signup (h : Kept d accounts) (payload : SignupIn) :
    Kept d (d.handle accounts (.signup payload)) := by
  rcases d.signupRoute_cases accounts.store payload with
    ⟨status, detail, hrefused⟩ | ⟨token, row, htaken, hrow, hfree, hlong⟩
  · rw [handle, hrefused]
    exact ⟨h.rows, h.stored, h.distinct, h.strong⟩
  · rw [handle, htaken]
    have hmem : ∀ {a}, a ∈ accounts.opened ++ [payload] → a ∈ accounts.opened ∨ a = payload :=
      fun ha => (List.mem_append.mp ha).imp_right List.mem_singleton.mp
    refine ⟨fun email found hfound => ?_, fun a ha => ?_, ?_, fun a ha => ?_⟩
    · rcases written_cases hfound with ⟨rfl, rfl⟩ | hold
      · exact ⟨payload, List.mem_append_right _ (List.mem_singleton_self _), rfl, hrow⟩
      · obtain ⟨a, ha, haddress, hrowOf⟩ := h.rows email found hold
        exact ⟨a, List.mem_append_left _ ha, haddress, hrowOf⟩
    · refine written_exists row ?_
      rcases hmem ha with hold | rfl
      · exact .inr (h.stored a hold)
      · exact .inl rfl
    · rw [List.map_append]
      refine List.nodup_append.mpr ⟨h.distinct, List.nodup_singleton _, fun x hx y hy heq => ?_⟩
      obtain ⟨a, ha, rfl⟩ := List.mem_map.mp hx
      obtain ⟨found, hfound⟩ := h.stored a ha
      rw [heq, List.mem_singleton.mp hy, hfree] at hfound
      cases hfound
    · rcases hmem ha with hold | rfl
      · exact h.strong a hold
      · exact hlong

theorem Kept.login (h : Kept d accounts) (attempt : LoginAttempt) :
    Kept d (d.handle accounts (.login attempt)) := by
  rcases d.loginRoute_row accounts.store attempt with
    hsame | ⟨row, row', hrow, hafter, huser, hemail, hhash⟩
  · rw [handle, hsame]
    exact h
  · rw [handle, hafter]
    refine ⟨fun email found hfound => ?_, fun a ha => ?_, h.distinct, h.strong⟩
    · rcases written_cases hfound with ⟨rfl, rfl⟩ | hold
      · obtain ⟨a, ha, haddress, hrowOf⟩ := h.rows _ row hrow
        exact ⟨a, ha, haddress, huser.trans hrowOf.userId, hemail.trans hrowOf.email,
          hhash.trans hrowOf.passwordHash⟩
      · exact h.rows email found hold
    · exact written_exists row' (.inr (h.stored a ha))

theorem kept_replay (requests : List AuthRequest) : Kept d (replay d.handle {} requests) := by
  have hstart : Kept d {} := by
    refine ⟨fun _ _ h => ?_, fun _ h => ?_, List.nodup_nil, fun _ h => ?_⟩ <;> cases h
  refine (reach_any requests ({} : Accounts)).invariant (P := Kept d) hstart ?_
  rintro accounts request _ h - rfl
  cases request with
  | signup payload => exact h.signup payload
  | login attempt => exact h.login attempt

/-! ## Logins -/

/-- The token for an account at an address. -/
def tokenFor (d : AuthDeployment) (a : SignupIn) (now : Nat) : AuthToken where
  accessToken := d.mintAccessToken a.userId (d.normalize a.email) now
  tokenType := "bearer"
  expiresIn := 3600
  userId := a.userId
  email := d.normalize a.email

/-- The part of a login after the account's row was found. -/
theorem loginRow_token {a : SignupIn} {row : LocalAuthCredential} (hrow : IsRowOf d a row)
    {password : String} {now : Nat} {token : AuthToken} :
    (d.auth.loginRow row password now).1 = .ok token ↔
      row.isLocked now = false ∧ d.digest password a.salt = d.digest a.password a.salt ∧
        token = d.tokenFor a now := by
  have hverify : d.auth.verifyPassword password row.passwordHash =
      (d.digest password a.salt == d.digest a.password a.salt) := by
    change (d.verifyPassword password row.passwordHash == some true) = _
    rw [hrow.passwordHash, verify_hashPassword, Option.some_beq_some, beq_true]
  have htoken : d.tokenFor a now =
      { accessToken := d.auth.mintAccessToken row.userId row.email now, tokenType := "bearer"
        expiresIn := 3600, userId := row.userId, email := row.email } := by
    rw [hrow.userId, hrow.email]
    rfl
  rw [LocalAuth.loginRow, hverify, htoken]
  cases hlocked : row.isLocked now with
  | true =>
    rw [if_pos rfl]
    exact ⟨fun h => (by cases h), fun h => (by cases h.1)⟩
  | false =>
    rw [if_neg Bool.false_ne_true]
    by_cases hsame : d.digest password a.salt = d.digest a.password a.salt
    · rw [if_neg (by simp [hsame])]
      exact ⟨fun h => ⟨rfl, hsame, (Except.ok.inj h).symm⟩, fun h => congrArg Except.ok h.2.2.symm⟩
    · rw [if_pos (by simpa using hsame)]
      exact ⟨fun h => (by cases h), fun h => absurd h.2.1 hsame⟩

/-- After any requests, a login is answered with a token exactly if an account was signed up under
its address, the passwords have the same digest and the account is not locked; and the token is that
account's. -/
theorem login_opens_own_account (d : AuthDeployment) (requests : List AuthRequest)
    (attempt : LoginAttempt) (token : AuthToken) :
    let accounts := replay d.handle {} requests
    let address := d.normalize attempt.email
    (accounts.opened.map fun a => d.normalize a.email).Nodup ∧
      (∀ a ∈ accounts.opened, minPasswordLength ≤ a.password.length) ∧
      ((d.auth.loginRoute accounts.store attempt).1 = .token token ↔
        d.authMode = "local" ∧ ∃ a ∈ accounts.opened, d.normalize a.email = address ∧
          d.digest attempt.password a.salt = d.digest a.password a.salt ∧
          (accounts.store address).any (fun row => !row.isLocked attempt.now) = true ∧
          token = d.tokenFor a attempt.now) := by
  intro accounts address
  have hkept : Kept d accounts := kept_replay requests
  refine ⟨hkept.distinct, hkept.strong, ?_⟩
  unfold LocalAuth.loginRoute
  by_cases hlocal : d.authMode = "local"
  swap
  · have hother : d.auth.authMode ≠ "local" := hlocal
    rw [if_pos hother]
    exact ⟨fun h => (by cases h), fun h => absurd h.1 hlocal⟩
  have hauth : d.auth.authMode = "local" := hlocal
  rw [if_neg (not_not.mpr hauth)]
  cases hrow : accounts.store address with
  | none =>
    have hnone : accounts.store (d.auth.normalize attempt.email) = none := hrow
    rw [LocalAuth.login, if_neg (not_not.mpr hauth)]
    simp only [hnone]
    refine ⟨fun h => (by cases h), ?_⟩
    rintro ⟨-, a, ha, haddress, -⟩
    obtain ⟨row, hstored⟩ := hkept.stored a ha
    rw [haddress, hrow] at hstored
    cases hstored
  | some row =>
    rw [d.auth.login_found hauth hrow]
    obtain ⟨a, ha, haddress, hrowOf⟩ := hkept.rows _ row hrow
    have hopen : (some row).any (fun row => !row.isLocked attempt.now) = true ↔
        row.isLocked attempt.now = false := by
      rw [Option.any_some, Bool.not_eq_true']
    have hone : ∀ a' ∈ accounts.opened, d.normalize a'.email = address → a' = a := by
      intro a' ha' haddress'
      exact List.inj_on_of_nodup_map hkept.distinct ha' ha (haddress'.trans haddress.symm)
    constructor
    · intro h
      have hok : (d.auth.loginRow row attempt.password attempt.now).1 = .ok token := by
        cases hrun : (d.auth.loginRow row attempt.password attempt.now).1 with
        | error error =>
          rw [hrun] at h
          cases h
        | ok found =>
          rw [hrun] at h
          cases h
          rfl
      obtain ⟨hfree, hsame, htoken⟩ := (loginRow_token hrowOf).mp hok
      exact ⟨hlocal, a, ha, haddress, hsame, hopen.mpr hfree, htoken⟩
    · rintro ⟨-, a', ha', haddress', hsame, hfree, htoken⟩
      obtain rfl := hone a' ha' haddress'
      have hok := (loginRow_token hrowOf).mpr ⟨hopen.mp hfree, hsame, htoken⟩
      rw [hok]

end AuthDeployment

end ContentOrchestrator
