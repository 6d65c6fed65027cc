import ContentOrchestrator.Model.Json

/-! # Stripe events as the webhook reads them

An event is the verified JSON payload. The accessors follow the interpreter: `get` on
something that is no dictionary raises, `a or b` goes by truth values, a boolean is an
integer, and a value that is no text cannot be bound to a text column. -/

namespace ContentOrchestrator

/-- What the handling of an event raises. -/
inductive BillingFailure
  | billing (code message : String)
  | attributeError
  | typeError
  | valueError
  | dataError
  | integrityError (constraint : String)
deriving DecidableEq, Repr

def BillingFailure.isIntegrity : BillingFailure → Bool
  | integrityError _ => true
  | _ => false

namespace Json

/-- `value.get(key)`. -/
def dictGet (key : String) : Json → Except BillingFailure Json
  | obj fields => .ok ((fields.lookup key).getD null)
  | _ => .error .attributeError

def truthy : Json → Bool
  | null => false
  | bool b => b
  | num n => n.scaled ≠ 0
  | str s => s ≠ ""
  | arr items => !items.isEmpty
  | obj fields => !fields.isEmpty

/-- `a or b`. -/
def orElse (a b : Json) : Json := if a.truthy then a else b

/-- `value if isinstance(value, str) else None`. -/
def text? : Json → Option String
  | str s => some s
  | _ => none

/-- `value if isinstance(value, int) else None`. -/
def int? : Json → Option Int
  | bool b => some (if b then 1 else 0)
  | num (.int n) => some n
  | _ => none

/-- The value as a parameter of a text column. -/
def boundText : Json → Except BillingFailure String
  | str s => .ok s
  | _ => .error .dataError

/-- `str(value)`. Of a fraction, a list or a dictionary only that it is neither a status nor a UUID
is used. -/
def pyStr : Json → String
  | null => "None"
  | bool b => if b then "True" else "False"
  | num (.int n) => toString n
  | num _ => "."
  | str s => s
  | arr _ => "[]"
  | obj _ => "{:}"

/-- `int(value)`. -/
def pyInt : Json → Except BillingFailure Int
  | bool b => .ok (if b then 1 else 0)
  | num (.int n) => .ok n
  | num (.float x) => .ok x.truncate
  | str s =>
    match intOfText? s.toList with
    | some n => .ok n
    | none => .error .valueError
  | _ => .error .typeError

mutual

/-- The same value, written the same way. -/
def same : Json → Json → Bool
  | null, null => true
  | bool a, bool b => a == b
  | num m, num n => m == n
  | str s, str t => s == t
  | arr xs, arr ys => sameItems xs ys
  | obj xs, obj ys => sameFields xs ys
  | _, _ => false

def sameItems : List Json → List Json → Bool
  | [], [] => true
  | x :: xs, y :: ys => same x y && sameItems xs ys
  | _, _ => false

def sameFields : List (String × Json) → List (String × Json) → Bool
  | [], [] => true
  | (k, x) :: xs, (l, y) :: ys => k == l && same x y && sameFields xs ys
  | _, _ => false

end

mutual

theorem same_iff : ∀ a b : Json, same a b = true ↔ a = b
  | null, b => by cases b <;> simp [same]
  | bool a, b => by cases b <;> simp [same]
  | num m, b => by cases b <;> simp [same]
  | str s, b => by cases b <;> simp [same]
  | arr xs, b => by
    cases b with
    | arr ys => simp [same, sameItems_iff xs ys]
    | _ => simp [same]
  | obj xs, b => by
    cases b with
    | obj ys => simp [same, sameFields_iff xs ys]
    | _ => simp [same]

theorem sameItems_iff : ∀ xs ys : List Json, sameItems xs ys = true ↔ xs = ys
  | [], ys => by cases ys <;> simp [sameItems]
  | x :: xs, ys => by
    cases ys with
    | nil => simp [sameItems]
    | cons y ys => simp [sameItems, same_iff x y, sameItems_iff xs ys]

theorem sameFields_iff : ∀ xs ys : List (String × Json), sameFields xs ys = true ↔ xs = ys
  | [], ys => by cases ys <;> simp [sameFields]
  | (k, x) :: xs, ys => by
    cases ys with
    | nil => simp [sameFields]
    | cons y ys =>
      obtain ⟨l, y⟩ := y
      simp [sameFields, same_iff x y, sameFields_iff xs ys, and_assoc]

end

instance : DecidableEq Json := fun a b => decidable_of_iff (same a b = true) (same_iff a b)

end Json

/-! ## Identifiers -/

def hexDigit? (c : Char) : Option Nat :=
  if c.isDigit then some (c.toNat - 48)
  else if 'a' ≤ c ∧ c ≤ 'f' then some (c.toNat - 87)
  else if 'A' ≤ c ∧ c ≤ 'F' then some (c.toNat - 55)
  else none

/-- `text.replace(pattern, "")`, as far as the fuel goes. -/
def without (pattern : List Char) : Nat → List Char → List Char
  | 0, cs => cs
  | _, [] => []
  | fuel + 1, c :: cs =>
    if pattern.isPrefixOf (c :: cs) then without pattern fuel ((c :: cs).drop pattern.length)
    else c :: without pattern fuel cs

/-- `uuid.UUID(text)`: 32 hexadecimal digits, once `urn:`, `uuid:`, braces around and hyphens are
dropped. -/
def uuid? (text : String) : Option Nat :=
  let cs := text.toList
  let plain := without "uuid:".toList cs.length (without "urn:".toList cs.length cs)
  let brace : Char → Bool := fun c => c == '{' || c == '}'
  let bare := ((plain.dropWhile brace).reverse.dropWhile brace).reverse
  let hex := bare.filter (· != '-')
  if hex.length = 32 then
    hex.foldl (fun acc c => do return (← acc) * 16 + (← hexDigit? c)) (some 0)
  else none

/-- `_workspace_id_from_metadata`. -/
def workspaceIdFromMetadata (obj : Json) : Except BillingFailure (Option Nat) := do
  let metadata ← obj.dictGet "metadata"
  let workspaceId ← (metadata.orElse (.obj [])).dictGet "workspace_id"
  let reference ← obj.dictGet "client_reference_id"
  let raw := workspaceId.orElse reference
  return if raw.truthy then uuid? raw.pyStr else none

/-! ## Subscriptions -/

def activeStatuses : List String := ["active", "trialing"]

def proPlan : String := "pro"

/-- `str(subscription.get("status") or "inactive")`. -/
def subscriptionStatus (subscription : Json) : Except BillingFailure String := do
  return ((← subscription.dictGet "status").orElse (.str "inactive")).pyStr

/-- `_period_end_from_subscription`: `datetime.fromtimestamp` knows the years 1 to 9999. -/
def periodEndFromSubscription (subscription : Json) : Except BillingFailure (Option Int) := do
  match ← subscription.dictGet "current_period_end" with
  | .null => return none
  | raw =>
    let seconds ← raw.pyInt
    if -62135596800 ≤ seconds ∧ seconds ≤ 253402300799 then return some seconds
    else throw .valueError

inductive StripeEventType
  | checkoutCompleted
  | subscription
  | paymentFailed
  | ignored
deriving DecidableEq, Repr

def StripeEventType.ofName (eventType : String) : StripeEventType :=
  if eventType = "checkout.session.completed" then checkoutCompleted
  else if eventType ∈ ["customer.subscription.created", "customer.subscription.updated",
      "customer.subscription.deleted"] then subscription
  else if eventType = "invoice.payment_failed" then paymentFailed
  else ignored

/-- The types whose receipts count when events are ordered. -/
def StripeEventType.bearsEntitlement : StripeEventType → Bool
  | subscription | paymentFailed => true
  | checkoutCompleted | ignored => false

example : uuid? "00000000-0000-0000-0000-00000000001f" = some 31 := by decide

end ContentOrchestrator
