import NexaPos.Core.Inputs
import NexaPos.Lib.Transaction
import Mathlib.Data.List.Forall2

/-!
# Callers and failures

Whether a member may perform an action is decided by the subscription and permission engine,
which this development does not model: a call carries the engine's answers (`Actor`) and the
clock, and the services ask for them at the points where the source does.  Everything proved
about the services holds for every answer.

A service either returns or raises.  `PosError` keeps which exception was raised and what its
text says; where the source formats a number that has no fixed number of places, the number
itself is kept.
-/

namespace NexaPos

/-! ## Callers -/

/-- The products of a subscription that guard the modelled operations. -/
inductive AccessModule
  | posCore
  | tailoring
  | inventory
  | customerCredit
  | purchases
  | expenses
  deriving DecidableEq, Repr

/-- A signed-in member, as the permission engine answers for it. -/
structure Actor where
  user : ℕ
  /-- `require_actor_access(user, business, module, permission_code, action=WRITE)` passes. -/
  allows : AccessModule → String → Bool
  /-- `membership.has_perm(code)`. -/
  hasPerm : String → Bool
  /-- `access_context.has_module(module)`. -/
  hasModule : AccessModule → Bool
  /-- `membership.allowed_branch_ids`; `none` is every branch. -/
  allowedBranchIds : Option (List ℕ)
  /-- `membership.allowed_warehouse_ids`; `none` is every warehouse. -/
  allowedWarehouseIds : Option (List ℕ)

namespace Actor

/-- `membership.can_access_branch(branch)`. -/
def canAccessBranch (a : Actor) (branch : ℕ) : Bool :=
  match a.allowedBranchIds with
  | none => true
  | some ids => ids.contains branch

/-- The warehouse half of `require_inventory_write`. -/
def canAccessWarehouse (a : Actor) (warehouse : ℕ) : Bool :=
  match a.allowedWarehouseIds with
  | none => true
  | some ids => ids.contains warehouse

end Actor

/-- What a call is made with besides its arguments. -/
structure Call where
  actor : Actor
  /-- `timezone.now()`, in seconds. -/
  now : ℤ
  /-- `business_localdate(business)`, as a day number. -/
  today : ℤ
  /-- The user has an active membership of the business. -/
  isMember : ℕ → Bool
  /-- `subscriptions.require_operational(business)` passes. -/
  operational : Bool
  /-- `subscriptions.check_limit(business, "monthly_invoices")` passes. -/
  withinInvoiceLimit : Bool

/-! ## Failures -/

/-- The exceptions the services raise. -/
inductive PosError
  /-- `require_actor_access` refuses the module or the permission. -/
  | accessDenied (module : AccessModule) (permission : String)
  /-- The object is outside the member's scope (`scope_allowed=False`). -/
  | scopeDenied
  | subscriptionInactive
  | limitExceeded
  /-- `SaleError(message, errors=...)`. -/
  | sale (message : String) (errors : List (String × String))
  /-- `ShiftError(message)`. -/
  | shift (message : String)
  /-- `ValidationError(message)`. -/
  | validation (message : String)
  /-- `ValidationError({field: message})`. -/
  | invalidField (field message : String)
  /-- `InsufficientStock`: what was there and what was asked for. -/
  | insufficientStock (item : String) (available requested : ℤ)
  /-- "Cannot return {quantity} of {product}; only {remaining} remain." -/
  | cannotReturn (quantity : ℚ) (product : String) (remaining : ℚ)
  /-- "Cannot receive {quantity} of {product}; only {pending} pending." -/
  | cannotReceive (quantity : ℚ) (product : String) (pending : ℤ)
  /-- "Cannot return {quantity} of {product}; only {returnable} were received ..." -/
  | cannotSendBack (quantity : ℚ) (product : String) (returnable : ℤ)
  /-- "Total discount {pct}% exceeds the allowed maximum of {cap}%." -/
  | discountAboveCap (pct cap : ℚ)
  /-- "Payment {amount} exceeds the outstanding balance {balance}." -/
  | paymentAboveBalance (amount balance : ℤ)
  /-- `calculations.CalculationError(message)`. -/
  | calculation (message : String)
  /-- A query in a transaction that is marked for rollback. -/
  | transactionManagement
  /-- `Http404`. -/
  | notFound
  /-- A unique constraint refused an insert. -/
  | integrity
  deriving DecidableEq, Repr

/-- `SaleError(message)`. -/
def SaleError (message : String) : PosError := .sale message []

/-- `SaleError(message, errors={field: message})`. -/
def SaleError.onField (field message : String) : PosError := .sale message [(field, message)]

/-- `require_actor_access(..., action=AccessAction.WRITE)`. -/
def requireActorAccess (c : Call) (module : AccessModule) (permission : String) :
    Except PosError Unit :=
  if c.actor.allows module permission then .ok () else .error (.accessDenied module permission)

/-- Continue only when the condition holds. -/
def require (b : Bool) (e : PosError) : Except PosError Unit :=
  if b then .ok () else .error e

@[simp] lemma require_eq_ok {b : Bool} {e : PosError} {u : Unit} :
    require b e = .ok u ↔ b = true := by
  unfold require
  cases b <;> simp

/-- Continue with a proof of the condition, which the value built next can carry. -/
def requireThat (p : Prop) [Decidable p] (e : PosError) : Except PosError (PLift p) :=
  if h : p then .ok ⟨h⟩ else .error e

/-- A read-only computation of two steps succeeds when both do. -/
lemma except_bind_eq_ok {ε α β : Type} {x : Except ε α} {f : α → Except ε β} {b : β} :
    (x >>= f) = .ok b ↔ ∃ a, x = .ok a ∧ f a = .ok b := by
  cases x <;> simp [bind, Except.bind]

/-- A computation over a list succeeds when it does on every element. -/
lemma mapM_eq_ok {ε α β : Type} {f : α → Except ε β} {xs : List α} {ys : List β} :
    xs.mapM f = .ok ys ↔ List.Forall₂ (fun x y => f x = .ok y) xs ys := by
  induction xs generalizing ys with
  | nil => cases ys <;> simp [pure, Except.pure]
  | cons x xs ih =>
    simp only [List.mapM_cons, except_bind_eq_ok, ih, pure, Except.pure, Except.ok.injEq,
      List.forall₂_cons_left_iff]
    constructor
    · rintro ⟨y, hy, zs, hzs, rfl⟩
      exact ⟨y, zs, hy, hzs, rfl⟩
    · rintro ⟨y, zs, hy, hzs, rfl⟩
      exact ⟨y, hy, zs, hzs, rfl⟩

/-- Every result of a related pair of lists comes from an argument. -/
lemma exists_of_forall₂_mem {α β : Type} {R : α → β → Prop} {xs : List α} {ys : List β}
    (h : List.Forall₂ R xs ys) {y : β} (hy : y ∈ ys) : ∃ x ∈ xs, R x y := by
  induction h with
  | nil => exact absurd hy List.not_mem_nil
  | cons hxy _ ih =>
    rcases List.mem_cons.mp hy with rfl | hy
    · exact ⟨_, List.mem_cons_self, hxy⟩
    · obtain ⟨x, hx, hR⟩ := ih hy
      exact ⟨x, List.mem_cons_of_mem _ hx, hR⟩

/-- The columns of related rows. -/
lemma map_eq_of_forall₂ {α β γ : Type} {R : α → β → Prop} {f : α → γ} {g : β → γ} {xs : List α}
    {ys : List β} (h : List.Forall₂ R xs ys) (hR : ∀ x y, R x y → g y = f x) :
    ys.map g = xs.map f := by
  induction h with
  | nil => rfl
  | cons hxy _ ih => rw [List.map_cons, List.map_cons, hR _ _ hxy, ih]

/-- The row a primary key names, or the error its absence raises. -/
def found {α : Type} (row : Option α) (e : PosError) : Except PosError α :=
  match row with
  | some a => .ok a
  | none => .error e

@[simp] lemma found_eq_ok {α : Type} {row : Option α} {e : PosError} {a : α} :
    found row e = .ok a ↔ row = some a := by
  cases row <;> simp [found]

end NexaPos
