import NexaPos.System
import NexaPos.Purchases.Payments

/-!
# Requests on purchases

The requests of `NexaPos.System` together with the ones that pay and cancel purchases.
-/

namespace NexaPos

open Tx

/-- One request. -/
inductive PurchasingOp
  | pos (op : Op)
  | recordPurchasePayments (c : Call) (purchase : ℕ) (rows : List PaymentRow)
  | updateChequeStatus (c : Call) (payment : ℕ) (status : RawChoice ChequeStatus)
  | cancelPurchase (c : Call) (purchase : ℕ)

/-- The service a request runs. -/
def PurchasingOp.service : PurchasingOp → Service Unit
  | pos op => op.service
  | recordPurchasePayments c purchase rows => NexaPos.recordPurchasePayments c purchase rows
  | updateChequeStatus c payment status => NexaPos.updateChequeStatus c payment status
  | cancelPurchase c purchase => NexaPos.cancelPurchase c purchase

namespace Purchasing

/-- One request on the database. -/
def step (s : State) (op : PurchasingOp) : State := commit op.service s

/-- The database after a sequence of requests. -/
def run (s : State) (ops : List PurchasingOp) : State := Trace.run step s ops

/-- The database of a business after a sequence of requests. -/
def history (ops : List PurchasingOp) : State := run State.empty ops

end Purchasing

/-- A request that is accepted. -/
def PurchasingOp.Accepted (op : PurchasingOp) (s : State) : Prop := (op.service.run s).isOk = true

instance decidablePurchasingAccepted (op : PurchasingOp) (s : State) : Decidable (op.Accepted s) :=
  inferInstanceAs (Decidable (_ = true))

lemma PurchasingOp.Accepted.runs {op : PurchasingOp} {s : State} (h : op.Accepted s) :
    Runs op.service s ⟨⟩ (Purchasing.step s op) := by
  obtain ⟨⟨⟩, hrun⟩ := runs_commit h
  exact hrun

lemma Purchasing.step_of_not_accepted {op : PurchasingOp} {s : State} (h : ¬ op.Accepted s) :
    Purchasing.step s op = s := by
  unfold PurchasingOp.Accepted at h
  cases hrun : op.service.run s with
  | error e => exact commit_of_error hrun
  | ok r =>
    rw [hrun] at h
    exact absurd rfl h

/-! ## What a request does -/

/-- An accepted `create_purchase` of the row and its lines. -/
structure PurchaseOrdered (c : Call) (r : PurchaseRequest) (s t : State) (row : Purchase)
    (items : List PurchaseItem) : Prop where
  check : checkPurchase c r s = .ok (row, items)
  purchases : t.purchases.purchases = s.purchases.purchases ++ [row]
  items : t.purchases.items = s.purchases.items ++ items
  others : t.purchases.returnTables = s.purchases.returnTables
  suppliers : t.parties.suppliers = s.parties.suppliers

/-- What a request does to purchases and payables. -/
inductive PurchasingStep (s t : State) : PurchasingOp → Prop
  /-- Suppliers are master data: a row is added, or its flag is set. -/
  | other {op : Op} (hop : .purchases ∉ op.footprint) (hpurchases : t.purchases = s.purchases)
      (hsuppliers : t.parties.suppliers = s.parties.suppliers ∨
        ∃ id row, op = .saveMasterData (.supplier id row) ∧ t.parties.suppliers =
          saveRow id row (fun old => { old with isActive := row.isActive }) s.parties.suppliers) :
      PurchasingStep s t (.pos op)
  | ordered {c : Call} {r : PurchaseRequest} {row : Purchase} {items : List PurchaseItem}
      (h : PurchaseOrdered c r s t row items) : PurchasingStep s t (.pos (.createPurchase c r))
  | received {c : Call} {id : ℕ} {quantities : List (ℕ × ℚ)} {row : Purchase}
      (h : PurchaseReceived id quantities row s t) :
      PurchasingStep s t (.pos (.receivePurchase c id quantities))
  | sentBack {c : Call} {id : ℕ} {quantities : List (ℕ × ℚ)} {row : Purchase}
      (h : PurchaseSentBack id quantities row s t) :
      PurchasingStep s t (.pos (.returnPurchase c id quantities))
  | paid {c : Call} {id : ℕ} {rows : List PaymentRow} {row : Purchase}
      {payments : List NormalisedPayment}
      (hcheck : checkPurchasePayments c id rows s = .ok (row, payments))
      (h : t = if settledTotal payments = 0 then payments.foldl (addPayment c id row) s else
        settle id row.supplier (settledTotal payments) (payments.foldl (addPayment c id row) s)) :
      PurchasingStep s t (.recordPurchasePayments c id rows)
  | chequeKept {c : Call} {payment : ℕ} {status : RawChoice ChequeStatus} {row : SupplierPayment}
      {id : ℕ} (hcheck : checkChequeStatus c payment status s = .ok (row, id, none)) (h : t = s) :
      PurchasingStep s t (.updateChequeStatus c payment status)
  | chequeChanged {c : Call} {payment : ℕ} {status : RawChoice ChequeStatus}
      {row : SupplierPayment} {id : ℕ} {new : ChequeStatus}
      (hcheck : checkChequeStatus c payment status s = .ok (row, id, some new))
      (h : t = applyChequeStatus c payment row id new s) :
      PurchasingStep s t (.updateChequeStatus c payment status)
  | cancelled {c : Call} {id : ℕ} (hcheck : checkCancelPurchase c id s = .ok ())
      (h : t = { s with
        purchases.purchases := s.purchases.purchases.modify id
          ({ · with status := .cancelled }) }) :
      PurchasingStep s t (.cancelPurchase c id)

lemma runs_createPurchase {c : Call} {r : PurchaseRequest} {s t : State} {u : Unit}
    (h : Runs (createPurchase c r) s u t) : ∃ row items, PurchaseOrdered c r s t row items := by
  unfold createPurchase at h
  simp only [runs_bind, runs_reads, runs_modify] at h
  obtain ⟨⟨row, items⟩, _, ⟨hcheck, rfl⟩, rfl⟩ := h
  exact ⟨row, items, hcheck, rfl, rfl, rfl, rfl⟩

theorem purchasingStep {s : State} {op : PurchasingOp} (haccepted : op.Accepted s) :
    PurchasingStep s (Purchasing.step s op) op := by
  have hrun := haccepted.runs
  generalize Purchasing.step s op = t at hrun ⊢
  cases op with
  | pos op =>
    change Runs op.service s _ t at hrun
    have hother : (∀ comp ∈ op.footprint,
        comp ≠ .purchases ∧ comp ≠ .suppliers ∧ comp ≠ .parties) →
        PurchasingStep s t (.pos op) := by
      intro hop
      refine .other (fun hmem => (hop _ hmem).1 rfl) ?_ (.inl ?_)
      · refine op.within_service (R := Frame State.purchases) ?_ hrun
        intro comp hcomp s t hchange
        exact hchange.kept.purchases (hop comp hcomp).1
      · refine op.within_service (R := Frame fun s => s.parties.suppliers) ?_ hrun
        intro comp hcomp s t hchange
        exact hchange.kept.suppliers (hop comp hcomp).2.1 (hop comp hcomp).2.2
    cases op with
    | saveMasterData m =>
      obtain rfl := runs_modify.mp hrun
      cases m with
      | supplier id row =>
        exact .other (by simp [Op.footprint, MasterData.component]) rfl (.inr ⟨id, row, rfl, rfl⟩)
      | _ => exact .other (by simp [Op.footprint, MasterData.component]) rfl (.inl rfl)
    | createPurchase c r =>
      obtain ⟨row, items, h⟩ := runs_createPurchase hrun
      exact .ordered h
    | receivePurchase c id quantities =>
      obtain ⟨row, h⟩ := runs_receivePurchase hrun
      exact .received h
    | returnPurchase c id quantities =>
      obtain ⟨row, h⟩ := runs_returnPurchase hrun
      exact .sentBack h
    | _ => exact hother (by simp [Op.footprint])
  | recordPurchasePayments c id rows =>
    change Runs (recordPurchasePayments c id rows) s _ t at hrun
    unfold recordPurchasePayments at hrun
    simp only [runs_bind, runs_reads, runs_modify] at hrun
    obtain ⟨⟨row, payments⟩, _, ⟨hcheck, rfl⟩, _, _, rfl, h⟩ := hrun
    exact .paid hcheck h
  | updateChequeStatus c payment status =>
    change Runs (updateChequeStatus c payment status) s _ t at hrun
    unfold updateChequeStatus at hrun
    simp only [runs_bind, runs_reads] at hrun
    obtain ⟨⟨row, id, change⟩, _, ⟨hcheck, rfl⟩, hrun⟩ := hrun
    cases change with
    | none => exact .chequeKept hcheck (runs_pure.mp hrun).2
    | some new => exact .chequeChanged hcheck (runs_modify.mp hrun)
  | cancelPurchase c id =>
    change Runs (cancelPurchase c id) s _ t at hrun
    unfold cancelPurchase at hrun
    simp only [runs_bind, runs_reads, runs_modify] at hrun
    obtain ⟨_, _, ⟨hcheck, rfl⟩, h⟩ := hrun
    exact .cancelled hcheck h

/-! ## A shop that buys -/

namespace Shop

/-- The shop with a supplier. -/
def buying : List PurchasingOp :=
  (stocked 1 ++ [Op.saveMasterData (.supplier none {})]).map .pos

/-- Order one unit of the product. -/
def order (unitCost : ℚ) : PurchaseRequest where
  supplier := 0
  branch := 0
  warehouse := 0
  rows := [{ product := 0, quantity := 1, unitCost := unitCost }]

end Shop

end NexaPos
