import NexaPos.Core.Inputs

/-!
# Customers and suppliers

The two balances of a customer are what the sales and collection services write; nothing else
about a customer decides them.
-/

namespace NexaPos

structure Customer where
  homeBranch : Option ℕ
  creditLimit : ℤ := 0
  openingBalance : ℤ := 0
  /-- What the customer owes. -/
  balance : ℤ := 0
  storeCredit : ℤ := 0
  isWalkIn : Bool := false
  isActive : Bool := true
  deriving DecidableEq, Repr

structure CustomerFamilyMember where
  customer : ℕ
  isActive : Bool := true
  deriving DecidableEq, Repr

/-- A collection against a customer's outstanding balance. -/
structure CustomerPayment where
  /-- The number of `RCV-{number:06d}`. -/
  receiptNumber : ℕ
  customer : ℕ
  branch : Option ℕ
  amount : ℤ
  paymentMethod : ℕ
  receivedBy : ℕ
  shift : Option ℕ
  deriving DecidableEq, Repr

structure Supplier where
  /-- What the business owes the supplier. -/
  balance : ℤ := 0
  isActive : Bool := true
  deriving DecidableEq, Repr

end NexaPos
