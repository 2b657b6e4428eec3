import NexaPos.Lib.Numbering
import NexaPos.Lib.UtcTime
import NexaPos.Core.Inputs

/-!
# The import of customers

`import_customers` reads a file row by row inside one transaction.  The handlers around a row catch
what it raises, but they open no savepoint: what a row wrote before it failed stays, and a write
that the database refuses leaves the transaction broken.  In a broken transaction every statement
raises, and nothing is committed.

What Django and the database decide is given: which addresses are valid, what `D` reads and the
columns keep of an amount, which rows pass `full_clean`, which rows the database accepts, and which
texts it takes as parameters.  Timestamps are left out.
-/

namespace NexaPos.CustomerImport

/-! ## Tables -/

/-- `Customer`, as far as an import reads or writes it. -/
structure Customer (α : Type) where
  homeBranch : Option ℕ
  code : Text
  fullName : Text := []
  mobile : Text := []
  whatsapp : Text := []
  email : Text := []
  address : Text := []
  city : Text := []
  country : Text := []
  group : Option ℕ := none
  creditLimit : α
  openingBalance : α
  balance : α
  notes : Text := []
  isActive : Bool := true
  isWalkIn : Bool := false
  moreOptions : Text → Option Text := fun _ => none

/-- The customers and the groups of a business; primary keys are positions. -/
structure Database (α : Type) where
  customers : List (Customer α) := []
  groups : List Text := []

/-- A database inside a transaction, which may be broken. -/
structure Session (α : Type) where
  db : Database α
  broken : Bool := false

/-- What Django and the database decide. -/
structure Platform (α : Type) where
  zero : α
  /-- `D`. -/
  amount : Text → α
  /-- What the column keeps of an amount. -/
  kept : α → α
  kept_kept : ∀ a, kept (kept a) = kept a
  /-- `validate_email`. -/
  validEmail : Text → Bool
  /-- The message of `full_clean`. -/
  fullClean : Database α → Customer α → Option Text
  /-- The database accepts the row. -/
  accepts : Customer α → Bool
  /-- The database takes the text as a parameter. -/
  takes : Text → Bool

/-! ## Rows -/

/-- The value of a cell, by its text and its truth: a zero has a text, but is not true. -/
structure CellValue where
  text : Text
  truthy : Bool

/-- A row of the file: its columns in order, with `None` where a cell is empty. -/
abbrev Row := List (Text × Option CellValue)

/-- `str.lower()`, on the ASCII letters. -/
def lower (t : Text) : Text := t.map Char.toLower

/-- `str(value or "").strip()`. -/
def cellText : Option CellValue → Text
  | none => []
  | some value => if value.truthy then Text.strip value.text else []

/-- `normalize_row`. -/
def normalizeRow (row : Row) : List (Text × Text) :=
  row.map fun x => (lower (Text.strip x.1), (x.2.map fun value => Text.strip value.text).getD [])

/-- `dict.get`: of equal keys, the last one counts. -/
def get? {β : Type} (r : List (Text × β)) (key : Text) : Option β := r.reverse.lookup key

/-- `r.get(column, "")`. -/
def column (r : List (Text × Text)) (name : String) : Text := (get? r name.toList).getD []

/-- `BASE_IMPORT_COLUMNS`. -/
def baseImportColumns : List Text :=
  ["branch code", "branch name", "customer code", "customer name", "mobile", "whatsapp", "email",
    "address", "city", "country", "group", "credit limit", "opening balance", "notes",
    "active"].map String.toList

/-- `CREDIT_IMPORT_COLUMNS`. -/
def creditImportColumns : List String := ["credit limit", "opening balance"]

/-- `CUSTOM_FIELD_HEADER_WORDS`. -/
def customFieldHeaderWords : List Text :=
  ["custom", "measurement", "moreoption", "moreoptions"].map String.toList

/-- `_header_token`. -/
def headerToken (t : Text) : Text :=
  (lower (Text.strip t)).filter fun c => c.isLower || c.isDigit

/-- An entry of `more_option_labels`. -/
structure MoreOption where
  key : Text
  label : Text

/-- The column of the row for a label, by the three maps of `_more_option_column_map`. -/
def optionColumn (row : Row) (label : Text) : Option Text :=
  let exact := row.map fun x => (Text.strip x.1, x.1)
  let casefolded := row.map fun x => (lower (Text.strip x.1), x.1)
  let normalized :=
    (row.map fun x => (headerToken x.1, x.1)).filter fun x => x.1 ≠ []
  ((get? exact label).or (get? exact (Text.strip label))).or
    ((get? casefolded (lower (Text.strip label))).or (get? normalized (headerToken label)))

/-- `_more_option_column_map`: the keys of the options that have a column, with it. -/
def moreOptionColumnMap (options : List MoreOption) (row : Row) : List (Text × Text) :=
  options.filterMap fun o => (optionColumn row o.label).map (o.key, ·)

/-- A text contains a word. -/
def contains : Text → Text → Bool
  | [], word => word = []
  | c :: t, word => (word.isPrefixOf (c :: t)) || contains t word

/-- `_unknown_custom_columns`. -/
def unknownCustomColumns (options : List MoreOption) (row : Row) (used : List Text) : List Text :=
  let known := baseImportColumns.map headerToken ++ options.map fun o => headerToken o.label
  (row.filter fun x =>
    x.1 ∉ used && cellText x.2 ≠ [] && headerToken x.1 ≠ [] && headerToken x.1 ∉ known &&
      customFieldHeaderWords.any (contains (headerToken x.1))).map fun x => Text.strip x.1

/-! ## What a row is checked for -/

inductive Mode
  | skip
  | update
  deriving DecidableEq, Repr

/-- A request for an import. -/
structure Request where
  branch : ℕ
  branchCode : Text
  branchName : Text
  mode : Mode
  creditAllowed : Bool
  /-- `membership.allowed_branch_ids is not None`. -/
  branchRestricted : Bool
  options : List MoreOption

/-- `seen_codes` and `seen_mobiles`. -/
structure Seen where
  codes : List Text := []
  mobiles : List Text := []
  deriving DecidableEq

def Seen.add (seen : Seen) (code mobile : Text) : Seen where
  codes := if code = [] then seen.codes else code :: seen.codes
  mobiles := if mobile = [] then seen.mobiles else mobile :: seen.mobiles

section Screen

variable {α : Type} (platform : Platform α) (q : Request)

/-- A check that reports a message. -/
def reject (p : Prop) [Decidable p] (message : Text) : Option Text :=
  if p then some message else none

/-- The branch that the row names, or the selected one for a restricted member. -/
def rowBranch (r : List (Text × Text)) : Text × Text :=
  if column r "branch code" = [] ∧ column r "branch name" = [] ∧ q.branchRestricted then
    (q.branchCode, q.branchName)
  else
    (column r "branch code", column r "branch name")

/-- The checks of a row before any statement: the message of the first that it fails. -/
def screenRow (seen : Seen) (raw : Row) : Option Text :=
  let r := normalizeRow raw
  let used := (moreOptionColumnMap q.options raw).map (·.2)
  let unknown := unknownCustomColumns q.options raw used
  let place := rowBranch q r
  let code := column r "customer code"
  let mobile := column r "mobile"
  let email := column r "email"
  (reject (!q.creditAllowed ∧ creditImportColumns.any (fun name => column r name ≠ []))
    ("Customer Credit must be enabled to import credit limits or opening balances.".toList)).or <|
  (reject (unknown ≠ [])
    ("Unmapped customer custom field column(s): ".toList ++ ", ".toList.intercalate unknown ++
      (". Configure matching More Options labels or remove those columns.").toList)).or <|
  (reject (place.1 = [] ∨ place.2 = []) "Branch Code and Branch Name are required.".toList).or <|
  (reject (Text.casefold place.1 ≠ Text.casefold q.branchCode ∨
      Text.casefold place.2 ≠ Text.casefold q.branchName)
    ("Branch must match selected branch ".toList ++ q.branchCode ++ " — ".toList ++
      q.branchName ++ ".".toList)).or <|
  (reject (column r "customer name" = [])
    "Missing required field: customer name.".toList).or <|
  (reject (email ≠ [] ∧ ¬ platform.validEmail email)
    ("Invalid email format: ".toList ++ email)).or <|
  (reject (code ≠ [] ∧ code ∈ seen.codes)
    ("Duplicate customer code in file: ".toList ++ code)).or <|
  reject (mobile ≠ [] ∧ mobile ∈ seen.mobiles) ("Duplicate mobile in file: ".toList ++ mobile)

end Screen

/-! ## Fields -/

section Fields

variable {α : Type} (platform : Platform α) (q : Request)

/-- `r.get(name, current)[:size]`. -/
def field (r : List (Text × Text)) (name : String) (current : Text) (size : ℕ) : Text :=
  ((get? r name.toList).getD current).take size

/-- The options of a row that have a value. -/
def optionValues (raw : Row) : List (Text × Text) :=
  (moreOptionColumnMap q.options raw).filterMap fun x =>
    let value := cellText ((get? raw x.2).getD none)
    if value = [] then none else some (x.1, value)

/-- `dict[key] = value`, one after the other. -/
def setAll (values : List (Text × Text)) (options : Text → Option Text) : Text → Option Text :=
  values.foldl (fun d x => Function.update d x.1 (some x.2)) options

/-- `_apply_fields` but for the group; `isNew` where the customer has no primary key. -/
def applyFields (raw : Row) (isNew : Bool) (c : Customer α) : Customer α :=
  let r := normalizeRow raw
  let opening := column r "opening balance"
  let active := column r "active"
  { c with
    fullName := field r "customer name" c.fullName 160
    mobile := if column r "mobile" = [] then c.mobile else (column r "mobile").take 30
    whatsapp := field r "whatsapp" c.whatsapp 30
    email := (get? r "email".toList).getD c.email
    address := field r "address" c.address 255
    city := field r "city" c.city 100
    country := field r "country" c.country 100
    creditLimit :=
      if q.creditAllowed && column r "credit limit" ≠ [] then
        platform.amount (column r "credit limit")
      else c.creditLimit
    openingBalance :=
      if q.creditAllowed && opening ≠ [] then platform.amount opening else c.openingBalance
    balance :=
      if q.creditAllowed && opening ≠ [] && isNew then platform.amount opening else c.balance
    notes := (get? r "notes".toList).getD c.notes
    isActive :=
      if active = [] then c.isActive
      else lower active ∉ ["0".toList, "false".toList, "no".toList, "inactive".toList]
    moreOptions := setAll (optionValues q raw) c.moreOptions }

/-- The name of the group of a row. -/
def groupName (raw : Row) : Text := (column (normalizeRow raw) "group").take 80

/-- `CustomerGroup.objects.get_or_create`: the group and the session, or that the statement
raised. -/
def getOrCreateGroup (name : Text) (s : Session α) : Option (ℕ × Session α) :=
  if s.broken ∨ ¬ platform.takes name then none
  else
    match s.db.groups.findIdx? (· = name) with
    | some pk => some (pk, s)
    | none => some (s.db.groups.length, { s with db.groups := s.db.groups ++ [name] })

/-- `_apply_fields`: the customer and the session, or that the group could not be read. -/
def applyRow (raw : Row) (isNew : Bool) (c : Customer α) (s : Session α) :
    Option (Customer α × Session α) :=
  let changed := applyFields platform q raw isNew c
  if groupName raw = [] then some (changed, s)
  else (getOrCreateGroup platform (groupName raw) s).map fun x =>
    ({ changed with group := some x.1 }, x.2)

/-- A row as its columns keep it. -/
def keep (c : Customer α) : Customer α :=
  { c with
    creditLimit := platform.kept c.creditLimit
    openingBalance := platform.kept c.openingBalance
    balance := platform.kept c.balance }

end Fields

/-! ## One row -/

inductive Outcome
  | imported
  | updated
  | skipped
  | failed
  deriving DecidableEq, Repr

/-- What a row came to, and what it leaves. -/
structure Done (α : Type) where
  outcome : Outcome
  session : Session α
  seen : Seen
  error : Option Text := none

section Rows

variable {α : Type} (platform : Platform α) (q : Request)

/-- The customer of the branch with a code. -/
def findCustomer (branch : ℕ) (code : Text) (db : Database α) : Option ℕ :=
  if code = [] then none
  else db.customers.findIdx? fun c => c.homeBranch = some branch ∧ c.code = code

/-- `existing`, with its primary key. -/
def existingCustomer (branch : ℕ) (code : Text) (db : Database α) : Option (ℕ × Customer α) :=
  (findCustomer branch code db).bind fun pk => db.customers[pk]?.map fun c => (pk, c)

/-- `foreign_match_exists`. -/
def foreignMatch (branch : ℕ) (mobile email : Text) (db : Database α) : Bool :=
  db.customers.any fun c => c.homeBranch ≠ some branch &&
    (mobile ≠ [] && c.mobile = mobile || email ≠ [] && Text.casefold c.email = Text.casefold email)

/-- The queries outside of the handlers raise: the transaction is broken, or the database does not
take what they look for. -/
def lookupsRaise (code mobile email : Text) (s : Session α) : Bool :=
  [code, mobile, email].any fun t => t ≠ [] && (s.broken || !platform.takes t)

/-- `CUST-` and at least five digits. -/
def customerCode (n : ℕ) : Text := "CUST-".toList ++ UtcTime.padded 5 n

/-- `next_customer_code`. -/
def nextCustomerCode (branch : ℕ) (db : Database α) : Text :=
  let own := db.customers.filter fun c => c.homeBranch = some branch
  customerCode (Numbering.search (fun n => own.any (·.code = customerCode n)) (own.length + 1)
    (own.length + 1))

/-- A row that failed. -/
def fails (s : Session α) (seen : Seen) (message : Text) : Done α :=
  ⟨.failed, s, seen, some message⟩

/-- `existing.save()`. -/
def updateRow (raw : Row) (pk : ℕ) (existing : Customer α) (s : Session α) (seen : Seen) : Done α :=
  let r := normalizeRow raw
  match applyRow platform q raw false existing s with
  | none => fails s seen "Update failed".toList
  | some (c, s') =>
    if s'.broken then fails s' seen "Update failed".toList
    else if platform.accepts (keep platform c) then
      { outcome := .updated
        session := { s' with db.customers := s'.db.customers.set pk (keep platform c) }
        seen := seen.add (column r "customer code") (column r "mobile") }
    else fails { s' with broken := true } seen "Update failed".toList

/-- A customer that is not saved yet. -/
def newCustomer (branch : ℕ) (code : Text) : Customer α where
  homeBranch := some branch
  code := code
  creditLimit := platform.zero
  openingBalance := platform.zero
  balance := platform.zero

/-- `customer.full_clean()` and `customer.save()`. -/
def createRow (raw : Row) (s : Session α) (seen : Seen) : Done α :=
  let r := normalizeRow raw
  let code := column r "customer code"
  if code = [] ∧ s.broken then fails s seen "Import failed".toList
  else
    let code' := Text.orElse code (nextCustomerCode q.branch s.db)
    match applyRow platform q raw true (newCustomer platform q.branch code') s with
    | none => fails s seen "Import failed".toList
    | some (c, s') =>
      if s'.broken then fails s' seen "Import failed".toList
      else
        match platform.fullClean s'.db c with
        | some message => fails s' seen message
        | none =>
          if platform.accepts (keep platform c) then
            { outcome := .imported
              session := { s' with db.customers := s'.db.customers ++ [keep platform c] }
              seen := seen.add code (column r "mobile") }
          else fails { s' with broken := true } seen "Import failed".toList

/-- One row; nothing where it raises past its handlers. -/
def importRow (s : Session α) (seen : Seen) (raw : Row) : Option (Done α) :=
  match screenRow platform q seen raw with
  | some message => some (fails s seen message)
  | none =>
    let r := normalizeRow raw
    let code := column r "customer code"
    let mobile := column r "mobile"
    let email := column r "email"
    if lookupsRaise platform code mobile email s then none
    else
      match existingCustomer q.branch code s.db with
      | none =>
        if foreignMatch q.branch mobile email s.db then
          some (fails s seen ("Mobile or email belongs to a customer in another branch; " ++
            "that customer was not changed.").toList)
        else some (createRow platform q raw s seen)
      | some (pk, existing) =>
        if existing.isWalkIn then
          some (fails s seen "Cannot import over the walk-in customer.".toList)
        else if q.mode = .skip then
          some { outcome := .skipped, session := s, seen := seen.add code mobile }
        else some (updateRow platform q raw pk existing s seen)

/-! ## The file -/

structure Summary where
  imported : ℕ := 0
  updated : ℕ := 0
  skipped : ℕ := 0
  failed : ℕ := 0
  deriving DecidableEq, Repr

def Summary.count (u : Summary) : Outcome → Summary
  | .imported => { u with imported := u.imported + 1 }
  | .updated => { u with updated := u.updated + 1 }
  | .skipped => { u with skipped := u.skipped + 1 }
  | .failed => { u with failed := u.failed + 1 }

def Summary.total (u : Summary) : ℕ := u.imported + u.updated + u.skipped + u.failed

/-- The state of the loop over the rows. -/
structure Progress (α : Type) where
  session : Session α
  seen : Seen := {}
  summary : Summary := {}
  outcomes : List Outcome := []
  errors : List (ℕ × Text) := []

/-- One round of the loop; rows are numbered from 2 on. -/
def importNext (p : Progress α) (raw : Row) : Option (Progress α) :=
  (importRow platform q p.session p.seen raw).map fun d =>
    { session := d.session
      seen := d.seen
      summary := p.summary.count d.outcome
      outcomes := p.outcomes ++ [d.outcome]
      errors := p.errors ++ (d.error.map fun message => (p.summary.total + 2, message)).toList }

/-- What the caller gets, and the database after the transaction. -/
structure Report (α : Type) where
  /-- The summary, the outcome of every row and the errors, if the import returns. -/
  answer : Option (Summary × List Outcome × List (ℕ × Text))
  db : Database α

/-- `import_customers`.  Nothing is committed where it raises or its transaction is broken. -/
def importCustomers (db : Database α) (rows : List Row) : Report α :=
  match rows.foldlM (importNext platform q) { session := { db } } with
  | none => ⟨none, db⟩
  | some p =>
    ⟨some (p.summary, p.outcomes, p.errors), if p.session.broken then db else p.session.db⟩

end Rows

end NexaPos.CustomerImport
