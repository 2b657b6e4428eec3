import NexaPos.Inventory.Services
import NexaPos.Sales.Calculations

/-!
# Cart validation

`complete_sale` accepts a cart line only after a long list of checks on the product, the
variant, the price, the discount and, for tailoring garments, on what the garment is cut from.
`normalizeLine` is that list, in the source's order; what it returns carries the facts the rest
of the checkout relies on (a positive quantity, a price that is not negative, a positive metre
quantity that only a line cut from the business's own fabric has).
-/

namespace NexaPos

/-! ## Raw lines -/

/-- One raw line of the cart. -/
structure CartLine where
  product : ℕ
  variant : Option ℕ := none
  quantity : ℚ
  /-- Absent: the catalogue price. -/
  unitPrice : Option ℚ := none
  discountAmount : ℚ := 0
  familyMemberId : RawChoice ℕ := .missing
  customerSuppliedFabric : RawChoice Bool := .missing
  /-- `none` when the key is absent. -/
  fabricMeterUsed : Option Cell := none
  garmentClassification : RawChoice GarmentClassification := .missing
  collectionType : RawChoice CollectionType := .missing
  /-- `none` when the value is not an object. -/
  tailoringDetails : Option (TailoringField → Text) := some fun _ => []

/-- `items.{index}`. -/
def fieldPrefix (index : ℕ) : String := s!"items.{index}"

/-- `_clean_customer_supplied_fabric`: only a real boolean; a missing value is `False`. -/
def cleanCustomerSuppliedFabric (field : String) : RawChoice Bool → Except PosError Bool
  | .missing => .ok false
  | .value b => .ok b
  | _ => .error (SaleError.onField s!"{field}.customer_supplied_fabric"
      "Customer Fabric must be true or false.")

/-! ## Tailoring details -/

namespace TailoringField

/-- `TAILORING_FIELDS`. -/
def all : List TailoringField :=
  [designType, darazDetails, vip3dDesign, computerDesign, customerNotes, workshopNotes]

/-- The key in the request. -/
def key : TailoringField → String
  | designType => "design_type"
  | darazDetails => "daraz_details"
  | vip3dDesign => "vip_3d_design"
  | computerDesign => "computer_design"
  | customerNotes => "customer_notes"
  | workshopNotes => "workshop_notes"

/-- `key.replace("_", " ").title()`. -/
def label : TailoringField → String
  | designType => "Design Type"
  | darazDetails => "Daraz Details"
  | vip3dDesign => "Vip 3D Design"
  | computerDesign => "Computer Design"
  | customerNotes => "Customer Notes"
  | workshopNotes => "Workshop Notes"

/-- `TAILORING_FIELD_LIMITS`. -/
def limit : TailoringField → ℕ
  | designType => 50
  | darazDetails => 200
  | vip3dDesign => 200
  | computerDesign => 200
  | customerNotes => 500
  | workshopNotes => 500

end TailoringField

/-- `TAILORING_DESIGN_TYPES`. -/
def tailoringDesignTypes : List Text :=
  ["Daraz".toList, "VIP 3D".toList, "VIP 3D Design".toList, "Computer Design".toList]

/-- One field of `_clean_tailoring_details`: blank values are dropped. -/
def cleanTailoringField (field : String) (raw : TailoringField → Text) (key : TailoringField) :
    Except PosError (Option (TailoringField × Text)) :=
  let value := Text.strip (raw key)
  if value = [] then
    .ok none
  else if key.limit < value.length then
    .error (SaleError.onField s!"{field}.{key.key}"
      s!"{key.label} must be {key.limit} characters or fewer.")
  else
    .ok (some (key, value))

/-- `_clean_tailoring_details`. -/
def cleanTailoringDetails (field : String) (raw : Option (TailoringField → Text)) :
    Except PosError (List (TailoringField × Text)) := do
  let raw ← found raw (.sale "Invalid tailoring details."
    [(field, "Tailoring details must be an object.")])
  let cleaned ← TailoringField.all.mapM (cleanTailoringField field raw)
  let details := cleaned.filterMap id
  require (details.all fun d => d.1 ≠ .designType || d.2 ∈ tailoringDesignTypes)
    (SaleError.onField s!"{field}.design_type" "Select a valid design type.")
  return details

/-! ## Fabric -/

/-- `MAX_FABRIC_TOTAL`. -/
def maxFabricTotal : ℤ := 99999999999999

/-- `MAX_POS_FABRIC_METER`. -/
def maxPosFabricMeter : ℚ := 1000

/-- `_fabric_estimate`. -/
def fabricEstimate (product : Product) (classification : GarmentClassification) (quantity : ℚ)
    (field : String) : Except PosError ℤ := do
  let perGarment := match classification with
    | .adult => product.estimatedAdultFabric
    | .child => product.estimatedChildFabric
  let label := match classification with
    | .adult => "Adult"
    | .child => "Child"
  let perGarment ← found perGarment (SaleError.onField s!"{field}.garment_classification"
    s!"Configure Estimated {label} Fabric for {product.name} before selling it.")
  let estimate := qty (quantity * dec perGarment)
  require (estimate ≤ maxFabricTotal)
    (SaleError.onField field s!"Estimated fabric for {product.name} is too large.")
  return estimate

/-- A positive literal with at most three decimals is not lost when it is stored. -/
lemma qty_pos_of_exponent {d : Decimal} (hpos : 0 < d.value) (hexp : -3 ≤ d.exponent) :
    0 < qty d.value := by
  unfold Decimal.value at hpos ⊢
  have hten : (0 : ℚ) < 10 ^ d.exponent := zpow_pos (by norm_num) _
  have hcoeff : 1 ≤ d.coefficient := by
    have : (0 : ℚ) < d.coefficient := pos_of_mul_pos_left hpos hten.le
    exact_mod_cast this
  have hscale : (1 / 1000 : ℚ) ≤ 10 ^ d.exponent := by
    calc (1 / 1000 : ℚ) = 10 ^ (-3 : ℤ) := by norm_num
      _ ≤ 10 ^ d.exponent := zpow_le_zpow_right₀ (by norm_num) hexp
  have hvalue : dec 1 ≤ d.coefficient * (10 : ℚ) ^ d.exponent := by
    have hone : (1 : ℚ) ≤ d.coefficient := by exact_mod_cast hcoeff
    calc dec 1 = 1 / 1000 := by simp [dec]
      _ ≤ 10 ^ d.exponent := hscale
      _ ≤ d.coefficient * 10 ^ d.exponent := le_mul_of_one_le_left hten.le hone
  have hqty := qty_mono hvalue
  rw [qty_dec] at hqty
  omega

/-- `_clean_fabric_meter`: at most three decimals, so nothing is rounded away. -/
def cleanFabricMeter (field : String) (raw : Cell) : Except PosError {m : ℤ // 0 < m} :=
  let fail message := .error (SaleError.onField s!"{field}.fabric_meter_used" message)
  match raw with
  | .blank => fail "Enter Meter for every tailoring garment."
  | .invalid => fail "Enter a valid Meter amount."
  | .nonFinite => fail "Enter a valid Meter amount."
  | .number d =>
    if hpos : 0 < d.value then
      if d.value ≤ maxPosFabricMeter then
        if hexp : -3 ≤ d.exponent then
          .ok ⟨qty d.value, qty_pos_of_exponent hpos hexp⟩
        else
          fail "Meter can have at most 3 decimal places."
      else
        fail "Meter cannot exceed 1000.000."
    else
      fail "Meter must be greater than zero."

/-! ## Garments -/

/-- What a line says about the garment it sells.  A metre quantity is only ever read for the
business's own fabric. -/
structure Garment (customerFabric : Bool) where
  classification : Option GarmentClassification
  collectionType : Option CollectionType
  estimatedFabric : Option ℤ
  fabricMeterUsed : Option {m : ℤ // 0 < m}
  noMeter : customerFabric = true → fabricMeterUsed = none

/-- The classification of a garment, which every garment needs. -/
def garmentClassification (field : String) (raw : RawChoice GarmentClassification) :
    Except PosError GarmentClassification :=
  found raw.toOption (SaleError.onField s!"{field}.garment_classification"
    "Select Adult or Child for every garment.")

/-- The collection of a garment, which every garment needs. -/
def garmentCollection (field : String) (raw : RawChoice CollectionType) :
    Except PosError CollectionType :=
  found raw.toOption (SaleError.onField s!"{field}.collection_type"
    "Select Normal or Premium for every garment.")

/-- A garment sold by the metre: one piece, cut from stocked fabric unless the customer brings
the material. -/
def meterGarment (product : Product) (line : CartLine) (customerFabric : Bool)
    (field : String) : Except PosError (Garment customerFabric) := do
  require (customerFabric || product.isStocked)
    (SaleError.onField field s!"{product.name} must track inventory before it can be sold.")
  require (customerFabric || !isMeterVariantParent product line.variant)
    (SaleError.onField s!"{field}.variant_id" s!"Select a fabric color for {product.name}.")
  require (line.quantity = 1) (SaleError.onField s!"{field}.quantity"
    "Quantity must be 1 for meter tailoring garments.")
  let meter : {m // customerFabric = true → m = none} ←
    if h : customerFabric = true then
      .ok ⟨none, fun _ => rfl⟩
    else
      (cleanFabricMeter field (line.fabricMeterUsed.getD .blank)).map fun m =>
        ⟨some m, fun h' => absurd h' h⟩
  let classification ← garmentClassification field line.garmentClassification
  let collectionType ← garmentCollection field line.collectionType
  return {
    classification := classification
    collectionType := collectionType
    estimatedFabric := none
    fabricMeterUsed := meter.1
    noMeter := meter.2 }

/-- A garment of a product without a unit: fabric is estimated, not measured. -/
def legacyGarment (product : Product) (line : CartLine) (customerFabric : Bool)
    (field : String) : Except PosError (Garment customerFabric) := do
  let classification ← garmentClassification field line.garmentClassification
  -- calls from before collection types existed omit the key
  let rawCollection := if line.collectionType = .missing && !customerFabric then
    .value .normal else line.collectionType
  let collectionType ← garmentCollection field rawCollection
  let estimate ← if customerFabric then .ok none else
    (fabricEstimate product classification line.quantity field).map some
  return {
    classification := classification
    collectionType := collectionType
    estimatedFabric := estimate
    fabricMeterUsed := none
    noMeter := fun _ => rfl }

/-- A line that is no garment must not carry garment data. -/
def noGarment (product : Product) (line : CartLine) (customerFabric : Bool)
    (details : List (TailoringField × Text)) (field : String) :
    Except PosError (Garment customerFabric) := do
  require (!(product.isTailoringItem && product.unitIsMeter = none &&
      line.fabricMeterUsed.isSome))
    (SaleError.onField s!"{field}.fabric_meter_used"
      s!"Select the Meter unit for {product.name} before entering Meter.")
  require (line.garmentClassification.isBlank && line.collectionType.isBlank && details.isEmpty)
    (SaleError.onField field s!"{product.name} is not configured as a tailoring garment.")
  return {
    classification := none
    collectionType := none
    estimatedFabric := none
    fabricMeterUsed := none
    noMeter := fun _ => rfl }

/-! ## One line -/

/-- `catalog_services.product_is_visible_in_branch`. -/
def productIsVisibleInBranch (s : State) (productId : ℕ) (product : Product)
    (variant : Option ℕ) (branch : ℕ) : Bool :=
  if !product.isStocked then
    true
  else
    let inWarehouse (w : ℕ) : Bool :=
      match product.isMeterTailoring, configuredSharedFabricWarehouse s with
      | true, some shared => w = shared
      | _, _ => (s.tenant.warehouses[w]?).any fun x => x.branch = some branch && x.isActive
    let ofVariant (v : Option ℕ) : Bool :=
      match variant with
      | some id => v = some id
      | none => !product.hasVariants || v.isSome
    s.stock.levels.entries.any fun e =>
      e.1.product = productId && inWarehouse e.1.warehouse && ofVariant e.1.variant

/-- The product has a stock level anywhere. -/
def isStockAssigned (s : State) (productId : ℕ) : Bool :=
  s.stock.levels.entries.any fun e => e.1.product = productId

/-- `_resolve_price`. -/
def resolvePrice (product : Product) (variant : Option ProductVariant) : ℤ :=
  match variant with
  | some v => if 0 < v.salePrice then v.salePrice else product.salePrice
  | none => product.salePrice

/-- `_resolve_cost`. -/
def resolveCost (product : Product) (variant : Option ProductVariant) : ℤ :=
  match variant with
  | some v => if v.averageCost = 0 then v.purchasePrice else v.averageCost
  | none => if product.averageCost = 0 then product.purchasePrice else product.averageCost

/-- The wearer of a garment must be an active family member of the customer. -/
def checkFamilyMember (s : State) (customer : ℕ) (member : Option ℕ) (isGarment : Bool)
    (field : String) : Except PosError Unit :=
  match member with
  | none => .ok ()
  | some id => do
    let key := s!"{field}.family_member_id"
    let notTheirs := SaleError.onField key "Select a family member belonging to this customer."
    let row ← found s.parties.familyMembers[id]? notTheirs
    require (row.customer = customer) notTheirs
    require row.isActive (SaleError.onField key "The selected family member is inactive.")
    require isGarment (SaleError.onField key
      "A family member can only be selected for a tailoring garment.")

/-- The price of a line: entered or from the catalogue, and not below the minimum. -/
def cleanPrice (c : Call) (product : Product) (variant : Option ProductVariant)
    (entered : Option ℚ) : Except PosError {p : ℤ // 0 ≤ p} := do
  let default := if product.isMeterTailoring then 0 else resolvePrice product variant
  let price := money (entered.getD (dec default))
  let ⟨hprice⟩ ← requireThat (0 ≤ price) (SaleError "Price cannot be negative.")
  require (product.isMeterTailoring || product.minimumSalePrice ≤ 0 ||
      product.minimumSalePrice ≤ price || c.actor.hasPerm "sales.price_override")
    (SaleError s!"Price for {product.name} is below the minimum sale price.")
  return ⟨price, hprice⟩

/-- One iteration of the cart loop of `complete_sale`. -/
def normalizeLine (c : Call) (s : State) (branch customer : ℕ)
    (entry : (CartLine × Option ℕ) × ℕ) : Except PosError NormalizedLine := do
  let line := entry.1.1
  let field := fieldPrefix entry.2
  let product ← found s.catalog.products[line.product]? (SaleError "Invalid product in cart.")
  require (product.isActive && !product.isArchived) (SaleError "Invalid product in cart.")
  let variant ← variantOf s line.product line.variant (SaleError "Invalid variant in cart.")
  require (variant.all ProductVariant.isActive) (SaleError "Invalid variant in cart.")
  let customerFabric ← cleanCustomerSuppliedFabric field line.customerSuppliedFabric
  let isMeter := product.isMeterTailoring
  let isLegacy := product.isLegacyTailoring && (customerFabric || line.fabricMeterUsed.isNone)
  checkFamilyMember s customer entry.1.2 (isMeter || isLegacy) field
  require (!customerFabric || isMeter || isLegacy)
    (SaleError.onField field "Customer Fabric can only be used with a tailoring garment.")
  require (productIsVisibleInBranch s line.product product line.variant branch ||
      (customerFabric && !isStockAssigned s line.product))
    (SaleError "Invalid product in cart.")
  let ⟨hquantity⟩ ← requireThat (0 < line.quantity) (SaleError "Quantity must be positive.")
  let price ← cleanPrice c product variant line.unitPrice
  let discount := money line.discountAmount
  require (!(0 < discount && (isMeter || !product.allowDiscount)))
    (SaleError s!"Discounts are not allowed on {product.name}.")
  let details ← cleanTailoringDetails s!"{field}.tailoring_details" line.tailoringDetails
  let garment ←
    if isMeter then meterGarment product line customerFabric field
    else if isLegacy then legacyGarment product line customerFabric field
    else noGarment product line customerFabric details field
  return {
    productId := line.product
    product := product
    variantId := line.variant
    variant := variant
    quantity := line.quantity
    unitPrice := price.1
    discountAmount := discount
    garmentClassification := garment.classification
    collectionType := garment.collectionType
    estimatedFabric := garment.estimatedFabric
    fabricMeterUsed := garment.fabricMeterUsed.map Subtype.val
    customerSuppliedFabric := customerFabric
    tailoringDetails := details
    familyMember := entry.1.2
    quantity_pos := hquantity
    unitPrice_nonneg := price.2
    meter_pos := by
      intro m hm
      obtain ⟨x, -, rfl⟩ := Option.map_eq_some_iff.mp (Option.mem_def.mp hm)
      exact x.2
    customerFabric_noMeter := fun h => by rw [garment.noMeter h]; rfl }

/-! ## What an accepted line guarantees -/

/-- A metre quantity is only accepted for one piece of a product that is kept in stock. -/
lemma meterGarment_ok {product : Product} {line : CartLine} {customerFabric : Bool}
    {field : String} {garment : Garment customerFabric}
    (h : meterGarment product line customerFabric field = .ok garment)
    (hmeter : garment.fabricMeterUsed.isSome = true) :
    product.isStocked = true ∧ line.quantity = 1 := by
  unfold meterGarment at h
  simp only [except_bind_eq_ok, require_eq_ok, Bool.or_eq_true, decide_eq_true_eq] at h
  obtain ⟨-, hstocked, -, -, -, hone, -⟩ := h
  rcases hstocked with hfabric | hstocked
  · rw [garment.noMeter hfabric] at hmeter
    cases hmeter
  · exact ⟨hstocked, hone⟩

/-- A garment sold by the metre measures fabric, unless the customer brings it. -/
lemma meterGarment_measured {product : Product} {line : CartLine} {customerFabric : Bool}
    {field : String} {garment : Garment customerFabric}
    (h : meterGarment product line customerFabric field = .ok garment) :
    customerFabric = true ∨ garment.fabricMeterUsed.isSome = true := by
  by_cases hfabric : customerFabric = true
  · exact .inl hfabric
  · unfold meterGarment at h
    simp only [hfabric, except_bind_eq_ok, pure, Except.pure] at h
    obtain ⟨-, -, -, -, -, -, h⟩ := h
    rw [dif_neg Bool.false_ne_true] at h
    simp only [except_bind_eq_ok, Except.ok.injEq] at h
    obtain ⟨meter, hmeter, -, -, -, -, rfl⟩ := h
    cases hclean : cleanFabricMeter field (line.fabricMeterUsed.getD .blank) with
    | error e =>
      rw [hclean] at hmeter
      cases hmeter
    | ok m =>
      rw [hclean] at hmeter
      cases hmeter
      exact .inr rfl

lemma legacyGarment_noMeter {product : Product} {line : CartLine} {customerFabric : Bool}
    {field : String} {garment : Garment customerFabric}
    (h : legacyGarment product line customerFabric field = .ok garment) :
    garment.fabricMeterUsed = none := by
  unfold legacyGarment at h
  simp only [except_bind_eq_ok, pure, Except.pure] at h
  obtain ⟨classification, -, collectionType, -, h⟩ := h
  split at h
  · cases h
    rfl
  · rw [except_bind_eq_ok] at h
    obtain ⟨estimate, -, h⟩ := h
    cases h
    rfl

lemma noGarment_noMeter {product : Product} {line : CartLine} {customerFabric : Bool}
    {details : List (TailoringField × Text)} {field : String} {garment : Garment customerFabric}
    (h : noGarment product line customerFabric details field = .ok garment) :
    garment.fabricMeterUsed = none := by
  unfold noGarment at h
  simp only [except_bind_eq_ok, pure, Except.pure, Except.ok.injEq] at h
  obtain ⟨-, -, -, -, rfl⟩ := h
  rfl

/-- A validated line that measures fabric is one piece of a product that is kept in stock. -/
lemma normalizeLine_meter {c : Call} {s : State} {branch customer : ℕ}
    {entry : (CartLine × Option ℕ) × ℕ} {line : NormalizedLine}
    (h : normalizeLine c s branch customer entry = .ok line)
    (hmeter : line.fabricMeterUsed.isSome = true) :
    line.product.isStocked = true ∧ line.quantity = 1 := by
  unfold normalizeLine at h
  simp only [except_bind_eq_ok, pure, Except.pure] at h
  obtain ⟨product, -, -, -, variant, -, -, -, customerFabric, -, -, -, -, -, -, -, hquantity, -,
    price, -, -, -, details, -, hgarment⟩ := h
  have hnone : ∀ {garment : Garment customerFabric}, garment.fabricMeterUsed = none →
      ¬ (garment.fabricMeterUsed.map Subtype.val).isSome = true := by
    intro garment hnone
    rw [hnone]
    exact Bool.false_ne_true
  split at hgarment
  · rw [except_bind_eq_ok] at hgarment
    obtain ⟨garment, hgarment, hline⟩ := hgarment
    cases hline
    refine meterGarment_ok hgarment ?_
    rwa [Option.isSome_map] at hmeter
  · split at hgarment
    · rw [except_bind_eq_ok] at hgarment
      obtain ⟨garment, hgarment, hline⟩ := hgarment
      cases hline
      exact absurd hmeter (hnone (legacyGarment_noMeter hgarment))
    · rw [except_bind_eq_ok] at hgarment
      obtain ⟨garment, hgarment, hline⟩ := hgarment
      cases hline
      exact absurd hmeter (hnone (noGarment_noMeter hgarment))

/-- A validated line of a product that is sold by the metre measures fabric, unless the customer
brings it. -/
lemma normalizeLine_measured {c : Call} {s : State} {branch customer : ℕ}
    {entry : (CartLine × Option ℕ) × ℕ} {line : NormalizedLine}
    (h : normalizeLine c s branch customer entry = .ok line) :
    s.catalog.products[line.productId]? = some line.product ∧
      (line.product.isMeterTailoring = true →
        line.customerSuppliedFabric = true ∨ line.fabricMeterUsed.isSome = true) := by
  unfold normalizeLine at h
  simp only [except_bind_eq_ok, found_eq_ok, pure, Except.pure] at h
  obtain ⟨product, hproduct, -, -, variant, -, -, -, customerFabric, -, -, -, -, -, -, -,
    hquantity, -, price, -, -, -, details, -, hgarment⟩ := h
  split at hgarment
  · rw [except_bind_eq_ok] at hgarment
    obtain ⟨garment, hgarment, hline⟩ := hgarment
    cases hline
    refine ⟨hproduct, fun _ => ?_⟩
    rw [Option.isSome_map]
    exact meterGarment_measured hgarment
  · rename_i hmeter
    split at hgarment
    · rw [except_bind_eq_ok] at hgarment
      obtain ⟨garment, -, hline⟩ := hgarment
      cases hline
      exact ⟨hproduct, fun h => absurd h hmeter⟩
    · rw [except_bind_eq_ok] at hgarment
      obtain ⟨garment, -, hline⟩ := hgarment
      cases hline
      exact ⟨hproduct, fun h => absurd h hmeter⟩

end NexaPos
