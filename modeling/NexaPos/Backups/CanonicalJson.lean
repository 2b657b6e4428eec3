import NexaPos.Core.Inputs
import NexaPos.Lib.DecimalText
import NexaPos.Lib.SignificantDigits

/-!
# Canonical JSON

The documents that logical exports, manifests and headers are made of, the canonical bytes of a
document (`encodeCanonicalDocument`), the strict reader of such bytes (`strictJson`), and what an
export makes of the value of a JSON field (`canonicalJson`).

A document is what Python has in memory.  Its strings are Unicode texts and the keys of a
dictionary are such strings; everything that no function here takes (binary floats, other objects,
decimals that are no numbers, texts with half a surrogate pair, and what contains one as a key) is
`Document.other`.
-/

namespace NexaPos.Backups.CanonicalJson

open JsonText (renderInt renderString escape encodeUtf8 decodeUtf8 loads)

/-! ## Documents -/

/-- A finite `decimal.Decimal`, within the exponents of the module. -/
abbrev PyDecimal := DecimalText.Decimal (-1999999999999999997) 999999999999999999

inductive Number
  | int (n : ℤ)
  | decimal (d : PyDecimal)
  deriving DecidableEq

def Number.value : Number → ℚ
  | .int n => n
  | .decimal d => d.value

/-- A document with numbers of some kind. -/
inductive Document (ν : Type)
  | null
  | bool (b : Bool)
  | number (x : ν)
  | str (s : Text)
  | list (items : List (Document ν))
  | dict (fields : List (Text × Document ν))
  | other

variable {ν μ : Type}

/-- What holds of a document when it holds of its parts, holds of every document. -/
theorem Document.induction {P : Document ν → Prop} (null : P .null) (bool : ∀ b, P (.bool b))
    (number : ∀ x, P (.number x)) (str : ∀ s, P (.str s))
    (list : ∀ items, (∀ v ∈ items, P v) → P (.list items))
    (dict : ∀ fields, (∀ f ∈ fields, P f.2) → P (.dict fields)) (other : P .other)
    (v : Document ν) : P v := by
  refine @Document.rec ν P (fun items => ∀ v ∈ items, P v) (fun fields => ∀ f ∈ fields, P f.2)
    (fun f => P f.2) null bool number str list dict other ?_ ?_ ?_ ?_ (fun _ _ h => h) v
  · exact fun v h => nomatch h
  · exact fun v vs hv hvs => List.forall_mem_cons.mpr ⟨hv, hvs⟩
  · exact fun f h => nomatch h
  · exact fun f fs hf hfs => List.forall_mem_cons.mpr ⟨hf, hfs⟩

/-- `sorted` by the keys. -/
def sortKeys {α : Type} (fields : List (Text × α)) : List (Text × α) :=
  fields.insertionSort fun f g => f.1 ≤ g.1

/-! ## Canonical bytes -/

/-- `_canonical_json_decimal_token`. -/
def canonicalJsonDecimalToken (d : PyDecimal) : Text :=
  let renderedDigits := (Nat.toDigits 10 d.coefficient).dropWhile (· = '0')
  if renderedDigits = [] then ['0']
  else
    let kept := renderedDigits.rdropWhile (· = '0')
    let exponent : ℤ := d.exponent + (renderedDigits.length - kept.length : ℕ)
    let adjusted : ℤ := exponent + kept.length - 1
    let token : Text :=
      if -6 ≤ adjusted ∧ adjusted < 21 then
        if 0 ≤ exponent then kept ++ List.replicate exponent.toNat '0'
        else
          let split : ℤ := kept.length + exponent
          if 0 < split then kept.take split.toNat ++ '.' :: kept.drop split.toNat
          else '0' :: '.' :: (List.replicate (-split).toNat '0' ++ kept)
      else
        let fraction := kept.drop 1
        let coefficient := if fraction = [] then kept.take 1 else kept.take 1 ++ '.' :: fraction
        coefficient ++ 'e' :: renderInt adjusted
    if d.negative then '-' :: token else token

/-- The digits that `int` and `str` convert at most. -/
def maxStrDigits : ℕ := 4300

/-- The number has no more digits than are converted. -/
def fitsDigits (n : ℤ) : Bool := (Nat.toDigits 10 n.natAbs).length ≤ maxStrDigits

/-- The slices of a string, of some characters each. -/
def slices (size : ℕ) : ℕ → Text → List Text
  | 0, _ => []
  | fuel + 1, value => if value = [] then [] else value.take size :: slices size fuel (value.drop size)

/-- The slices that `_iter_json_string_bytes` takes. -/
def fragments (value : Text) : List Text := slices 4096 value.length value

/-- `_iter_json_string_bytes`, with the way in which strings are split. -/
def iterJsonStringBytes (split : Text → List Text) (value : Text) : List (List UInt8) :=
  encodeUtf8 ['"'] :: ((split value).map fun fragment => encodeUtf8 (fragment.flatMap escape)) ++
    [encodeUtf8 ['"']]

/-- Chunks with a comma between two of them. -/
def separated : List (List (List UInt8)) → List (List UInt8)
  | [] => []
  | [part] => part
  | part :: parts => part ++ encodeUtf8 [','] :: separated parts

mutual

/-- `_iter_canonical_json_bytes`.  A dictionary is written in the order of its keys. -/
def iterCanonicalJsonBytes (split : Text → List Text) :
    Document Number → Option (List (List UInt8))
  | .null => some [encodeUtf8 "null".toList]
  | .bool true => some [encodeUtf8 "true".toList]
  | .bool false => some [encodeUtf8 "false".toList]
  | .number (.int n) => if fitsDigits n then some [encodeUtf8 (renderInt n)] else none
  | .number (.decimal d) => some [encodeUtf8 (canonicalJsonDecimalToken d)]
  | .str s => some (iterJsonStringBytes split s)
  | .list items => do
    let parts ← iterItems split items
    return encodeUtf8 ['['] :: separated parts ++ [encodeUtf8 [']']]
  | .dict fields => do
    let parts ← iterFields split fields
    let members := (sortKeys parts).map fun part =>
      iterJsonStringBytes split part.1 ++ encodeUtf8 [':'] :: part.2
    return encodeUtf8 ['{'] :: separated members ++ [encodeUtf8 ['}']]
  | .other => none

/-- The chunks of every item. -/
def iterItems (split : Text → List Text) :
    List (Document Number) → Option (List (List (List UInt8)))
  | [] => some []
  | v :: vs => do
    let part ← iterCanonicalJsonBytes split v
    let parts ← iterItems split vs
    return part :: parts

/-- The chunks of the value of every key. -/
def iterFields (split : Text → List Text) :
    List (Text × Document Number) → Option (List (Text × List (List UInt8)))
  | [] => some []
  | (k, v) :: fs => do
    let part ← iterCanonicalJsonBytes split v
    let parts ← iterFields split fs
    return (k, part) :: parts

end

/-- `encode_canonical_document`, with the way in which strings are split. -/
def encodeWith (split : Text → List Text) (v : Document Number) (trailingLf : Bool) :
    Option (List UInt8) := do
  let chunks ← iterCanonicalJsonBytes split v
  return chunks.flatten ++ if trailingLf then encodeUtf8 ['\n'] else []

/-- `encode_canonical_document`. -/
def encodeCanonicalDocument (v : Document Number) (trailingLf : Bool) : Option (List UInt8) :=
  encodeWith fragments v trailingLf

/-! ## Reading -/

/-- The words that `parse_constant` is called with. -/
def isConstant (token : Text) : Bool :=
  token ∈ ["NaN".toList, "Infinity".toList, "-Infinity".toList]

mutual

/-- The document of a JSON value: `parse_constant` refuses, a repeated key is refused, and other
numbers than whole ones are what `parseFloat` makes of them. -/
def ofValue (parseFloat : Text → Option PyDecimal) : JsonText.Value → Option (Document Number)
  | .null => some .null
  | .bool b => some (.bool b)
  | .int n => if fitsDigits n then some (.number (.int n)) else none
  | .real token =>
    if isConstant token then none else (parseFloat token).map fun d => .number (.decimal d)
  | .str s => some (.str s)
  | .arr items => (ofItems parseFloat items).map .list
  | .obj fields =>
    if (fields.map Prod.fst).Nodup then (ofFields parseFloat fields).map .dict else none

def ofItems (parseFloat : Text → Option PyDecimal) :
    List JsonText.Value → Option (List (Document Number))
  | [] => some []
  | v :: vs => do
    let document ← ofValue parseFloat v
    let documents ← ofItems parseFloat vs
    return document :: documents

def ofFields (parseFloat : Text → Option PyDecimal) :
    List (Text × JsonText.Value) → Option (List (Text × Document Number))
  | [] => some []
  | (k, v) :: fs => do
    let document ← ofValue parseFloat v
    let documents ← ofFields parseFloat fs
    return (k, document) :: documents

end

/-- `_reject_json_number`. -/
def rejectJsonNumber (_ : Text) : Option PyDecimal := none

/-- `raw.startswith`. -/
def startsWith (bytes mark : List UInt8) : Bool := mark.isPrefixOf bytes

/-- `raw.endswith`. -/
def endsWith (bytes mark : List UInt8) : Bool := mark.isSuffixOf bytes

/-- `_strict_json`. -/
def strictJson (raw : List UInt8) (trailingLf : Bool) : Option (Document Number) := do
  if startsWith raw [0xef, 0xbb, 0xbf] then none
  else if trailingLf && (!endsWith raw [10] || endsWith raw [13, 10]) then none
  else
    let decoded ← decodeUtf8 raw
    let value ← loads decoded
    let document ← ofValue rejectJsonNumber value
    if encodeCanonicalDocument document trailingLf = some raw then return document else none

/-! ## Values of JSON fields -/

structure Budget where
  nodes : ℕ := 0
  stringBytes : ℕ := 0
  deriving DecidableEq, Repr

/-- `_consume_json_budget`. -/
def consumeJsonBudget (budget : Budget) (stringValue : Option Text) : Option Budget :=
  if 4096 < budget.nodes + 1 then none
  else
    match stringValue with
    | none => some { budget with nodes := budget.nodes + 1 }
    | some s =>
      let encodedLength := (encodeUtf8 s).length
      if 16384 < encodedLength then none
      else if 65536 < budget.stringBytes + encodedLength then none
      else some ⟨budget.nodes + 1, budget.stringBytes + encodedLength⟩

/-- An underscore between a small letter or a digit and a capital. -/
def separateCamel : Text → Text
  | a :: b :: cs =>
    if (a.isLower || a.isDigit) && b.isUpper then a :: '_' :: separateCamel (b :: cs)
    else a :: separateCamel (b :: cs)
  | cs => cs

/-- `_DATABASE_ID_PREFIXES`. -/
def databaseIdPrefixes : List String := ["assignment", "branch", "business", "category",
  "customer", "employee", "location", "membership", "order", "product", "purchase", "register",
  "role", "sale", "shift", "supplier", "user", "variant", "warehouse"]

/-- `_is_database_id_json_key`; what `unicodedata.normalize` makes of a text is a parameter. -/
def isDatabaseIdJsonKey (normalize : Text → Text) (value : Text) : Bool :=
  let camelSeparated := separateCamel (normalize value)
  let tokens := ((camelSeparated.splitOnP fun c => !c.isAlphanum).filter (· ≠ [])).map
    fun token => token.map Char.toLower
  let compact := tokens.flatten
  if tokens = [] then false
  else if tokens.any fun token => token ∈ ["id", "ids", "pk", "pks"].map String.toList then true
  else if compact ∈ ["primarykey", "primarykeys"].map String.toList then true
  else databaseIdPrefixes.any fun name =>
    (name ++ "id").toList.isPrefixOf compact || (name ++ "pk").toList.isPrefixOf compact

/-- A key of a dictionary. -/
def consumeKey (isDatabaseId : Text → Bool) (budget : Budget) (key : Text) : Option Budget := do
  let budget ← consumeJsonBudget budget (some key)
  if isDatabaseId key then none else return budget

/-- What comes first for every value: the depth and the budget. -/
def enter (maximumDepth depth : ℕ) (budget : Budget) (stringValue : Option Text) :
    Option Budget :=
  if maximumDepth < depth then none else consumeJsonBudget budget stringValue

section Visit

variable (isDatabaseId : Text → Bool) (maximumDepth : ℕ)

mutual

/-- `_canonical_json_value`.  The budget is a sum, so that the values of a dictionary may be
visited before they are put in the order of their keys. -/
def canonicalJsonValue (depth : ℕ) :
    Document Number → Budget → Option (Document Number × Budget)
  | .null, budget => (enter maximumDepth depth budget none).map fun b => (.null, b)
  | .bool b, budget => (enter maximumDepth depth budget none).map fun budget => (.bool b, budget)
  | .number x, budget => (enter maximumDepth depth budget none).map fun b => (.number x, b)
  | .str s, budget => (enter maximumDepth depth budget (some s)).map fun b => (.str s, b)
  | .list items, budget => do
    let budget ← enter maximumDepth depth budget none
    if 1024 < items.length then none
    else
      let (items, budget) ← canonicalJsonItems (depth + 1) items budget
      return (.list items, budget)
  | .dict fields, budget => do
    let budget ← enter maximumDepth depth budget none
    if 1024 < fields.length then none
    else
      let budget ← (fields.map Prod.fst).foldlM (consumeKey isDatabaseId) budget
      let (fields, budget) ← canonicalJsonFields (depth + 1) fields budget
      return (.dict (sortKeys fields), budget)
  | .other, _ => none

def canonicalJsonItems (depth : ℕ) :
    List (Document Number) → Budget → Option (List (Document Number) × Budget)
  | [], budget => some ([], budget)
  | v :: vs, budget => do
    let (v, budget) ← canonicalJsonValue depth v budget
    let (vs, budget) ← canonicalJsonItems depth vs budget
    return (v :: vs, budget)

def canonicalJsonFields (depth : ℕ) :
    List (Text × Document Number) → Budget → Option (List (Text × Document Number) × Budget)
  | [], budget => some ([], budget)
  | (k, v) :: fs, budget => do
    let (v, budget) ← canonicalJsonValue depth v budget
    let (fs, budget) ← canonicalJsonFields depth fs budget
    return ((k, v) :: fs, budget)

end

end Visit

inductive JsonPolicy
  | canonical
  | sortedStringSet
  | flatStringMap
  | indexedStringMap
  | denominationMap
  deriving DecidableEq, Repr

/-- All are allowed, where anything in particular is. -/
def isAllowed (allowedValues names : List Text) : Bool :=
  allowedValues.isEmpty || names.all (· ∈ allowedValues)

/-- The item is a string that is not empty. -/
def nonemptyString : Document Number → Option Text
  | .str s => if s = [] then none else some s
  | _ => none

/-- The value is a string. -/
def Document.isString : Document Number → Bool
  | .str _ => true
  | _ => false

/-- `_DENOMINATION_NAME.fullmatch`. -/
def isDenominationName (key : Text) : Bool :=
  match JsonText.scanNat key with
  | some (_, rest) => (JsonText.scanFraction rest).2 = []
  | none => false

/-- `Decimal(key)`. -/
def denomination (key : Text) : ℚ :=
  match DecimalText.parts key with
  | some (negative, coefficient, exponent) => DecimalText.valueOf negative coefficient exponent
  | none => 0

/-- An integer or a decimal that is not negative. -/
def isCount : Document Number → Bool
  | .number x => 0 ≤ x.value
  | _ => false

/-- What the policy of a field asks of a value. -/
def applyPolicy (policy : JsonPolicy) (allowedValues : List Text) (canonical : Document Number) :
    Option (Document Number) :=
  match policy, canonical with
  | .canonical, canonical => some canonical
  | .sortedStringSet, .list items => do
    let names ← items.mapM nonemptyString
    if names.Nodup ∧ isAllowed allowedValues names then
      return .list ((names.insertionSort (· ≤ ·)).map .str)
    else none
  | .flatStringMap, .dict fields =>
    if (fields.all fun f => f.1 ≠ [] && f.2.isString) &&
        isAllowed allowedValues (fields.map Prod.fst) then
      some (.dict fields)
    else none
  | .indexedStringMap, .dict fields =>
    if (fields.all fun f => f.1 ≠ [] && f.2.isString) && !allowedValues.isEmpty &&
        isAllowed allowedValues (fields.map Prod.fst) then
      some (.dict fields)
    else none
  | .denominationMap, .null => some .null
  | .denominationMap, .dict fields =>
    -- `normalize` rounds to the 28 digits of the decimal context.
    if (fields.all fun f => isDenominationName f.1 && 0 < denomination f.1 && isCount f.2) ∧
        (fields.map fun f => Rounding.significant 28 (denomination f.1)).Nodup then
      some (.dict fields)
    else none
  | _, _ => none

/-- `canonical_json`.  A string is the text of the value. -/
def canonicalJson (normalize : Text → Text) (maximumDepth : ℕ) (policy : JsonPolicy)
    (allowedValues : List Text) (value : Document Number) : Option (Document Number) := do
  let parsed ←
    match value with
    | .str s =>
      if 65536 < (encodeUtf8 s).length then none
      else (loads s).bind (ofValue DecimalText.Decimal.ofToken)
    | value => some value
  let (canonical, _) ←
    canonicalJsonValue (isDatabaseIdJsonKey normalize) maximumDepth 0 parsed {}
  applyPolicy policy allowedValues canonical

end NexaPos.Backups.CanonicalJson
