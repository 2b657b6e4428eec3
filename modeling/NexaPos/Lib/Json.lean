import Mathlib.Algebra.BigOperators.Group.List.Basic
import Mathlib.Data.Char
import Mathlib.Data.List.Lex
import Mathlib.Data.List.Sort
import Mathlib.Data.List.TakeWhile
import Mathlib.Tactic.IntervalCases

/-!
# JSON texts

The values of JSON, the text that a compact writer makes of a value (`render`), the same with the
members of every object in the order of their names (`encode`), and a reader of texts
(`loads`), which knows white space, every escape and every form of number.  The reader gives back
what either writer wrote (`loads_render`, `loads_encode`).

Numbers with a fraction or an exponent are kept as they are written (`isRealToken`), and an object
keeps its members as they come, repeated names included: what to make of these is left to the
caller.
-/

namespace JsonText

abbrev Text := List Char

inductive Value
  | null
  | bool (b : Bool)
  | int (n : ℤ)
  /-- A number with a fraction or an exponent, or a word for no number, as it is written. -/
  | real (token : Text)
  | str (s : Text)
  | arr (items : List Value)
  | obj (fields : List (Text × Value))

/-- What holds of a value when it holds of its parts, holds of every value. -/
theorem Value.induction {P : Value → Prop} (null : P .null) (bool : ∀ b, P (.bool b))
    (int : ∀ n, P (.int n)) (real : ∀ token, P (.real token)) (str : ∀ s, P (.str s))
    (arr : ∀ items, (∀ v ∈ items, P v) → P (.arr items))
    (obj : ∀ fields, (∀ f ∈ fields, P f.2) → P (.obj fields)) (v : Value) : P v := by
  refine @Value.rec P (fun items => ∀ v ∈ items, P v) (fun fields => ∀ f ∈ fields, P f.2)
    (fun f => P f.2) null bool int real str arr obj ?_ ?_ ?_ ?_ (fun _ _ h => h) v
  · exact fun v h => nomatch h
  · exact fun v vs hv hvs => List.forall_mem_cons.mpr ⟨hv, hvs⟩
  · exact fun f h => nomatch h
  · exact fun f fs hf hfs => List.forall_mem_cons.mpr ⟨hf, hfs⟩

mutual

/-- A property of the value and of every value in it. -/
def Value.all (p : Value → Bool) : Value → Bool
  | .arr items => p (.arr items) && allItems p items
  | .obj fields => p (.obj fields) && allFields p fields
  | v => p v

def allItems (p : Value → Bool) : List Value → Bool
  | [] => true
  | v :: vs => v.all p && allItems p vs

def allFields (p : Value → Bool) : List (Text × Value) → Bool
  | [] => true
  | (_, v) :: fs => v.all p && allFields p fs

end

lemma allItems_eq_true {p : Value → Bool} {items : List Value} :
    allItems p items = true ↔ ∀ v ∈ items, v.all p = true := by
  induction items with
  | nil => simp [allItems]
  | cons v vs ih => simp [allItems, ih]

lemma allFields_eq_true {p : Value → Bool} {fields : List (Text × Value)} :
    allFields p fields = true ↔ ∀ f ∈ fields, f.2.all p = true := by
  induction fields with
  | nil => simp [allFields]
  | cons f fs ih => simp [allFields, ih]

lemma all_arr {p : Value → Bool} {items : List Value} :
    (Value.arr items).all p = true ↔ p (.arr items) = true ∧ ∀ v ∈ items, v.all p = true := by
  rw [Value.all, Bool.and_eq_true, allItems_eq_true]

lemma all_obj {p : Value → Bool} {fields : List (Text × Value)} :
    (Value.obj fields).all p = true ↔
      p (.obj fields) = true ∧ ∀ f ∈ fields, f.2.all p = true := by
  rw [Value.all, Bool.and_eq_true, allFields_eq_true]

/-- The value is no number with a fraction or an exponent. -/
def Value.isExact : Value → Bool
  | .real _ => false
  | _ => true

/-! ## Writing -/

/-- A character of a string, escaped where it has to be. -/
def escape (c : Char) : Text :=
  if c = '"' then ['\\', '"']
  else if c = '\\' then ['\\', '\\']
  else if c = '\n' then ['\\', 'n']
  else if c = '\r' then ['\\', 'r']
  else if c = '\t' then ['\\', 't']
  else if c = '\x0c' then ['\\', 'f']
  else if c = '\x08' then ['\\', 'b']
  else if c.toNat < 32 then
    ['\\', 'u', '0', '0', Nat.digitChar (c.toNat / 16), Nat.digitChar (c.toNat % 16)]
  else [c]

def renderString (s : Text) : Text := '"' :: (s.flatMap escape ++ ['"'])

def renderInt (n : ℤ) : Text :=
  if n < 0 then '-' :: Nat.toDigits 10 n.natAbs else Nat.toDigits 10 n.natAbs

mutual

/-- The compact text of a value. -/
def render : Value → Text
  | .null => ['n', 'u', 'l', 'l']
  | .bool true => ['t', 'r', 'u', 'e']
  | .bool false => ['f', 'a', 'l', 's', 'e']
  | .int n => renderInt n
  | .real token => token
  | .str s => renderString s
  | .arr [] => ['[', ']']
  | .arr (v :: vs) => '[' :: (render v ++ renderItems vs)
  | .obj [] => ['{', '}']
  | .obj ((k, v) :: fs) => '{' :: (renderString k ++ ':' :: (render v ++ renderFields fs))

/-- The items that follow the first one, and the end of the array. -/
def renderItems : List Value → Text
  | [] => [']']
  | v :: vs => ',' :: (render v ++ renderItems vs)

def renderFields : List (Text × Value) → Text
  | [] => ['}']
  | (k, v) :: fs => ',' :: (renderString k ++ ':' :: (render v ++ renderFields fs))

end

/-- Members in the order of their names. -/
def sortFields (fields : List (Text × Value)) : List (Text × Value) :=
  fields.insertionSort fun f g => f.1 ≤ g.1

mutual

/-- Every object with its members in order. -/
def canonical : Value → Value
  | .arr items => .arr (canonicalItems items)
  | .obj fields => .obj (sortFields (canonicalFields fields))
  | v => v

def canonicalItems : List Value → List Value
  | [] => []
  | v :: vs => canonical v :: canonicalItems vs

def canonicalFields : List (Text × Value) → List (Text × Value)
  | [] => []
  | (k, v) :: fs => (k, canonical v) :: canonicalFields fs

end

/-- The text of a value with the members of objects in the order of their names. -/
def encode (v : Value) : Text := render (canonical v)

/-! ## Reading -/

def isSpace (c : Char) : Bool := c = ' ' || c = '\t' || c = '\n' || c = '\r'

def skip (t : Text) : Text := t.dropWhile isSpace

def hexValue (c : Char) : Option ℕ :=
  if '0' ≤ c ∧ c ≤ '9' then some (c.toNat - '0'.toNat)
  else if 'a' ≤ c ∧ c ≤ 'f' then some (c.toNat - 'a'.toNat + 10)
  else if 'A' ≤ c ∧ c ≤ 'F' then some (c.toNat - 'A'.toNat + 10)
  else none

/-- Four hexadecimal digits. -/
def hexFour (a b c d : Char) : Option ℕ := do
  let a ← hexValue a
  let b ← hexValue b
  let c ← hexValue c
  let d ← hexValue d
  return ((a * 16 + b) * 16 + c) * 16 + d

/-- The character of an escape of one letter. -/
def unescape (c : Char) : Option Char :=
  if c = '"' then some '"'
  else if c = '\\' then some '\\'
  else if c = '/' then some '/'
  else if c = 'n' then some '\n'
  else if c = 'r' then some '\r'
  else if c = 't' then some '\t'
  else if c = 'f' then some '\x0c'
  else if c = 'b' then some '\x08'
  else none

def isHighSurrogate (n : ℕ) : Bool := 0xd800 ≤ n && n < 0xdc00

def isLowSurrogate (n : ℕ) : Bool := 0xdc00 ≤ n && n < 0xe000

/-- A character before the rest of a string. -/
def consTo (c : Char) (scanned : Option (Text × Text)) : Option (Text × Text) :=
  scanned.map fun r => (c :: r.1, r.2)

/-- The rest of a string, after its opening quote.  Half a surrogate pair is no character, and
refused. -/
def scanString : Text → Option (Text × Text)
  | '"' :: cs => some ([], cs)
  | '\\' :: 'u' :: a :: b :: c :: d :: cs =>
    match hexFour a b c d with
    | none => none
    | some n =>
      if isHighSurrogate n then
        match cs with
        | '\\' :: 'u' :: a :: b :: c :: d :: cs =>
          match hexFour a b c d with
          | none => none
          | some m =>
            if isLowSurrogate m then
              consTo (Char.ofNat (0x10000 + (n - 0xd800) * 0x400 + (m - 0xdc00))) (scanString cs)
            else none
        | _ => none
      else if isLowSurrogate n then none
      else consTo (Char.ofNat n) (scanString cs)
  | '\\' :: e :: cs => (unescape e).bind fun c => consTo c (scanString cs)
  | c :: cs => if c = '\\' ∨ c.toNat < 32 then none else consTo c (scanString cs)
  | [] => none

/-- The digits of a whole number without a sign; no number starts with a zero but zero. -/
def scanNat : Text → Option (Text × Text)
  | '0' :: cs => some (['0'], cs)
  | cs =>
    if (cs.takeWhile Char.isDigit).isEmpty then none
    else some (cs.takeWhile Char.isDigit, cs.dropWhile Char.isDigit)

/-- What follows the whole part of a number: a fraction. -/
def scanFraction : Text → Text × Text
  | '.' :: cs =>
    if (cs.takeWhile Char.isDigit).isEmpty then ([], '.' :: cs)
    else ('.' :: cs.takeWhile Char.isDigit, cs.dropWhile Char.isDigit)
  | cs => ([], cs)

/-- The sign of an exponent. -/
def scanSign : Text → Text × Text
  | '+' :: cs => (['+'], cs)
  | '-' :: cs => (['-'], cs)
  | cs => ([], cs)

/-- What follows the whole part and the fraction of a number: an exponent. -/
def scanExponent : Text → Text × Text
  | [] => ([], [])
  | e :: cs =>
    let (sign, ds) := scanSign cs
    if (e = 'e' ∨ e = 'E') ∧ !(ds.takeWhile Char.isDigit).isEmpty then
      (e :: (sign ++ ds.takeWhile Char.isDigit), ds.dropWhile Char.isDigit)
    else ([], e :: cs)

def scanUnsigned (sign : Text) (cs : Text) : Option (Value × Text) := do
  let (whole, cs) ← scanNat cs
  let (fraction, cs) := scanFraction cs
  let (exponent, cs) := scanExponent cs
  if fraction.isEmpty && exponent.isEmpty then
    let n : ℤ := Nat.ofDigitChars 10 whole 0
    return (.int (if sign.isEmpty then n else -n), cs)
  else
    return (.real (sign ++ whole ++ fraction ++ exponent), cs)

def scanNumber : Text → Option (Value × Text)
  | '-' :: cs => scanUnsigned ['-'] cs
  | cs => scanUnsigned [] cs

/-- The text is a number with a fraction or an exponent. -/
def isRealToken (t : Text) : Bool :=
  match scanNumber t with
  | some (.real token, []) => token = t
  | _ => false

/-- The number, when it is written as it is and not as a whole number, can be read. -/
def Value.isReadable : Value → Bool
  | .real token => isRealToken token
  | _ => true

/-- The words that stand for values. -/
def keywords : List (Text × Value) := [
  (['n', 'u', 'l', 'l'], .null),
  (['t', 'r', 'u', 'e'], .bool true),
  (['f', 'a', 'l', 's', 'e'], .bool false),
  (['N', 'a', 'N'], .real ['N', 'a', 'N']),
  (['I', 'n', 'f', 'i', 'n', 'i', 't', 'y'], .real ['I', 'n', 'f', 'i', 'n', 'i', 't', 'y']),
  (['-', 'I', 'n', 'f', 'i', 'n', 'i', 't', 'y'],
    .real ['-', 'I', 'n', 'f', 'i', 'n', 'i', 't', 'y'])]

def scanKeyword (cs : Text) : Option (Value × Text) :=
  keywords.findSome? fun k => if k.1.isPrefixOf cs then some (k.2, cs.drop k.1.length) else none

mutual

/-- A value at the start of a text, and what follows it. -/
def scanValue : ℕ → Text → Option (Value × Text)
  | fuel + 1, c :: cs =>
    if c = '"' then (scanString cs).map fun r => (.str r.1, r.2)
    else if c = '[' then
      if (skip cs).head? = some ']' then some (.arr [], (skip cs).tail)
      else (scanItems fuel (skip cs)).map fun r => (.arr r.1, r.2)
    else if c = '{' then
      if (skip cs).head? = some '}' then some (.obj [], (skip cs).tail)
      else (scanFields fuel (skip cs)).map fun r => (.obj r.1, r.2)
    else scanKeyword (c :: cs) <|> scanNumber (c :: cs)
  | _, _ => none

/-- The items of an array from one on. -/
def scanItems : ℕ → Text → Option (List Value × Text)
  | 0, _ => none
  | fuel + 1, cs => do
    let (v, cs) ← scanValue fuel cs
    match skip cs with
    | ']' :: cs => return ([v], cs)
    | ',' :: cs => do
      let (vs, cs) ← scanItems fuel (skip cs)
      return (v :: vs, cs)
    | _ => none

/-- The members of an object from one on. -/
def scanFields : ℕ → Text → Option (List (Text × Value) × Text)
  | fuel + 1, '"' :: cs => do
    let (k, cs) ← scanString cs
    match skip cs with
    | ':' :: cs => do
      let (v, cs) ← scanValue fuel (skip cs)
      match skip cs with
      | '}' :: cs => return ([(k, v)], cs)
      | ',' :: cs => do
        let (fs, cs) ← scanFields fuel (skip cs)
        return ((k, v) :: fs, cs)
      | _ => none
    | _ => none
  | _, _ => none

end

/-- The value of a text. -/
def loads (t : Text) : Option Value := do
  let (v, rest) ← scanValue (t.length + 1) (skip t)
  if (skip rest).isEmpty then return v else none

/-! ## What was written is read back -/

/-- Nothing that continues a number. -/
def Stops (t : Text) : Prop :=
  ∀ c ∈ t.head?, c.isDigit = false ∧ c ≠ '.' ∧ c ≠ 'e' ∧ c ≠ 'E'

lemma stops_nil : Stops [] := fun _ h => nomatch h

lemma stops_cons {c : Char} {cs : Text}
    (h : c.isDigit = false ∧ c ≠ '.' ∧ c ≠ 'e' ∧ c ≠ 'E') : Stops (c :: cs) := by
  intro d hd
  obtain rfl := Option.some.inj hd
  exact h

lemma hexValue_digitChar {n : ℕ} (h : n < 16) : hexValue (Nat.digitChar n) = some n := by
  interval_cases n <;> rfl

lemma scanString_escape (c : Char) (cs : Text) :
    scanString (escape c ++ cs) = consTo c (scanString cs) := by
  unfold escape
  split_ifs with h₁ h₂ h₃ h₄ h₅ h₆ h₇ h₈
  · subst h₁; simp [scanString, unescape]
  · subst h₂; simp [scanString, unescape]
  · subst h₃; simp [scanString, unescape]
  · subst h₄; simp [scanString, unescape]
  · subst h₅; simp [scanString, unescape]
  · subst h₆; simp [scanString, unescape]
  · subst h₇; simp [scanString, unescape]
  · have hfour : hexFour '0' '0' (Nat.digitChar (c.toNat / 16)) (Nat.digitChar (c.toNat % 16)) =
        some c.toNat := by
      have hzero : hexValue '0' = some 0 := rfl
      have hvalue : ((0 * 16 + 0) * 16 + c.toNat / 16) * 16 + c.toNat % 16 = c.toNat := by omega
      unfold hexFour
      rw [hzero, hexValue_digitChar (by omega), hexValue_digitChar (by omega)]
      exact congrArg some hvalue
    have hhigh : isHighSurrogate c.toNat = false := by
      simp only [isHighSurrogate, Bool.and_eq_false_iff, decide_eq_false_iff_not]
      omega
    have hlow : isLowSurrogate c.toNat = false := by
      simp only [isLowSurrogate, Bool.and_eq_false_iff, decide_eq_false_iff_not]
      omega
    show scanString ('\\' :: 'u' :: '0' :: '0' :: _ :: _ :: cs) = _
    rw [scanString, hfour]
    simp only [hhigh, hlow, Char.ofNat_toNat, Bool.false_eq_true, if_false]
  · rw [List.cons_append, List.nil_append, scanString]
    · rw [if_neg (by simp [h₂, h₈])]
    all_goals simp_all

lemma scanString_escaped (s rest : Text) :
    scanString (s.flatMap escape ++ '"' :: rest) = some (s, rest) := by
  induction s with
  | nil => rfl
  | cons c s ih =>
    rw [List.flatMap_cons, List.append_assoc, scanString_escape, ih]
    rfl

/-- A whole number that is not zero does not start with a zero. -/
lemma head_toDigits {n : ℕ} (h : 0 < n) :
    ∃ c cs, Nat.toDigits 10 n = c :: cs ∧ c ≠ '0' ∧ c.isDigit = true := by
  induction n using Nat.strongRecOn with
  | _ n ih =>
    by_cases hlt : n < 10
    · refine ⟨Nat.digitChar n, [], Nat.toDigits_of_lt_base hlt, ?_, ?_⟩ <;>
        interval_cases n <;> decide
    · obtain ⟨c, cs, hdigits, hc⟩ := ih (n / 10) (by omega) (by omega)
      refine ⟨c, cs ++ [Nat.digitChar (n % 10)], ?_, hc⟩
      rw [Nat.toDigits_of_base_le (by norm_num) (by omega), hdigits, List.cons_append]

lemma isDigit_toDigits (n : ℕ) : ∀ c ∈ Nat.toDigits 10 n, c.isDigit = true :=
  fun _ hc => Nat.isDigit_of_mem_toDigits (by norm_num) (by norm_num) hc

lemma takeWhile_stops {t : Text} (h : Stops t) :
    t.takeWhile Char.isDigit = [] ∧ t.dropWhile Char.isDigit = t := by
  cases t with
  | nil => exact ⟨rfl, rfl⟩
  | cons c cs =>
    have hc := (h c rfl).1
    simp [hc]

lemma scanNat_toDigits (n : ℕ) {rest : Text} (h : Stops rest) :
    scanNat (Nat.toDigits 10 n ++ rest) = some (Nat.toDigits 10 n, rest) := by
  rcases Nat.eq_zero_or_pos n with rfl | hpos
  · rfl
  · obtain ⟨c, cs, hdigits, hc, -⟩ := head_toDigits hpos
    have hall := isDigit_toDigits n
    obtain ⟨hnone, hrest⟩ := takeWhile_stops h
    have htake : (Nat.toDigits 10 n ++ rest).takeWhile Char.isDigit = Nat.toDigits 10 n := by
      rw [List.takeWhile_append_of_pos hall, hnone, List.append_nil]
    have hdrop : (Nat.toDigits 10 n ++ rest).dropWhile Char.isDigit = rest := by
      rw [List.dropWhile_append_of_pos hall, hrest]
    rw [hdigits] at htake hdrop ⊢
    rw [scanNat, htake, hdrop]
    · rfl
    · rintro cs' hcs'
      exact hc (List.cons.inj hcs').1

lemma scanFraction_stops {t : Text} (h : Stops t) : scanFraction t = ([], t) := by
  unfold scanFraction
  split
  · exact absurd rfl (h _ rfl).2.1
  · rfl

lemma scanExponent_stops {t : Text} (h : Stops t) : scanExponent t = ([], t) := by
  cases t with
  | nil => rfl
  | cons c cs =>
    obtain ⟨-, -, he, hE⟩ := h c rfl
    simp [scanExponent, he, hE]

lemma scanUnsigned_toDigits (sign : Text) (n : ℕ) {rest : Text} (h : Stops rest) :
    scanUnsigned sign (Nat.toDigits 10 n ++ rest) =
      some (.int (if sign.isEmpty then n else -n), rest) := by
  simp [scanUnsigned, scanNat_toDigits n h, scanFraction_stops h, scanExponent_stops h,
    Nat.ofDigitChars_ten_toDigits]

lemma scanNumber_renderInt (n : ℤ) {rest : Text} (h : Stops rest) :
    scanNumber (renderInt n ++ rest) = some (.int n, rest) := by
  unfold renderInt
  split
  · rename_i hneg
    rw [List.cons_append, scanNumber, scanUnsigned_toDigits _ _ h]
    simp only [List.isEmpty_cons, Bool.false_eq_true, if_false]
    congr 3
    omega
  · rename_i hnot
    have hhead : ∃ c cs, Nat.toDigits 10 n.natAbs = c :: cs ∧ c ≠ '-' := by
      cases hdigits : Nat.toDigits 10 n.natAbs with
      | nil => exact absurd hdigits Nat.toDigits_ne_nil
      | cons c cs =>
        have hc := isDigit_toDigits n.natAbs c (by rw [hdigits]; exact List.mem_cons_self)
        refine ⟨c, cs, rfl, ?_⟩
        rintro rfl
        exact absurd hc (by decide)
    obtain ⟨c, cs, hdigits, hc⟩ := hhead
    have hscan := scanUnsigned_toDigits [] n.natAbs h
    rw [hdigits] at hscan ⊢
    rw [scanNumber, hscan]
    · simp only [List.isEmpty_nil, if_true]
      congr 3
      omega
    · rintro cs' hcs'
      exact hc (List.cons.inj hcs').1

lemma takeWhile_append_stops (cs : Text) {rest : Text} (h : Stops rest) :
    (cs ++ rest).takeWhile Char.isDigit = cs.takeWhile Char.isDigit ∧
      (cs ++ rest).dropWhile Char.isDigit = cs.dropWhile Char.isDigit ++ rest := by
  induction cs with
  | nil => exact takeWhile_stops h
  | cons c cs ih => by_cases hc : c.isDigit <;> simp [hc, ih]

lemma scanNat_append {cs digits left rest : Text} (h : Stops rest)
    (hscan : scanNat cs = some (digits, left)) :
    scanNat (cs ++ rest) = some (digits, left ++ rest) := by
  obtain ⟨htake, hdrop⟩ := takeWhile_append_stops cs h
  match cs with
  | [] => exact nomatch hscan
  | c :: cs =>
    by_cases hc : c = '0'
    · subst hc
      obtain ⟨rfl, rfl⟩ := Prod.mk.inj (Option.some.inj hscan)
      simp [scanNat]
    · have hne : ∀ ds, c :: cs = '0' :: ds → False := fun ds hds => hc (List.cons.inj hds).1
      have hne' : ∀ ds, c :: (cs ++ rest) = '0' :: ds → False :=
        fun ds hds => hc (List.cons.inj hds).1
      rw [scanNat] at hscan
      · rw [List.cons_append, scanNat]
        · rw [← List.cons_append, htake, hdrop]
          split at hscan
          · exact nomatch hscan
          · rename_i hsome
            obtain ⟨rfl, rfl⟩ := Prod.mk.inj (Option.some.inj hscan)
            rw [if_neg hsome]
        · exact hne'
      · exact hne

lemma scanFraction_append (cs : Text) {rest : Text} (h : Stops rest) :
    scanFraction (cs ++ rest) = ((scanFraction cs).1, (scanFraction cs).2 ++ rest) := by
  match cs with
  | [] => exact scanFraction_stops h
  | c :: cs =>
    by_cases hc : c = '.'
    · subst hc
      obtain ⟨htake, hdrop⟩ := takeWhile_append_stops cs h
      simp only [List.cons_append, scanFraction, htake, hdrop]
      split <;> simp
    · rw [List.cons_append, scanFraction, scanFraction]
      · simp
      · exact fun ds hds => hc (List.cons.inj hds).1
      · exact fun ds hds => hc (List.cons.inj hds).1

/-- An exponent that is scanned to the end. -/
lemma scanExponent_append {cs exponent rest : Text} (h : Stops rest)
    (hscan : scanExponent cs = (exponent, [])) :
    scanExponent (cs ++ rest) = (exponent, rest) := by
  match cs with
  | [] =>
    obtain ⟨rfl, -⟩ := Prod.mk.inj hscan
    exact scanExponent_stops h
  | e :: cs =>
    have hsign : cs ≠ [] → scanSign (cs ++ rest) = ((scanSign cs).1, (scanSign cs).2 ++ rest) := by
      intro hne
      obtain ⟨c, cs, rfl⟩ := List.exists_cons_of_ne_nil hne
      by_cases hplus : c = '+'
      · subst hplus
        simp [scanSign]
      · by_cases hminus : c = '-'
        · subst hminus
          simp [scanSign]
        · simp [scanSign, hplus, hminus]
    simp only [scanExponent] at hscan
    split at hscan
    · rename_i hok
      obtain ⟨rfl, hleft⟩ := Prod.mk.inj hscan
      have hne : cs ≠ [] := by
        rintro rfl
        simp [scanSign] at hok
      obtain ⟨htake, hdrop⟩ := takeWhile_append_stops (scanSign cs).2 h
      simp only [List.cons_append, scanExponent, hsign hne, htake, hdrop, hleft, List.nil_append]
      rw [if_pos hok]
    · exact nomatch (Prod.mk.inj hscan).2

lemma scanUnsigned_append {sign cs token rest : Text} (h : Stops rest)
    (hscan : scanUnsigned sign cs = some (.real token, [])) :
    scanUnsigned sign (cs ++ rest) = some (.real token, rest) := by
  unfold scanUnsigned at hscan ⊢
  simp only [Option.bind_eq_bind] at hscan ⊢
  obtain ⟨⟨whole, left⟩, hwhole, hscan⟩ := Option.bind_eq_some_iff.mp hscan
  rw [scanNat_append h hwhole, Option.bind_some]
  simp only at hscan ⊢
  rw [scanFraction_append left h]
  split at hscan
  · exact nomatch (Prod.mk.inj (Option.some.inj hscan)).1
  · rename_i hreal
    obtain ⟨htoken, hleft⟩ := Prod.mk.inj (Option.some.inj hscan)
    rw [scanExponent_append h (Prod.ext rfl hleft)]
    rw [if_neg hreal]
    exact congrArg some (Prod.ext htoken rfl)

/-- How a number begins. -/
def StartsNumber (t : Text) : Prop :=
  ∃ c cs, t = c :: cs ∧ (c.isDigit = true ∨ c = '-' ∧ ∃ d ds, cs = d :: ds ∧ d.isDigit = true)

lemma head_of_scanNat {cs : Text} {r : Text × Text} (h : scanNat cs = some r) :
    ∃ d ds, cs = d :: ds ∧ d.isDigit = true := by
  match cs with
  | [] => exact nomatch h
  | c :: cs =>
    by_cases hc : c.isDigit = true
    · exact ⟨c, cs, rfl, hc⟩
    · rw [scanNat] at h
      · simp [hc] at h
      · rintro ds hds
        rw [(List.cons.inj hds).1] at hc
        exact hc (by decide)

lemma startsNumber_of_scanNumber {t : Text} {r : Value × Text} (h : scanNumber t = some r) :
    StartsNumber t := by
  match t with
  | [] => exact nomatch h
  | c :: cs =>
    by_cases hc : c = '-'
    · subst hc
      simp only [scanNumber, scanUnsigned, Option.bind_eq_bind] at h
      obtain ⟨scanned, hscan, -⟩ := Option.bind_eq_some_iff.mp h
      obtain ⟨d, ds, hds⟩ := head_of_scanNat hscan
      exact ⟨'-', cs, rfl, .inr ⟨rfl, d, ds, hds⟩⟩
    · rw [scanNumber] at h
      · simp only [scanUnsigned, Option.bind_eq_bind] at h
        obtain ⟨scanned, hscan, -⟩ := Option.bind_eq_some_iff.mp h
        obtain ⟨d, ds, hds, hd⟩ := head_of_scanNat hscan
        exact ⟨d, ds, hds, .inl hd⟩
      · exact fun ds hds => hc (List.cons.inj hds).1

lemma scanNumber_of_isRealToken {t rest : Text} (h : isRealToken t = true) (hrest : Stops rest) :
    scanNumber (t ++ rest) = some (.real t, rest) := by
  have hscan : scanNumber t = some (.real t, []) := by
    unfold isRealToken at h
    split at h
    · rename_i token hscan
      rw [hscan, of_decide_eq_true h]
    · exact nomatch h
  obtain ⟨c, cs, rfl, -⟩ := startsNumber_of_scanNumber hscan
  by_cases hc : c = '-'
  · subst hc
    rw [List.cons_append, scanNumber]
    exact scanUnsigned_append hrest hscan
  · rw [scanNumber] at hscan
    · rw [List.cons_append, scanNumber]
      · exact scanUnsigned_append hrest hscan
      · exact fun ds hds => hc (List.cons.inj hds).1
    · exact fun ds hds => hc (List.cons.inj hds).1

/-- How the text of a whole number begins. -/
lemma head_renderInt (n : ℤ) : StartsNumber (renderInt n) := by
  have hdigits : ∃ c cs, Nat.toDigits 10 n.natAbs = c :: cs ∧ c.isDigit = true := by
    cases h : Nat.toDigits 10 n.natAbs with
    | nil => exact absurd h Nat.toDigits_ne_nil
    | cons c cs => exact ⟨c, cs, rfl, isDigit_toDigits _ c (by rw [h]; exact List.mem_cons_self)⟩
  obtain ⟨c, cs, h, hc⟩ := hdigits
  unfold renderInt
  rw [h]
  split
  · exact ⟨'-', c :: cs, rfl, .inr ⟨rfl, c, cs, rfl, hc⟩⟩
  · exact ⟨c, cs, rfl, .inl hc⟩

lemma scanKeyword_of_startsNumber {t : Text} (h : StartsNumber t) (rest : Text) :
    scanKeyword (t ++ rest) = none := by
  obtain ⟨c, cs, rfl, hc⟩ := h
  rw [List.cons_append]
  rcases hc with hc | ⟨rfl, d, ds, rfl, hd⟩
  · have hno : ∀ a : Char, a.isDigit = false → a ≠ c := by
      rintro a ha rfl
      exact absurd hc (by rw [ha]; exact Bool.false_ne_true)
    simp [scanKeyword, keywords, hno 'n' rfl, hno 't' rfl, hno 'f' rfl, hno 'N' rfl, hno 'I' rfl,
      hno '-' rfl]
  · have hno : 'I' ≠ d := by
      rintro rfl
      exact absurd hd (by decide)
    simp [scanKeyword, keywords, hno]

lemma startsNumber_of_isRealToken {t : Text} (h : isRealToken t = true) : StartsNumber t := by
  have hscan := scanNumber_of_isRealToken h stops_nil
  rw [List.append_nil] at hscan
  exact startsNumber_of_scanNumber hscan

/-- The first character of a number is none of those around it. -/
lemma head_of_startsNumber {t : Text} (h : StartsNumber t) :
    ∃ c cs, t = c :: cs ∧ isSpace c = false ∧ c ≠ ']' ∧ c ≠ '"' ∧ c ≠ '[' ∧ c ≠ '{' := by
  obtain ⟨c, cs, rfl, hc⟩ := h
  have hne : ∀ a : Char, a.isDigit = false → a ≠ '-' → c ≠ a := by
    rintro a ha hminus rfl
    rcases hc with hc | ⟨hc, -⟩
    · exact absurd hc (by rw [ha]; exact Bool.false_ne_true)
    · exact hminus hc
  have hspace : isSpace c = false := by
    have h₁ := hne ' ' rfl (by decide)
    have h₂ := hne '\t' rfl (by decide)
    have h₃ := hne '\n' rfl (by decide)
    have h₄ := hne '\r' rfl (by decide)
    simp [isSpace, h₁, h₂, h₃, h₄]
  exact ⟨c, cs, rfl, hspace, hne ']' rfl (by decide), hne '"' rfl (by decide),
    hne '[' rfl (by decide), hne '{' rfl (by decide)⟩

/-- How the text of a value begins. -/
lemma head_render {v : Value} (h : v.all Value.isReadable = true) :
    ∃ c cs, render v = c :: cs ∧ isSpace c = false ∧ c ≠ ']' := by
  have hnumber : ∀ {t : Text}, StartsNumber t →
      ∃ c cs, t = c :: cs ∧ isSpace c = false ∧ c ≠ ']' := by
    intro t ht
    obtain ⟨c, cs, hcs, hspace, hend, -⟩ := head_of_startsNumber ht
    exact ⟨c, cs, hcs, hspace, hend⟩
  cases v with
  | null => exact ⟨_, _, rfl, rfl, by decide⟩
  | bool b => cases b <;> exact ⟨_, _, rfl, rfl, by decide⟩
  | int n => exact hnumber (head_renderInt n)
  | real token => exact hnumber (startsNumber_of_isRealToken h)
  | str s => exact ⟨_, _, rfl, rfl, by decide⟩
  | arr items => cases items <;> exact ⟨_, _, rfl, rfl, by decide⟩
  | obj fields => rcases fields with _ | ⟨⟨k, v⟩, fs⟩ <;> exact ⟨_, _, rfl, rfl, by decide⟩

lemma skip_render {v : Value} (h : v.all Value.isReadable = true) (rest : Text) :
    skip (render v ++ rest) = render v ++ rest := by
  obtain ⟨c, cs, hrender, hc, -⟩ := head_render h
  rw [hrender, List.cons_append, skip, List.dropWhile_cons_of_neg (by simp [hc])]

lemma stops_renderItems (vs : List Value) (rest : Text) : Stops (renderItems vs ++ rest) := by
  cases vs <;> exact stops_cons (by decide)

lemma stops_renderFields (fs : List (Text × Value)) (rest : Text) :
    Stops (renderFields fs ++ rest) := by
  rcases fs with _ | ⟨⟨k, v⟩, fs⟩ <;> exact stops_cons (by decide)

/-- What reading back a value means: with enough fuel, and nothing behind it that could belong to
it. -/
def ReadsBack (v : Value) : Prop :=
  ∀ fuel rest, (render v).length < fuel → Stops rest →
    scanValue fuel (render v ++ rest) = some (v, rest)

lemma scanItems_render {v : Value} {vs : List Value}
    (hexact : ∀ w ∈ v :: vs, w.all Value.isReadable = true) (h : ∀ w ∈ v :: vs, ReadsBack w)
    {n : ℕ} (rest : Text) (hn : (render v).length + (renderItems vs).length < n) :
    scanItems n (render v ++ (renderItems vs ++ rest)) = some (v :: vs, rest) := by
  induction vs generalizing v n with
  | nil =>
    obtain ⟨n, rfl⟩ := Nat.exists_eq_succ_of_ne_zero (Nat.ne_zero_of_lt hn)
    have hv := h v List.mem_cons_self n (renderItems [] ++ rest) (by
      simp only [renderItems, List.length_cons, List.length_nil] at hn
      omega) (stops_renderItems [] rest)
    rw [scanItems, hv]
    rfl
  | cons w ws ih =>
    obtain ⟨n, rfl⟩ := Nat.exists_eq_succ_of_ne_zero (Nat.ne_zero_of_lt hn)
    simp only [renderItems, List.length_cons, List.length_append] at hn
    have hv := h v List.mem_cons_self n (renderItems (w :: ws) ++ rest) (by omega)
      (stops_renderItems _ rest)
    have hws := ih (v := w) (fun x hx => hexact x (List.mem_cons_of_mem v hx))
      (fun x hx => h x (List.mem_cons_of_mem v hx)) (n := n) (by omega)
    have hskip := skip_render (hexact w (List.mem_cons_of_mem v List.mem_cons_self))
      (renderItems ws ++ rest)
    have hcomma : skip (renderItems (w :: ws) ++ rest) =
        ',' :: (render w ++ (renderItems ws ++ rest)) := by
      rw [renderItems, List.cons_append, List.append_assoc]
      rfl
    rw [scanItems, hv]
    simp only [Option.bind_eq_bind, Option.bind_some, hcomma, hskip, hws]
    rfl

lemma scanFields_render {k : Text} {v : Value} {fs : List (Text × Value)}
    (hexact : ∀ f ∈ (k, v) :: fs, f.2.all Value.isReadable = true)
    (h : ∀ f ∈ (k, v) :: fs, ReadsBack f.2) {n : ℕ} (rest : Text)
    (hn : (renderString k).length + (render v).length + (renderFields fs).length < n) :
    scanFields n (renderString k ++ ':' :: (render v ++ (renderFields fs ++ rest))) =
      some ((k, v) :: fs, rest) := by
  induction fs generalizing k v n with
  | nil =>
    obtain ⟨n, rfl⟩ := Nat.exists_eq_succ_of_ne_zero (Nat.ne_zero_of_lt hn)
    have hv := h (k, v) List.mem_cons_self n (renderFields [] ++ rest) (by
      simp only [renderFields, List.length_cons, List.length_nil] at hn
      show (render v).length < n
      omega) (stops_renderFields [] rest)
    have hk := scanString_escaped k (':' :: (render v ++ (renderFields [] ++ rest)))
    have hskip := skip_render (hexact (k, v) List.mem_cons_self) (renderFields [] ++ rest)
    have hcolon (t : Text) : skip (':' :: t) = ':' :: t := rfl
    rw [renderString, List.cons_append, List.append_assoc, List.singleton_append, scanFields, hk]
    simp only [Option.bind_eq_bind, Option.bind_some, hcolon, hskip, hv]
    rfl
  | cons f fs ih =>
    obtain ⟨l, w⟩ := f
    obtain ⟨n, rfl⟩ := Nat.exists_eq_succ_of_ne_zero (Nat.ne_zero_of_lt hn)
    simp only [renderFields, List.length_cons, List.length_append] at hn
    have hv := h (k, v) List.mem_cons_self n (renderFields ((l, w) :: fs) ++ rest) (by
      show (render v).length < n
      omega) (stops_renderFields _ rest)
    have hfs := ih (k := l) (v := w) (fun x hx => hexact x (List.mem_cons_of_mem _ hx))
      (fun x hx => h x (List.mem_cons_of_mem _ hx)) (n := n) (by omega)
    have hk := scanString_escaped k (':' :: (render v ++ (renderFields ((l, w) :: fs) ++ rest)))
    have hskip := skip_render (hexact (k, v) List.mem_cons_self)
      (renderFields ((l, w) :: fs) ++ rest)
    have hcolon (t : Text) : skip (':' :: t) = ':' :: t := rfl
    have hcomma : skip (renderFields ((l, w) :: fs) ++ rest) =
        ',' :: (renderString l ++ ':' :: (render w ++ (renderFields fs ++ rest))) := by
      simp only [renderFields, List.cons_append, List.append_assoc]
      rfl
    have hquote : skip (renderString l ++ ':' :: (render w ++ (renderFields fs ++ rest))) =
        renderString l ++ ':' :: (render w ++ (renderFields fs ++ rest)) := rfl
    rw [renderString, List.cons_append, List.append_assoc, List.singleton_append, scanFields, hk]
    simp only [Option.bind_eq_bind, Option.bind_some, hcolon, hskip, hv, hcomma, hquote, hfs]
    rfl

/-- A number is scanned as such. -/
lemma scanValue_number {fuel : ℕ} {t rest : Text} {v : Value} (hfuel : t.length < fuel)
    (hstart : StartsNumber t) (hscan : scanNumber (t ++ rest) = some (v, rest)) :
    scanValue fuel (t ++ rest) = some (v, rest) := by
  obtain ⟨fuel, rfl⟩ := Nat.exists_eq_succ_of_ne_zero (Nat.ne_zero_of_lt hfuel)
  have hkeyword := scanKeyword_of_startsNumber hstart rest
  obtain ⟨c, cs, rfl, -, -, hquote, hbracket, hbrace⟩ := head_of_startsNumber hstart
  rw [List.cons_append] at hscan hkeyword ⊢
  rw [scanValue, if_neg hquote, if_neg hbracket, if_neg hbrace, hkeyword, hscan]
  rfl

/-- The text of a value is read back. -/
theorem scanValue_render (v : Value) (h : v.all Value.isReadable = true) : ReadsBack v := by
  induction v using Value.induction with
  | null =>
    intro fuel rest hfuel _
    obtain ⟨fuel, rfl⟩ := Nat.exists_eq_succ_of_ne_zero (Nat.ne_zero_of_lt hfuel)
    rfl
  | bool b =>
    intro fuel rest hfuel _
    obtain ⟨fuel, rfl⟩ := Nat.exists_eq_succ_of_ne_zero (Nat.ne_zero_of_lt hfuel)
    cases b <;> rfl
  | int n =>
    intro fuel rest hfuel hstops
    exact scanValue_number hfuel (head_renderInt n) (scanNumber_renderInt n hstops)
  | real token =>
    intro fuel rest hfuel hstops
    exact scanValue_number hfuel (startsNumber_of_isRealToken h)
      (scanNumber_of_isRealToken h hstops)
  | str s =>
    intro fuel rest hfuel _
    obtain ⟨fuel, rfl⟩ := Nat.exists_eq_succ_of_ne_zero (Nat.ne_zero_of_lt hfuel)
    rw [render, renderString, List.cons_append, List.append_assoc, List.singleton_append,
      scanValue, if_pos rfl, scanString_escaped]
    rfl
  | arr items ih =>
    intro fuel rest hfuel _
    obtain ⟨fuel, rfl⟩ := Nat.exists_eq_succ_of_ne_zero (Nat.ne_zero_of_lt hfuel)
    cases items with
    | nil => rfl
    | cons v vs =>
      have hexact := (all_arr.mp h).2
      simp only [render, List.length_cons, List.length_append] at hfuel
      have hitems := scanItems_render hexact (fun w hw => ih w hw (hexact w hw))
        (n := fuel) rest (by omega)
      have hv := hexact v List.mem_cons_self
      obtain ⟨c, cs, hrender, -, hc⟩ := head_render hv
      have hskip := skip_render hv (renderItems vs ++ rest)
      have hhead : (skip (render v ++ (renderItems vs ++ rest))).head? ≠ some ']' := by
        rw [hskip, hrender, List.cons_append, List.head?_cons]
        exact fun h => hc (Option.some.inj h)
      rw [render, List.cons_append, List.append_assoc, scanValue, if_neg (by decide),
        if_pos rfl, if_neg hhead, hskip, hitems]
      rfl
  | obj fields ih =>
    intro fuel rest hfuel _
    obtain ⟨fuel, rfl⟩ := Nat.exists_eq_succ_of_ne_zero (Nat.ne_zero_of_lt hfuel)
    rcases fields with _ | ⟨⟨k, v⟩, fs⟩
    · rfl
    · have hexact := (all_obj.mp h).2
      simp only [render, List.length_cons, List.length_append] at hfuel
      have hfields := scanFields_render hexact (fun f hf => ih f hf (hexact f hf))
        (n := fuel) rest (by omega)
      have hskip : skip (renderString k ++ ':' :: (render v ++ (renderFields fs ++ rest))) =
          renderString k ++ ':' :: (render v ++ (renderFields fs ++ rest)) := rfl
      have hhead : (renderString k ++ ':' :: (render v ++ (renderFields fs ++ rest))).head? ≠
          some '}' := by
        show some '"' ≠ some '}'
        decide
      have htext : render (.obj ((k, v) :: fs)) ++ rest =
          '{' :: (renderString k ++ ':' :: (render v ++ (renderFields fs ++ rest))) := by
        simp only [render, List.cons_append, List.append_assoc]
      rw [htext, scanValue, if_neg (by decide), if_neg (by decide), if_pos rfl, hskip,
        if_neg hhead, hfields]
      rfl

/-- The text of a value is read as the value, with white space behind it. -/
theorem loads_render_append {v : Value} (h : v.all Value.isReadable = true) {space : Text}
    (hspace : ∀ c ∈ space, isSpace c = true) : loads (render v ++ space) = some v := by
  have hstops : Stops space := by
    intro c hc
    have hmem := hspace c (List.mem_of_head? hc)
    simp only [isSpace, Bool.or_eq_true, decide_eq_true_eq] at hmem
    rcases hmem with ((rfl | rfl) | rfl) | rfl <;> decide
  have hskip := skip_render h space
  have hscan := scanValue_render v h ((render v ++ space).length + 1) space (by
    rw [List.length_append]
    omega) hstops
  have hrest : skip space = [] := List.dropWhile_eq_nil_iff.mpr hspace
  unfold loads
  rw [hskip, hscan]
  simp only [Option.bind_eq_bind, Option.bind_some, hrest]
  rfl

/-- The text of a value is read as the value. -/
theorem loads_render_of_readable {v : Value} (h : v.all Value.isReadable = true) :
    loads (render v) = some v := by
  have hloads : loads (render v ++ []) = some v :=
    loads_render_append h (fun _ hc => nomatch hc)
  rwa [List.append_nil] at hloads

/-! ## Members in order -/

lemma canonicalItems_eq_map (items : List Value) : canonicalItems items = items.map canonical := by
  induction items with
  | nil => rfl
  | cons v vs ih => rw [canonicalItems, ih, List.map_cons]

lemma canonicalFields_eq_map (fields : List (Text × Value)) :
    canonicalFields fields = fields.map fun f => (f.1, canonical f.2) := by
  induction fields with
  | nil => rfl
  | cons f fs ih => rw [canonicalFields, ih, List.map_cons]

/-- Names are compared in a total order. -/
instance isTotalFieldOrder : Std.Total fun f g : Text × Value => f.1 ≤ g.1 :=
  ⟨fun f g => le_total f.1 g.1⟩

instance isTransFieldOrder : IsTrans (Text × Value) fun f g => f.1 ≤ g.1 :=
  ⟨fun _ _ _ h h' => le_trans h h'⟩

lemma perm_sortFields (fields : List (Text × Value)) : (sortFields fields).Perm fields :=
  List.perm_insertionSort _ fields

lemma sortFields_sortFields (fields : List (Text × Value)) :
    sortFields (sortFields fields) = sortFields fields :=
  (List.pairwise_insertionSort _ fields).insertionSort_eq

theorem canonical_canonical (v : Value) : canonical (canonical v) = canonical v := by
  induction v using Value.induction with
  | arr items ih =>
    rw [canonical, canonical, canonicalItems_eq_map, canonicalItems_eq_map, List.map_map]
    exact congrArg Value.arr (List.map_congr_left ih)
  | obj fields ih =>
    rw [canonical, canonical]
    have hsame : canonicalFields (sortFields (canonicalFields fields)) =
        sortFields (canonicalFields fields) := by
      rw [canonicalFields_eq_map]
      refine (List.map_congr_left fun f hf => ?_).trans (List.map_id _)
      rw [canonicalFields_eq_map] at hf
      obtain ⟨g, hg, rfl⟩ := List.mem_map.mp ((perm_sortFields _).mem_iff.mp hf)
      exact Prod.ext rfl (ih g hg)
    rw [hsame, sortFields_sortFields]
  | _ => rfl

/-- Writing a value with its members in order changes nothing more. -/
lemma encode_canonical (v : Value) : encode (canonical v) = encode v := by
  unfold encode
  rw [canonical_canonical]

/-- A property that does not depend on the order of members. -/
lemma all_canonical {p : Value → Bool} (hp : ∀ v, p (canonical v) = p v) (v : Value) :
    (canonical v).all p = v.all p := by
  induction v using Value.induction with
  | arr items ih =>
    rw [Bool.eq_iff_iff, all_arr, ← hp (.arr items)]
    rw [canonical, all_arr, canonicalItems_eq_map]
    refine and_congr_right fun _ => ⟨fun h v hv => ?_, fun h w hw => ?_⟩
    · rw [← ih v hv]
      exact h _ (List.mem_map_of_mem hv)
    · obtain ⟨v, hv, rfl⟩ := List.mem_map.mp hw
      rw [ih v hv]
      exact h v hv
  | obj fields ih =>
    rw [Bool.eq_iff_iff, all_obj, ← hp (.obj fields)]
    rw [canonical, all_obj, canonicalFields_eq_map]
    refine and_congr_right fun _ => ⟨fun h f hf => ?_, fun h g hg => ?_⟩
    · rw [← ih f hf]
      exact h (f.1, canonical f.2) ((perm_sortFields _).mem_iff.mpr (List.mem_map_of_mem hf))
    · obtain ⟨f, hf, rfl⟩ := List.mem_map.mp ((perm_sortFields _).mem_iff.mp hg)
      show (canonical f.2).all p = true
      rw [ih f hf]
      exact h f hf
  | _ => exact hp _

lemma isReadable_canonical (v : Value) : (canonical v).isReadable = v.isReadable := by
  cases v <;> rfl

lemma all_isReadable_canonical (v : Value) :
    (canonical v).all Value.isReadable = v.all Value.isReadable :=
  all_canonical isReadable_canonical v

/-- Values without other numbers than whole ones can be read. -/
lemma all_isReadable_of_isExact {v : Value} (h : v.all Value.isExact = true) :
    v.all Value.isReadable = true := by
  induction v using Value.induction with
  | arr items ih =>
    obtain ⟨-, hitems⟩ := all_arr.mp h
    exact all_arr.mpr ⟨rfl, fun w hw => ih w hw (hitems w hw)⟩
  | obj fields ih =>
    obtain ⟨-, hfields⟩ := all_obj.mp h
    exact all_obj.mpr ⟨rfl, fun f hf => ih f hf (hfields f hf)⟩
  | real token => exact nomatch h
  | _ => rfl

/-- The text with members in order is read as the value with members in order. -/
theorem loads_encode_of_readable {v : Value} (h : v.all Value.isReadable = true) :
    loads (encode v) = some (canonical v) := by
  refine loads_render_of_readable ?_
  rw [all_isReadable_canonical]
  exact h

theorem loads_encode {v : Value} (h : v.all Value.isExact = true) :
    loads (encode v) = some (canonical v) :=
  loads_encode_of_readable (all_isReadable_of_isExact h)

/-! ## Members -/

/-- The value of a name; where the name is repeated, the last one. -/
def member (fields : List (Text × Value)) (k : Text) : Option Value :=
  (fields.reverse.find? fun f => f.1 = k).map Prod.snd

/-- No object repeats a name. -/
def Value.isPlain : Value → Bool
  | .obj fields => (fields.map Prod.fst).Nodup
  | _ => true

lemma member_eq_some_iff {fields : List (Text × Value)} (h : (fields.map Prod.fst).Nodup)
    {k : Text} {v : Value} : member fields k = some v ↔ (k, v) ∈ fields := by
  unfold member
  rw [Option.map_eq_some_iff]
  constructor
  · rintro ⟨f, hf, rfl⟩
    have hk := List.find?_some hf
    rw [decide_eq_true_eq] at hk
    rw [← hk]
    exact List.mem_reverse.mp (List.mem_of_find?_eq_some hf)
  · intro hmem
    have hsome : (fields.reverse.find? fun f => f.1 = k).isSome = true := by
      rw [List.find?_isSome]
      exact ⟨(k, v), List.mem_reverse.mpr hmem, by simp⟩
    obtain ⟨f, hf⟩ := Option.isSome_iff_exists.mp hsome
    refine ⟨f, hf, ?_⟩
    have hk := List.find?_some hf
    rw [decide_eq_true_eq] at hk
    have hmem' := List.mem_reverse.mp (List.mem_of_find?_eq_some hf)
    have hsame := List.inj_on_of_nodup_map h hmem' hmem hk
    rw [hsame]

lemma perm_names_canonical (fields : List (Text × Value)) :
    ((sortFields (canonicalFields fields)).map Prod.fst).Perm (fields.map Prod.fst) := by
  refine ((perm_sortFields _).map _).trans ?_
  rw [canonicalFields_eq_map, List.map_map]
  exact .refl _

/-- The members of an object are found whatever their order. -/
lemma member_canonical {fields : List (Text × Value)} (h : (fields.map Prod.fst).Nodup)
    (k : Text) : member (sortFields (canonicalFields fields)) k =
      (member fields k).map canonical := by
  have h' := (perm_names_canonical fields).nodup_iff.mpr h
  refine Option.ext fun w => ?_
  rw [member_eq_some_iff h', (perm_sortFields _).mem_iff, canonicalFields_eq_map, List.mem_map,
    Option.map_eq_some_iff]
  constructor
  · rintro ⟨f, hf, heq⟩
    obtain ⟨rfl, rfl⟩ := Prod.mk.inj heq
    exact ⟨f.2, (member_eq_some_iff h).mpr hf, rfl⟩
  · rintro ⟨v, hv, rfl⟩
    exact ⟨(k, v), (member_eq_some_iff h).mp hv, rfl⟩

lemma isPlain_canonical (v : Value) : (canonical v).isPlain = v.isPlain := by
  cases v with
  | obj fields =>
    rw [canonical, Value.isPlain, Value.isPlain, decide_eq_decide]
    exact (perm_names_canonical fields).nodup_iff
  | _ => rfl

/-! ## Lengths -/

lemma length_renderItems (items : List Value) : (renderItems items).length =
    1 + (items.map fun v => (render v).length + 1).sum := by
  induction items with
  | nil => rfl
  | cons v vs ih =>
    simp only [renderItems, List.length_cons, List.length_append, ih, List.map_cons, List.sum_cons]
    omega

lemma length_renderFields (fields : List (Text × Value)) : (renderFields fields).length =
    1 + (fields.map fun f => (renderString f.1).length + (render f.2).length + 2).sum := by
  induction fields with
  | nil => rfl
  | cons f fs ih =>
    simp only [renderFields, List.length_cons, List.length_append, ih, List.map_cons,
      List.sum_cons]
    omega

lemma length_render_arr (items : List Value) : (render (.arr items)).length =
    max 2 (1 + (items.map fun v => (render v).length + 1).sum) := by
  cases items with
  | nil => rfl
  | cons v vs =>
    simp only [render, List.length_cons, List.length_append, length_renderItems, List.map_cons,
      List.sum_cons]
    omega

lemma length_render_obj (fields : List (Text × Value)) : (render (.obj fields)).length =
    max 2 (1 + (fields.map fun f => (renderString f.1).length + (render f.2).length + 2).sum) := by
  rcases fields with _ | ⟨f, fs⟩
  · rfl
  · simp only [render, List.length_cons, List.length_append, length_renderFields, List.map_cons,
      List.sum_cons]
    omega

/-- The order of members does not change the length of a text. -/
lemma length_encode (v : Value) : (encode v).length = (render v).length := by
  unfold encode
  induction v using Value.induction with
  | arr items ih =>
    rw [canonical, length_render_arr, length_render_arr, canonicalItems_eq_map, List.map_map]
    refine congrArg (fun n => max 2 (1 + List.sum n)) (List.map_congr_left fun v hv => ?_)
    exact congrArg (· + 1) (ih v hv)
  | obj fields ih =>
    have hsum := ((perm_sortFields (canonicalFields fields)).map
      fun f => (renderString f.1).length + (render f.2).length + 2).sum_eq
    rw [canonical, length_render_obj, length_render_obj, hsum, canonicalFields_eq_map,
      List.map_map]
    refine congrArg (fun n => max 2 (1 + List.sum n)) (List.map_congr_left fun f hf => ?_)
    have hf' := ih f hf
    show _ + (render (canonical f.2)).length + 2 = _
    rw [hf']
  | _ => rfl

/-- A string without anything to escape. -/
lemma length_renderString {s : Text} (h : ∀ c ∈ s, escape c = [c]) :
    (renderString s).length = s.length + 2 := by
  have hflat : s.flatMap escape = s := by
    induction s with
    | nil => rfl
    | cons c s ih =>
      rw [List.flatMap_cons, h c List.mem_cons_self,
        ih fun d hd => h d (List.mem_cons_of_mem c hd), List.singleton_append]
  unfold renderString
  rw [hflat]
  simp

/-! ## The ends of a text -/

/-- A character of a number. -/
def IsNumberChar (c : Char) : Prop :=
  c.isDigit = true ∨ c = '-' ∨ c = '+' ∨ c = '.' ∨ c = 'e' ∨ c = 'E'

lemma isNumberChar_takeWhile (cs : Text) :
    ∀ c ∈ cs.takeWhile Char.isDigit, IsNumberChar c :=
  fun _ hc => .inl (List.mem_takeWhile_imp hc)

lemma isNumberChar_scanNat {cs digits left : Text} (h : scanNat cs = some (digits, left)) :
    ∀ c ∈ digits, IsNumberChar c := by
  unfold scanNat at h
  split at h
  · obtain ⟨rfl, -⟩ := Prod.mk.inj (Option.some.inj h)
    simp [IsNumberChar]
  · split at h
    · exact nomatch h
    · obtain ⟨rfl, -⟩ := Prod.mk.inj (Option.some.inj h)
      exact isNumberChar_takeWhile _

lemma isNumberChar_scanFraction (cs : Text) : ∀ c ∈ (scanFraction cs).1, IsNumberChar c := by
  unfold scanFraction
  split
  · split
    · exact fun c hc => nomatch hc
    · refine List.forall_mem_cons.mpr ⟨?_, isNumberChar_takeWhile _⟩
      simp [IsNumberChar]
  · exact fun c hc => nomatch hc

lemma isNumberChar_scanExponent (cs : Text) : ∀ c ∈ (scanExponent cs).1, IsNumberChar c := by
  cases cs with
  | nil => exact fun c hc => nomatch hc
  | cons e cs =>
    have hsign : ∀ c ∈ (scanSign cs).1, IsNumberChar c := by
      unfold scanSign
      split <;> simp [IsNumberChar]
    simp only [scanExponent]
    split
    · rename_i hok
      refine List.forall_mem_cons.mpr ⟨?_, fun c hc => ?_⟩
      · rcases hok.1 with rfl | rfl <;> simp [IsNumberChar]
      · rcases List.mem_append.mp hc with hc | hc
        · exact hsign c hc
        · exact isNumberChar_takeWhile _ c hc
    · exact fun c hc => nomatch hc

/-- A number is written with digits, signs, points and marks of an exponent. -/
lemma isNumberChar_of_isRealToken {t : Text} (h : isRealToken t = true) :
    ∀ c ∈ t, IsNumberChar c := by
  have hunsigned : ∀ {sign cs token left : Text}, (∀ c ∈ sign, IsNumberChar c) →
      scanUnsigned sign cs = some (.real token, left) → ∀ c ∈ token, IsNumberChar c := by
    intro sign cs token left hsign hscan
    unfold scanUnsigned at hscan
    simp only [Option.bind_eq_bind] at hscan
    obtain ⟨⟨whole, rest⟩, hwhole, hscan⟩ := Option.bind_eq_some_iff.mp hscan
    split at hscan
    · exact nomatch (Prod.mk.inj (Option.some.inj hscan)).1
    · obtain ⟨htoken, -⟩ := Prod.mk.inj (Option.some.inj hscan)
      rw [← Value.real.inj htoken]
      intro c hc
      rcases List.mem_append.mp hc with hc | hc
      · rcases List.mem_append.mp hc with hc | hc
        · rcases List.mem_append.mp hc with hc | hc
          · exact hsign c hc
          · exact isNumberChar_scanNat hwhole c hc
        · exact isNumberChar_scanFraction _ c hc
      · exact isNumberChar_scanExponent _ c hc
  have hscan := scanNumber_of_isRealToken h stops_nil
  rw [List.append_nil] at hscan
  unfold scanNumber at hscan
  split at hscan
  · refine hunsigned ?_ hscan
    simp [IsNumberChar]
  · refine hunsigned ?_ hscan
    simp

/-- A character of ASCII that ends no line. -/
def IsPlainChar (c : Char) : Prop := c.toNat < 128 ∧ c ≠ '\r'

lemma IsNumberChar.isPlainChar {c : Char} (h : IsNumberChar c) : IsPlainChar c := by
  rcases h with h | rfl | rfl | rfl | rfl | rfl
  · refine ⟨?_, ?_⟩
    · simp only [Char.isDigit, Bool.and_eq_true, decide_eq_true_eq, UInt32.le_iff_toNat_le] at h
      have := h.2
      show c.val.toNat < 128
      exact Nat.lt_of_le_of_lt this (by decide)
    · rintro rfl
      exact absurd h (by decide)
  all_goals exact ⟨by decide, by decide⟩

lemma isNumberChar_renderInt (n : ℤ) : ∀ c ∈ renderInt n, IsNumberChar c := by
  unfold renderInt
  split
  · refine List.forall_mem_cons.mpr ⟨?_, fun c hc => .inl (isDigit_toDigits _ c hc)⟩
    simp [IsNumberChar]
  · exact fun c hc => .inl (isDigit_toDigits _ c hc)

lemma last_renderItems (vs : List Value) : ∃ cs, renderItems vs = cs ++ [']'] := by
  induction vs with
  | nil => exact ⟨[], rfl⟩
  | cons v vs ih =>
    obtain ⟨cs, hcs⟩ := ih
    exact ⟨',' :: (render v ++ cs), by rw [renderItems, hcs]; simp⟩

lemma last_renderFields (fs : List (Text × Value)) : ∃ cs, renderFields fs = cs ++ ['}'] := by
  induction fs with
  | nil => exact ⟨[], rfl⟩
  | cons f fs ih =>
    obtain ⟨k, v⟩ := f
    obtain ⟨cs, hcs⟩ := ih
    exact ⟨',' :: (renderString k ++ ':' :: (render v ++ cs)), by rw [renderFields, hcs]; simp⟩

/-- The text of a value begins and ends with characters of ASCII. -/
lemma ends_render {v : Value} (h : v.all Value.isReadable = true) :
    (∃ c cs, render v = c :: cs ∧ IsPlainChar c) ∧ ∃ cs c, render v = cs ++ [c] ∧ IsPlainChar c := by
  have hnumber : ∀ {t : Text}, t ≠ [] → (∀ c ∈ t, IsNumberChar c) →
      (∃ c cs, t = c :: cs ∧ IsPlainChar c) ∧ ∃ cs c, t = cs ++ [c] ∧ IsPlainChar c := by
    intro t hne hall
    obtain ⟨c, cs, hcs⟩ := List.exists_cons_of_ne_nil hne
    refine ⟨⟨c, cs, hcs, (hall c (by rw [hcs]; exact List.mem_cons_self)).isPlainChar⟩,
      t.dropLast, t.getLast hne, (List.dropLast_append_getLast hne).symm, ?_⟩
    exact (hall _ (List.getLast_mem hne)).isPlainChar
  cases v with
  | null => exact ⟨⟨_, _, rfl, by decide, by decide⟩, ['n', 'u', 'l'], 'l', rfl, by decide, by decide⟩
  | bool b =>
    cases b
    · exact ⟨⟨_, _, rfl, by decide, by decide⟩, ['f', 'a', 'l', 's'], 'e', rfl, by decide,
        by decide⟩
    · exact ⟨⟨_, _, rfl, by decide, by decide⟩, ['t', 'r', 'u'], 'e', rfl, by decide, by decide⟩
  | int n =>
    refine hnumber ?_ (isNumberChar_renderInt n)
    obtain ⟨c, cs, hcs, -⟩ := head_renderInt n
    rw [render, hcs]
    exact List.cons_ne_nil c cs
  | real token =>
    refine hnumber ?_ (isNumberChar_of_isRealToken h)
    obtain ⟨c, cs, hcs, -⟩ := startsNumber_of_isRealToken h
    rw [hcs]
    exact List.cons_ne_nil c cs
  | str s => exact ⟨⟨_, _, rfl, by decide, by decide⟩, '"' :: s.flatMap escape, '"', rfl, by decide,
      by decide⟩
  | arr items =>
    cases items with
    | nil => exact ⟨⟨_, _, rfl, by decide, by decide⟩, ['['], ']', rfl, by decide, by decide⟩
    | cons v vs =>
      obtain ⟨cs, hcs⟩ := last_renderItems vs
      refine ⟨⟨_, _, rfl, by decide, by decide⟩, '[' :: (render v ++ cs), ']', ?_, by decide,
        by decide⟩
      rw [render, hcs]
      simp
  | obj fields =>
    rcases fields with _ | ⟨⟨k, v⟩, fs⟩
    · exact ⟨⟨_, _, rfl, by decide, by decide⟩, ['{'], '}', rfl, by decide, by decide⟩
    · obtain ⟨cs, hcs⟩ := last_renderFields fs
      refine ⟨⟨_, _, rfl, by decide, by decide⟩,
        '{' :: (renderString k ++ ':' :: (render v ++ cs)), '}', ?_, by decide, by decide⟩
      rw [render, hcs]
      simp

/-! ## Bytes -/

/-- The UTF-8 bytes of a text. -/
def encodeUtf8 (t : Text) : List UInt8 := t.flatMap String.utf8EncodeChar

/-- The text of UTF-8 bytes. -/
def decodeUtf8 (bytes : List UInt8) : Option Text :=
  bytes.toByteArray.utf8Decode?.map Array.toList

lemma decodeUtf8_encodeUtf8 (t : Text) : decodeUtf8 (encodeUtf8 t) = some t := by
  have h := List.utf8Decode?_utf8Encode (l := t)
  unfold List.utf8Encode at h
  unfold decodeUtf8 encodeUtf8
  rw [h]
  rfl

lemma encodeUtf8_append (s t : Text) : encodeUtf8 (s ++ t) = encodeUtf8 s ++ encodeUtf8 t :=
  List.flatMap_append

/-- Texts are told apart by their bytes. -/
lemma encodeUtf8_injective : Function.Injective encodeUtf8 := by
  intro s t h
  have hdecode := decodeUtf8_encodeUtf8 s
  rw [h, decodeUtf8_encodeUtf8] at hdecode
  exact (Option.some.inj hdecode).symm

/-- A character of ASCII is one byte. -/
lemma encodeUtf8_ascii {c : Char} (h : c.toNat < 128) :
    encodeUtf8 [c] = [c.toNat.toUInt8] := by
  have hle : c.toNat ≤ 127 := Nat.le_of_lt_succ h
  simp [encodeUtf8, String.utf8EncodeChar, hle]

end JsonText
