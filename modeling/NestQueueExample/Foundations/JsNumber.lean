import Mathlib.Algebra.Order.Field.Power
import Mathlib.Algebra.Order.Field.Rat
import Mathlib.Data.Int.Log
import Mathlib.Data.List.DropRight
import Mathlib.Data.Rat.Floor
import Mathlib.Tactic.NormNum
import NestQueueExample.Foundations.JsValue
import NestQueueExample.Foundations.PercentEncoding

/-!
# Numbers of JavaScript

The conversion `Number(text)`: the grammar of numeric strings, the rational it
denotes, and the rounding of that rational to binary64, half to even. The two
zeros are one number here.
-/

namespace NestQueueExample

inductive JsNumber where
  | nan
  | infinity (negative : Bool)
  | finite (q : ℚ)
  deriving DecidableEq

namespace JsNumber

/-! ## Rounding -/

def roundHalfEven (q : ℚ) : ℤ :=
  if q - ⌊q⌋ < 1 / 2 ∨ (q - ⌊q⌋ = 1 / 2 ∧ ⌊q⌋ % 2 = 0) then ⌊q⌋ else ⌊q⌋ + 1

theorem roundHalfEven_intCast (z : ℤ) : roundHalfEven z = z := by
  simp [roundHalfEven]

/-- The distance of the numbers around `q`: 53 significant bits, or the spacing
of the subnormal numbers. -/
def ulpExponent (q : ℚ) : ℤ := max (Int.log 2 |q| - 52) (-1074)

def toBinary64 (q : ℚ) : JsNumber :=
  let rounded : ℚ := roundHalfEven (q / 2 ^ ulpExponent q) * 2 ^ ulpExponent q
  if |rounded| < 2 ^ 1024 then .finite rounded else .infinity (q < 0)

theorem ulpExponent_natCast_nonpos {n : ℕ} (h : n < 2 ^ 53) : ulpExponent n ≤ 0 := by
  have hlog : Nat.log 2 n ≤ 52 := Nat.lt_succ_iff.mp (Nat.log_lt_of_lt_pow' (by decide) h)
  have habs : |(n : ℚ)| = n := abs_of_nonneg (Nat.cast_nonneg n)
  rw [ulpExponent, habs, Int.log_natCast]
  omega

/-- The natural numbers below `2 ^ 53` are numbers of JavaScript. -/
theorem toBinary64_natCast {n : ℕ} (h : n < 2 ^ 53) : toBinary64 n = .finite n := by
  obtain ⟨k, hk⟩ := Int.exists_eq_neg_ofNat (ulpExponent_natCast_nonpos h)
  have hpow : (2 : ℚ) ^ ulpExponent n = (2 ^ k)⁻¹ := by
    rw [hk, zpow_neg, zpow_natCast]
  have hscaled : (n : ℚ) / 2 ^ ulpExponent n = ((n * 2 ^ k : ℤ) : ℚ) := by
    rw [hpow, div_inv_eq_mul]
    push_cast
    rfl
  have hrounded : (roundHalfEven ((n : ℚ) / 2 ^ ulpExponent n) : ℚ) * 2 ^ ulpExponent n = n := by
    rw [hscaled, roundHalfEven_intCast, ← hscaled]
    exact div_mul_cancel₀ _ (by positivity)
  have hrange : |(n : ℚ)| < 2 ^ 1024 := by
    rw [abs_of_nonneg (Nat.cast_nonneg n)]
    calc (n : ℚ) < 2 ^ 53 := by exact_mod_cast h
      _ ≤ 2 ^ 1024 := pow_le_pow_right₀ (by norm_num) (by norm_num)
  simp only [toBinary64, hrounded, hrange, if_true]

/-! ## The grammar -/

inductive NumericLiteral where
  | digits (negative : Bool) (value : ℕ) (exponent : ℤ)
  | infinity (negative : Bool)
  deriving DecidableEq

def NumericLiteral.toNumber : NumericLiteral → JsNumber
  | .digits negative value exponent =>
      toBinary64 ((if negative then -1 else 1) * value * 10 ^ exponent)
  | .infinity negative => .infinity negative

def isStrWhiteSpace (c : Char) : Bool :=
  ['\t', '\n', '\x0b', '\x0c', '\r', ' ', '\u00a0', '\u1680', '\u2028', '\u2029', '\u202f',
    '\u205f', '\u3000', '\ufeff'].contains c || ('\u2000' ≤ c && c ≤ '\u200a')

def trim (s : List Char) : List Char :=
  (s.dropWhile isStrWhiteSpace).rdropWhile isStrWhiteSpace

def digitsValue (digits : List Char) : ℕ := Nat.ofDigitChars 10 digits 0

def parseExponent (s : List Char) : Option ℤ :=
  match s with
  | '-' :: digits =>
      if digits ≠ [] ∧ digits.all Char.isDigit then some (-digitsValue digits) else none
  | '+' :: digits =>
      if digits ≠ [] ∧ digits.all Char.isDigit then some (digitsValue digits) else none
  | digits => if digits ≠ [] ∧ digits.all Char.isDigit then some (digitsValue digits) else none

def parseFraction (s : List Char) : List Char × List Char :=
  match s with
  | '.' :: rest => rest.span Char.isDigit
  | rest => ([], rest)

/-- An unsigned decimal literal: the number its digits spell and the power of
ten it is scaled by. -/
def parseDecimal (s : List Char) : Option (ℕ × ℤ) :=
  let (whole, rest) := s.span Char.isDigit
  let (fraction, rest) := parseFraction rest
  if whole = [] ∧ fraction = [] then none
  else
    match rest with
    | [] => some (digitsValue (whole ++ fraction), -fraction.length)
    | e :: rest =>
        if e = 'e' ∨ e = 'E' then
          (parseExponent rest).map fun exponent ↦
            (digitsValue (whole ++ fraction), exponent - fraction.length)
        else none

def parseUnsigned (negative : Bool) (s : List Char) : Option NumericLiteral :=
  if s = "Infinity".toList then some (.infinity negative)
  else (parseDecimal s).map fun (value, exponent) ↦ .digits negative value exponent

def radix : Char → Option ℕ
  | 'x' | 'X' => some 16
  | 'o' | 'O' => some 8
  | 'b' | 'B' => some 2
  | _ => none

def parseRadix (base : ℕ) (digits : List Char) : Option NumericLiteral :=
  if digits ≠ [] ∧ digits.all fun c ↦ (PercentEncoding.hexValue c).any (· < base) then
    some (.digits false (digits.foldl (fun value c ↦
      base * value + (PercentEncoding.hexValue c).getD 0) 0) 0)
  else none

def parseSigned (s : List Char) : Option NumericLiteral :=
  match s with
  | '-' :: rest => parseUnsigned true rest
  | '+' :: rest => parseUnsigned false rest
  | rest => parseUnsigned false rest

/-- A numeric string without the white space around it; the empty one is zero. -/
def parseLiteral (s : List Char) : Option NumericLiteral :=
  match s with
  | [] => some (.digits false 0 0)
  | '0' :: c :: rest =>
      match radix c with
      | some base => parseRadix base rest
      | none => parseSigned s
  | _ => parseSigned s

/-- The function `Number` on a string. -/
def ofString (s : String) : JsNumber :=
  match parseLiteral (trim s.toList) with
  | some literal => literal.toNumber
  | none => .nan

end JsNumber

/-- `Number(value)` of a primitive, where it is a finite number. -/
def JsValue.toFinite : JsValue → Option ℚ
  | .null => some 0
  | .bool b => some (if b then 1 else 0)
  | .number q => some q
  | .string s => match JsNumber.ofString s with
      | .finite q => some q
      | _ => none
  | _ => none

namespace JsNumber

/-! ## Numerals -/

section Numerals

variable {s : List Char}

/-- A property of the digits is checked on the ten of them. -/
theorem of_isDigit {p : Char → Prop} (hall : ∀ n : Fin 10, p (Char.ofNat (48 + n))) {c : Char}
    (h : c.isDigit = true) : p c := by
  simp only [Char.isDigit, ge_iff_le, Bool.and_eq_true, decide_eq_true_eq, UInt32.le_iff_toNat_le]
    at h
  have hlow : 48 ≤ c.toNat := h.1
  have hhigh : c.toNat ≤ 57 := h.2
  have hc : c = Char.ofNat (48 + (c.toNat - 48)) := by
    rw [Nat.add_sub_cancel' hlow, Char.ofNat_toNat]
  rw [hc]
  exact hall ⟨c.toNat - 48, by omega⟩

theorem not_isStrWhiteSpace_of_isDigit {c : Char} (h : c.isDigit = true) :
    isStrWhiteSpace c = false :=
  of_isDigit (p := fun c ↦ isStrWhiteSpace c = false) (by decide) h

theorem radix_of_isDigit {c : Char} (h : c.isDigit = true) : radix c = none :=
  of_isDigit (p := fun c ↦ radix c = none) (by decide) h

theorem ne_of_isDigit {c d : Char} (h : c.isDigit = true) (hd : d.isDigit = false) : c ≠ d := by
  rintro rfl
  rw [h] at hd
  exact Bool.noConfusion hd

theorem trim_digits (h : ∀ c ∈ s, c.isDigit = true) : trim s = s := by
  have hkept : ∀ c ∈ s, isStrWhiteSpace c ≠ true := fun c hc ↦ by
    simp [not_isStrWhiteSpace_of_isDigit (h c hc)]
  have hleft : s.dropWhile isStrWhiteSpace = s :=
    List.dropWhile_eq_self_iff.mpr fun hlen ↦ hkept _ (List.getElem_mem hlen)
  rw [trim, hleft]
  exact List.rdropWhile_eq_self_iff.mpr fun hne ↦ hkept _ (List.getLast_mem hne)

theorem parseDecimal_digits (hne : s ≠ []) (h : ∀ c ∈ s, c.isDigit = true) :
    parseDecimal s = some (digitsValue s, 0) := by
  have hspan : s.span Char.isDigit = (s, []) := by
    rw [List.span_eq_takeWhile_dropWhile, List.takeWhile_eq_self_iff.mpr h,
      List.dropWhile_eq_nil_iff.mpr h]
  simp only [parseDecimal, hspan, parseFraction]
  simp [hne]

theorem parseSigned_digits (hne : s ≠ []) (h : ∀ c ∈ s, c.isDigit = true) :
    parseSigned s = some (.digits false (digitsValue s) 0) := by
  have hinfinity : s ≠ "Infinity".toList := by
    rintro rfl
    exact absurd (h 'I' (by decide)) (by decide)
  have hunsigned : parseUnsigned false s = some (.digits false (digitsValue s) 0) := by
    rw [parseUnsigned, if_neg hinfinity, parseDecimal_digits hne h]
    rfl
  unfold parseSigned
  split
  · exact absurd rfl (ne_of_isDigit (h '-' (by simp)) (d := '-') (by decide))
  · exact absurd rfl (ne_of_isDigit (h '+' (by simp)) (d := '+') (by decide))
  · exact hunsigned

theorem parseLiteral_digits (hne : s ≠ []) (h : ∀ c ∈ s, c.isDigit = true) :
    parseLiteral s = some (.digits false (digitsValue s) 0) := by
  unfold parseLiteral
  split
  · exact absurd rfl hne
  · next c rest =>
      rw [radix_of_isDigit (h c (by simp))]
      exact parseSigned_digits hne h
  · exact parseSigned_digits hne h

end Numerals

theorem isDigit_of_mem_repr {n : ℕ} {c : Char} (h : c ∈ n.repr.toList) : c.isDigit = true := by
  rw [Nat.toList_repr] at h
  exact Nat.isDigit_of_mem_toDigits (by decide) (by decide) h

/-- The numeral of a natural number denotes it, rounded. -/
theorem ofString_repr (n : ℕ) : ofString n.repr = toBinary64 n := by
  have hdigits : ∀ c ∈ n.repr.toList, c.isDigit = true := fun c hc ↦ isDigit_of_mem_repr hc
  have hne : n.repr.toList ≠ [] := by
    simp
  rw [ofString, trim_digits hdigits, parseLiteral_digits hne hdigits]
  simp [NumericLiteral.toNumber, digitsValue]

theorem ofString_natCast {n : ℕ} (h : n < 2 ^ 53) : ofString n.repr = .finite n := by
  rw [ofString_repr, toBinary64_natCast h]

theorem toFinite_repr {n : ℕ} (h : n < 2 ^ 53) :
    JsValue.toFinite (.string n.repr) = some (n : ℚ) := by
  rw [JsValue.toFinite, ofString_natCast h]

def NumericLiteral.Natural : NumericLiteral → Prop
  | .digits negative value exponent =>
      ∃ n : ℕ, toBinary64 ((if negative then -1 else 1) * value * 10 ^ exponent) = .finite n
  | .infinity _ => False

/-- The text is a numeric string, and what it denotes rounds to a natural
number. -/
def SpellsNatural (s : String) : Prop :=
  ∃ literal, parseLiteral (trim s.toList) = some literal ∧ literal.Natural

theorem spellsNatural_iff {s : String} : SpellsNatural s ↔ ∃ n : ℕ, ofString s = .finite n := by
  unfold SpellsNatural ofString
  cases hparse : parseLiteral (trim s.toList) with
  | none => simp
  | some literal =>
      cases literal with
      | digits negative value exponent =>
          simp [NumericLiteral.Natural, NumericLiteral.toNumber]
      | infinity negative => simp [NumericLiteral.Natural, NumericLiteral.toNumber]

end JsNumber

end NestQueueExample
