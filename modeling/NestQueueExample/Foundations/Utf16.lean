import Mathlib.Data.List.Basic
import NestQueueExample.Foundations.PercentEncoding

/-!
# Strings of UTF-16 units

The strings of JavaScript are lists of 16-bit units, which need not be the
encoding of any text. Where a string is written as bytes, a surrogate that is
not half of a pair becomes a replacement character, so that two strings can
have the same bytes; two ASCII strings cannot.
-/

namespace NestQueueExample.Utf16

open PercentEncoding
open String (utf8EncodeChar)

abbrev CodeUnits := List UInt16

def REPLACEMENT_CHARACTER : Char := '\ufffd'

def isHighSurrogate (unit : UInt16) : Bool := 0xd800 ≤ unit && unit ≤ 0xdbff

def isLowSurrogate (unit : UInt16) : Bool := 0xdc00 ≤ unit && unit ≤ 0xdfff

def pairChar (high low : UInt16) : Char :=
  Char.ofNat (0x10000 + (high.toNat - 0xd800) * 0x400 + (low.toNat - 0xdc00))

def unitChar (unit : UInt16) : Char :=
  if isHighSurrogate unit || isLowSurrogate unit then REPLACEMENT_CHARACTER
  else Char.ofNat unit.toNat

/-- The characters of a string, with lone surrogates replaced. -/
def chars : CodeUnits → List Char
  | [] => []
  | [unit] => [unitChar unit]
  | unit :: next :: units =>
      if isHighSurrogate unit && isLowSurrogate next then pairChar unit next :: chars units
      else unitChar unit :: chars (next :: units)

def utf8 (s : CodeUnits) : List UInt8 := (chars s).flatMap utf8EncodeChar

def IsAscii (s : CodeUnits) : Prop := ∀ unit ∈ s, unit.toNat < 128

theorem not_isHighSurrogate {unit : UInt16} (h : unit.toNat < 128) :
    isHighSurrogate unit = false := by
  simp only [isHighSurrogate, Bool.and_eq_false_iff, decide_eq_false_iff_not,
    UInt16.le_iff_toNat_le]
  have hhigh : (0xd800 : UInt16).toNat = 0xd800 := rfl
  omega

theorem unitChar_of_lt {unit : UInt16} (h : unit.toNat < 128) :
    unitChar unit = Char.ofNat unit.toNat := by
  have hlow : isLowSurrogate unit = false := by
    simp only [isLowSurrogate, Bool.and_eq_false_iff, decide_eq_false_iff_not,
      UInt16.le_iff_toNat_le]
    have hlow : (0xdc00 : UInt16).toNat = 0xdc00 := rfl
    omega
  simp [unitChar, not_isHighSurrogate h, hlow]

theorem chars_of_isAscii {s : CodeUnits} (h : IsAscii s) :
    chars s = s.map fun unit ↦ Char.ofNat unit.toNat := by
  induction s with
  | nil => rfl
  | cons unit units ih =>
      have hunit : unit.toNat < 128 := h unit List.mem_cons_self
      have hunits : IsAscii units := fun u hu ↦ h u (List.mem_cons_of_mem _ hu)
      cases units with
      | nil => simp [chars, unitChar_of_lt hunit]
      | cons next units =>
          rw [chars, not_isHighSurrogate hunit, Bool.false_and, if_neg Bool.false_ne_true,
            unitChar_of_lt hunit, ih hunits]
          rfl

theorem toNat_ofNat_of_lt {n : ℕ} (h : n < 128) : (Char.ofNat n).toNat = n := by
  have hall : ∀ m : Fin 128, (Char.ofNat m.1).toNat = m.1 := by decide
  exact hall ⟨n, h⟩

theorem chars_injective {s t : CodeUnits} (hs : IsAscii s) (ht : IsAscii t)
    (h : chars s = chars t) : s = t := by
  have hread : ∀ {u : CodeUnits}, IsAscii u →
      (chars u).map (fun c ↦ UInt16.ofNat c.toNat) = u := by
    intro u hu
    rw [chars_of_isAscii hu, List.map_map]
    refine (List.map_congr_left fun unit hunit ↦ ?_).trans (List.map_id u)
    rw [Function.comp_apply, toNat_ofNat_of_lt (hu unit hunit), UInt16.ofNat_toNat, id]
  rw [← hread hs, h, hread ht]

theorem utf8_injective {s t : CodeUnits} (hs : IsAscii s) (ht : IsAscii t)
    (h : utf8 s = utf8 t) : s = t := by
  have hdecode := congrArg utf8Decode h
  rw [utf8, utf8, utf8Decode_flatMap, utf8Decode_flatMap] at hdecode
  exact chars_injective hs ht (Option.some.inj hdecode)

end NestQueueExample.Utf16
