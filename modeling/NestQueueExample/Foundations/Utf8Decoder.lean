import Mathlib.Data.Char
import Mathlib.Data.List.Basic
import NestQueueExample.Foundations.Utf16

/-!
# Decoding UTF-8 with replacement

The decoder that turns any bytes into text, as a machine that reads a byte at a
time: what cannot be part of a character becomes a replacement character. An
ASCII byte ends whatever was pending, so bytes can be cut before and after it,
and an ASCII character of the text always comes from such a byte.
-/

namespace NestQueueExample.Utf8Decoder

open Utf16 (REPLACEMENT_CHARACTER)

/-- A character of which some bytes were read: how many it needs after the next
one, the bits so far, and the range of the next byte. -/
structure Pending where
  remaining : ℕ
  codePoint : ℕ
  lower : ℕ := 0x80
  upper : ℕ := 0xbf
  deriving DecidableEq

/-- The character of a code point; the machine completes no other numbers. -/
def scalar (codePoint : ℕ) : Char :=
  if codePoint.isValidChar then Char.ofNat codePoint else REPLACEMENT_CHARACTER

/-- A byte that is read when nothing is pending. -/
def lead (b : UInt8) : List Char × Option Pending :=
  if b.toNat < 0x80 then ([Char.ofNat b.toNat], none)
  else if 0xc2 ≤ b.toNat ∧ b.toNat ≤ 0xdf then
    ([], some { remaining := 0, codePoint := b.toNat - 0xc0 })
  else if 0xe0 ≤ b.toNat ∧ b.toNat ≤ 0xef then
    ([], some
      { remaining := 1
        codePoint := b.toNat - 0xe0
        lower := if b.toNat = 0xe0 then 0xa0 else 0x80
        upper := if b.toNat = 0xed then 0x9f else 0xbf })
  else if 0xf0 ≤ b.toNat ∧ b.toNat ≤ 0xf4 then
    ([], some
      { remaining := 2
        codePoint := b.toNat - 0xf0
        lower := if b.toNat = 0xf0 then 0x90 else 0x80
        upper := if b.toNat = 0xf4 then 0x8f else 0xbf })
  else ([REPLACEMENT_CHARACTER], none)

def step : Option Pending → UInt8 → List Char × Option Pending
  | none, b => lead b
  | some p, b =>
      if p.lower ≤ b.toNat ∧ b.toNat ≤ p.upper then
        let codePoint := p.codePoint * 64 + (b.toNat - 0x80)
        match p.remaining with
        | 0 => ([scalar codePoint], none)
        | remaining + 1 => ([], some { remaining, codePoint })
      else (REPLACEMENT_CHARACTER :: (lead b).1, (lead b).2)

def flush : Option Pending → List Char
  | none => []
  | some _ => [REPLACEMENT_CHARACTER]

def decodeFrom (s : Option Pending) : List UInt8 → List Char
  | [] => flush s
  | b :: bytes => (step s b).1 ++ decodeFrom (step s b).2 bytes

def decode (bytes : List UInt8) : List Char := decodeFrom none bytes

/-! ## What the machine completes -/

/-- The pending character will not be ASCII, whatever bytes complete it. -/
def Valid : Option Pending → Prop
  | none => True
  | some p => 0x80 ≤ p.lower ∧ 0x80 ≤ (p.codePoint * 64 + (p.lower - 0x80)) * 64 ^ p.remaining

/-- All that a byte can be when nothing is pending. -/
theorem lead_cases (b : UInt8) :
    (b.toNat < 0x80 ∧ lead b = ([Char.ofNat b.toNat], none)) ∨
      0x80 ≤ b.toNat ∧
        ((∃ p, Valid (some p) ∧ lead b = ([], some p)) ∨
          lead b = ([REPLACEMENT_CHARACTER], none)) := by
  unfold lead
  split
  · next hascii => exact Or.inl ⟨hascii, rfl⟩
  · next hlarge =>
      refine Or.inr ⟨by omega, ?_⟩
      split
      · refine Or.inl ⟨_, ?_, rfl⟩
        simp only [Valid]
        omega
      · split
        · refine Or.inl ⟨_, ?_, rfl⟩
          simp only [Valid]
          split <;> omega
        · split
          · refine Or.inl ⟨_, ?_, rfl⟩
            simp only [Valid]
            split <;> omega
          · exact Or.inr rfl

theorem valid_lead (b : UInt8) : Valid (lead b).2 := by
  rcases lead_cases b with ⟨-, hlead⟩ | ⟨-, ⟨p, hp, hlead⟩ | hlead⟩
  · rw [hlead]
    trivial
  · rw [hlead]
    exact hp
  · rw [hlead]
    trivial

theorem toNat_replacement : 0x80 ≤ REPLACEMENT_CHARACTER.toNat := by decide

theorem le_toNat_scalar {codePoint : ℕ} (h : 0x80 ≤ codePoint) :
    0x80 ≤ (scalar codePoint).toNat := by
  unfold scalar
  split
  · next hvalid =>
      rw [Char.ofNat, dif_pos hvalid]
      exact h
  · exact toNat_replacement

theorem lead_of_lt {b : UInt8} (h : b.toNat < 0x80) : lead b = ([Char.ofNat b.toNat], none) :=
  if_pos h

theorem le_toNat_of_mem_lead {b : UInt8} (h : 0x80 ≤ b.toNat) {c : Char} (hc : c ∈ (lead b).1) :
    0x80 ≤ c.toNat := by
  rcases lead_cases b with ⟨hlt, -⟩ | ⟨-, ⟨p, -, hlead⟩ | hlead⟩
  · omega
  · simp [hlead] at hc
  · rw [hlead] at hc
    obtain rfl := List.mem_singleton.mp hc
    exact toNat_replacement

section Continuation

variable {p : Pending} {b : UInt8}

theorem step_complete (hrange : p.lower ≤ b.toNat ∧ b.toNat ≤ p.upper) (h : p.remaining = 0) :
    step (some p) b = ([scalar (p.codePoint * 64 + (b.toNat - 0x80))], none) := by
  simp [step, hrange, h]

theorem step_continue (hrange : p.lower ≤ b.toNat ∧ b.toNat ≤ p.upper) {remaining : ℕ}
    (h : p.remaining = remaining + 1) :
    step (some p) b = ([], some
      { remaining, codePoint := p.codePoint * 64 + (b.toNat - 0x80) }) := by
  simp [step, hrange, h]

theorem step_restart (hrange : ¬ (p.lower ≤ b.toNat ∧ b.toNat ≤ p.upper)) :
    step (some p) b = (REPLACEMENT_CHARACTER :: (lead b).1, (lead b).2) := if_neg hrange

/-- The bits of a continuation byte are at least those of the least one. -/
theorem le_codePoint (hrange : p.lower ≤ b.toNat ∧ b.toNat ≤ p.upper) :
    p.codePoint * 64 + (p.lower - 0x80) ≤ p.codePoint * 64 + (b.toNat - 0x80) := by
  omega

end Continuation

theorem valid_step {s : Option Pending} (h : Valid s) (b : UInt8) : Valid (step s b).2 := by
  cases s with
  | none => exact valid_lead b
  | some p =>
      obtain ⟨-, hlarge⟩ := h
      by_cases hrange : p.lower ≤ b.toNat ∧ b.toNat ≤ p.upper
      · cases hremaining : p.remaining with
        | zero =>
            rw [step_complete hrange hremaining]
            trivial
        | succ remaining =>
            rw [step_continue hrange hremaining]
            refine ⟨le_refl _, ?_⟩
            rw [hremaining, pow_succ', ← mul_assoc] at hlarge
            rw [Nat.sub_self, Nat.add_zero]
            refine Nat.le_trans hlarge (Nat.mul_le_mul_right _ ?_)
            exact Nat.mul_le_mul_right 64 (le_codePoint hrange)
      · rw [step_restart hrange]
        exact valid_lead b

theorem le_toNat_of_mem_step {s : Option Pending} (h : Valid s) {b : UInt8}
    (hb : 0x80 ≤ b.toNat) {c : Char} (hc : c ∈ (step s b).1) : 0x80 ≤ c.toNat := by
  cases s with
  | none => exact le_toNat_of_mem_lead hb hc
  | some p =>
      obtain ⟨-, hlarge⟩ := h
      by_cases hrange : p.lower ≤ b.toNat ∧ b.toNat ≤ p.upper
      · cases hremaining : p.remaining with
        | zero =>
            rw [step_complete hrange hremaining, List.mem_singleton] at hc
            rw [hremaining, pow_zero, mul_one] at hlarge
            rw [hc]
            exact le_toNat_scalar (Nat.le_trans hlarge (le_codePoint hrange))
        | succ remaining =>
            rw [step_continue hrange hremaining] at hc
            contradiction
      · rw [step_restart hrange] at hc
        rcases List.mem_cons.mp hc with rfl | hlead
        · exact toNat_replacement
        · exact le_toNat_of_mem_lead hb hlead

/-- An ASCII byte ends what is pending. -/
theorem step_of_lt {s : Option Pending} (h : Valid s) {b : UInt8} (hb : b.toNat < 0x80) :
    step s b = (flush s ++ [Char.ofNat b.toNat], none) := by
  cases s with
  | none => exact lead_of_lt hb
  | some p =>
      have hrange : ¬ (p.lower ≤ b.toNat ∧ b.toNat ≤ p.upper) := by
        have hlower := h.1
        omega
      rw [step_restart hrange, lead_of_lt hb]
      rfl

/-! ## Cuts at ASCII bytes -/

theorem decodeFrom_append_cons {s : Option Pending} (h : Valid s) {b : UInt8}
    (hb : b.toNat < 0x80) (xs ys : List UInt8) :
    decodeFrom s (xs ++ b :: ys) = decodeFrom s xs ++ Char.ofNat b.toNat :: decode ys := by
  induction xs generalizing s with
  | nil => simp [decodeFrom, step_of_lt h hb, decode]
  | cons x xs ih =>
      rw [List.cons_append, decodeFrom, ih (valid_step h x), decodeFrom, List.append_assoc]

theorem le_toNat_of_mem_flush {s : Option Pending} {c : Char} (hc : c ∈ flush s) :
    0x80 ≤ c.toNat := by
  cases s with
  | none => simp [flush] at hc
  | some p =>
      obtain rfl := List.mem_singleton.mp hc
      exact toNat_replacement

theorem exists_of_append_eq {xs rest before after : List Char} {c : Char}
    (hxs : ∀ d ∈ xs, 0x80 ≤ d.toNat) (hc : c.toNat < 0x80)
    (h : xs ++ rest = before ++ c :: after) :
    ∃ middle, before = xs ++ middle ∧ rest = middle ++ c :: after := by
  induction xs generalizing before with
  | nil => exact ⟨before, rfl, h⟩
  | cons x xs ih =>
      rw [List.forall_mem_cons] at hxs
      cases before with
      | nil =>
          have hx : x = c := (List.cons.inj h).1
          rw [hx] at hxs
          omega
      | cons d before =>
          obtain ⟨hx, htail⟩ := List.cons.inj h
          obtain ⟨middle, hbefore, hrest⟩ := ih hxs.2 htail
          exact ⟨middle, by rw [hx, hbefore, List.cons_append], hrest⟩

/-- An ASCII character of the text is an ASCII byte, and what stands around it is
decoded on its own. -/
theorem exists_of_decodeFrom_eq {s : Option Pending} (h : Valid s) {bytes : List UInt8}
    {before after : List Char} {c : Char} (hc : c.toNat < 0x80)
    (hdecode : decodeFrom s bytes = before ++ c :: after) :
    ∃ xs b ys, bytes = xs ++ b :: ys ∧ b.toNat = c.toNat ∧ decodeFrom s xs = before ∧
      decode ys = after := by
  induction bytes generalizing s before with
  | nil =>
      have hmem : c ∈ flush s := by
        rw [decodeFrom] at hdecode
        simp [hdecode]
      exact absurd (le_toNat_of_mem_flush hmem) (by omega)
  | cons b bytes ih =>
      rw [decodeFrom] at hdecode
      rcases Nat.lt_or_ge b.toNat 0x80 with hb | hb
      · rw [step_of_lt h hb, List.append_assoc, List.singleton_append] at hdecode
        obtain ⟨middle, rfl, hrest⟩ :=
          exists_of_append_eq (fun _ ↦ le_toNat_of_mem_flush) hc hdecode
        cases middle with
        | nil =>
            obtain ⟨hchar, hafter⟩ := List.cons.inj hrest
            refine ⟨[], b, bytes, rfl, ?_, by simp [decodeFrom], hafter⟩
            rw [← hchar, Utf16.toNat_ofNat_of_lt hb]
        | cons d middle =>
            obtain ⟨rfl, htail⟩ := List.cons.inj hrest
            obtain ⟨xs, e, ys, rfl, he, hxs, hys⟩ := ih (s := none) trivial htail
            refine ⟨b :: xs, e, ys, rfl, he, ?_, hys⟩
            rw [decodeFrom, step_of_lt h hb, hxs, List.append_assoc, List.singleton_append]
      · obtain ⟨middle, rfl, hrest⟩ :=
          exists_of_append_eq (fun _ ↦ le_toNat_of_mem_step h hb) hc hdecode
        obtain ⟨xs, e, ys, rfl, he, hxs, hys⟩ := ih (valid_step h b) hrest
        exact ⟨b :: xs, e, ys, rfl, he, by rw [decodeFrom, hxs], hys⟩

/-! ## ASCII texts among the bytes -/

def IsAscii (text : List Char) : Prop := ∀ c ∈ text, c.toNat < 0x80

def asciiByte (c : Char) : UInt8 := UInt8.ofNat c.toNat

theorem toNat_asciiByte {c : Char} (h : c.toNat < 0x80) : (asciiByte c).toNat = c.toNat := by
  rw [asciiByte, UInt8.toNat_ofNat_of_lt']
  simp only [UInt8.size]
  omega

theorem asciiByte_eq {b : UInt8} {c : Char} (h : b.toNat = c.toNat) : asciiByte c = b := by
  rw [asciiByte, ← h, UInt8.ofNat_toNat]

theorem decode_asciiByte_cons {c : Char} (hc : c.toNat < 0x80) (xs ys : List UInt8) :
    decode (xs ++ asciiByte c :: ys) = decode xs ++ c :: decode ys := by
  have hbyte := toNat_asciiByte hc
  have hcut := decodeFrom_append_cons (s := none) trivial (b := asciiByte c) (by omega) xs ys
  rw [hbyte, Char.ofNat_toNat] at hcut
  exact hcut

theorem decode_ascii_append {text : List Char} (htext : IsAscii text) (ys : List UInt8) :
    decode (text.map asciiByte ++ ys) = text ++ decode ys := by
  induction text with
  | nil => rfl
  | cons c text ih =>
      rw [IsAscii, List.forall_mem_cons] at htext
      have hcut := decode_asciiByte_cons htext.1 [] (text.map asciiByte ++ ys)
      rw [List.nil_append, ih htext.2] at hcut
      exact hcut

/-- The bytes of an ASCII text that is not empty are read as that text, whatever
stands around them. -/
theorem decode_append_ascii {text : List Char} (htext : IsAscii text) (hne : text ≠ [])
    (xs ys : List UInt8) :
    decode (xs ++ (text.map asciiByte ++ ys)) = decode xs ++ (text ++ decode ys) := by
  cases text with
  | nil => contradiction
  | cons c text =>
      rw [IsAscii, List.forall_mem_cons] at htext
      rw [List.map_cons, List.cons_append, decode_asciiByte_cons htext.1,
        decode_ascii_append htext.2, List.cons_append]

theorem decodeFrom_some_ne_nil (p : Pending) (bytes : List UInt8) :
    decodeFrom (some p) bytes ≠ [] := by
  induction bytes generalizing p with
  | nil => simp [decodeFrom, flush]
  | cons b bytes ih =>
      rw [decodeFrom]
      by_cases hrange : p.lower ≤ b.toNat ∧ b.toNat ≤ p.upper
      · cases hremaining : p.remaining with
        | zero => simp [step_complete hrange hremaining]
        | succ remaining =>
            rw [step_continue hrange hremaining]
            exact ih _
      · simp [step_restart hrange]

/-- A byte that leaves nothing pending is read as something. -/
theorem lead_ne_nil {b : UInt8} (h : (lead b).2 = none) : (lead b).1 ≠ [] := by
  rcases lead_cases b with ⟨-, hlead⟩ | ⟨-, ⟨p, -, hlead⟩ | hlead⟩
  · simp [hlead]
  · simp [hlead] at h
  · simp [hlead]

theorem eq_nil_of_decode_eq_nil {bytes : List UInt8} (h : decode bytes = []) : bytes = [] := by
  cases bytes with
  | nil => rfl
  | cons b bytes =>
      rw [decode, decodeFrom, List.append_eq_nil_iff] at h
      cases hlead : (step none b).2 with
      | none =>
          exact absurd h.1 (lead_ne_nil hlead)
      | some p =>
          rw [hlead] at h
          exact absurd h.2 (decodeFrom_some_ne_nil p bytes)

/-- An ASCII text in what is read comes from its bytes. -/
theorem exists_of_decode_eq {text : List Char} (htext : IsAscii text) (hne : text ≠ [])
    {bytes : List UInt8} {before after : List Char}
    (h : decode bytes = before ++ (text ++ after)) :
    ∃ xs ys, bytes = xs ++ (text.map asciiByte ++ ys) ∧ decode xs = before ∧ decode ys = after := by
  induction text generalizing bytes before with
  | nil => contradiction
  | cons c text ih =>
      rw [IsAscii, List.forall_mem_cons] at htext
      obtain ⟨xs, b, ys, rfl, hb, hxs, hys⟩ :=
        exists_of_decodeFrom_eq (s := none) trivial htext.1 h
      cases text with
      | nil => exact ⟨xs, ys, by simp [asciiByte_eq hb], hxs, hys⟩
      | cons d text =>
          have hrest : decode ys = [] ++ (d :: text ++ after) := hys
          obtain ⟨zs, ys', rfl, hzs, hys'⟩ := ih htext.2 (List.cons_ne_nil d text) hrest
          obtain rfl := eq_nil_of_decode_eq_nil hzs
          exact ⟨xs, ys', by simp [asciiByte_eq hb], hxs, hys'⟩

end NestQueueExample.Utf8Decoder
