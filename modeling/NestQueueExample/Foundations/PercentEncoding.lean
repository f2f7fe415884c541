import Mathlib.Algebra.Ring.Nat
import Mathlib.Data.Bool.AllAny
import Mathlib.Data.List.Basic

/-!
# Percent-encoding

The escapes of URLs: a byte is written `%XX`, and a character outside the kept
ones is written as the escapes of its UTF-8 bytes. Decoding turns escapes into
bytes and the bytes, together with those of the characters that stand as they
are, back into characters. The encodings of the URL standard and of JavaScript
differ only in the characters they keep.
-/

namespace NestQueueExample.PercentEncoding

open String (utf8EncodeChar)

/-! ## Hexadecimal digits -/

def hexDigit (n : ℕ) : Char := if n < 10 then Char.ofNat (48 + n) else Char.ofNat (55 + n)

def hexValue (c : Char) : Option ℕ :=
  if '0' ≤ c ∧ c ≤ '9' then some (c.toNat - 48)
  else if 'A' ≤ c ∧ c ≤ 'F' then some (c.toNat - 55)
  else if 'a' ≤ c ∧ c ≤ 'f' then some (c.toNat - 87)
  else none

def isHexDigit (c : Char) : Bool := (hexValue c).isSome

theorem hexValue_hexDigit {n : ℕ} (h : n < 16) : hexValue (hexDigit n) = some n := by
  have hall : ∀ m : Fin 16, hexValue (hexDigit m) = some m.1 := by decide
  exact hall ⟨n, h⟩

/-! ## Encoding -/

def percentByte (b : UInt8) : List Char :=
  ['%', hexDigit (b.toNat / 16), hexDigit (b.toNat % 16)]

def percentBytes (bytes : List UInt8) : List Char := bytes.flatMap percentByte

def encodeChar (encoded : Char → Bool) (c : Char) : List Char :=
  if encoded c then percentBytes (utf8EncodeChar c) else [c]

def percentEncode (encoded : Char → Bool) (s : List Char) : List Char :=
  s.flatMap (encodeChar encoded)

/-! ## Decoding -/

/-- The bytes of a text with escapes; `none` when a `%` does not start one. -/
def percentDecode : List Char → Option (List UInt8)
  | [] => some []
  | c :: rest =>
      if c = '%' then
        match rest with
        | hi :: lo :: rest =>
            match hexValue hi, hexValue lo with
            | some hi, some lo => (percentDecode rest).map (UInt8.ofNat (16 * hi + lo) :: ·)
            | _, _ => none
        | _ => none
      else (percentDecode rest).map (utf8EncodeChar c ++ ·)

def utf8Decode (bytes : List UInt8) : Option (List Char) :=
  bytes.toByteArray.utf8Decode?.map Array.toList

theorem utf8Decode_flatMap (s : List Char) : utf8Decode (s.flatMap utf8EncodeChar) = some s := by
  have h := List.utf8Decode?_utf8Encode (l := s)
  rw [utf8Decode, ← List.utf8Encode, h]
  rfl

theorem percentDecode_cons {c : Char} (h : c ≠ '%') (rest : List Char) :
    percentDecode (c :: rest) = (percentDecode rest).map (utf8EncodeChar c ++ ·) := by
  simp only [percentDecode.eq_def (c :: rest), if_neg h]

theorem percentDecode_percentByte (b : UInt8) (rest : List Char) :
    percentDecode (percentByte b ++ rest) = (percentDecode rest).map (b :: ·) := by
  have hb : b.toNat < 256 := b.toNat_lt
  have hhi : hexValue (hexDigit (b.toNat / 16)) = some (b.toNat / 16) :=
    hexValue_hexDigit (by omega)
  have hlo : hexValue (hexDigit (b.toNat % 16)) = some (b.toNat % 16) :=
    hexValue_hexDigit (by omega)
  have hbyte : UInt8.ofNat (16 * (b.toNat / 16) + b.toNat % 16) = b := by
    rw [Nat.div_add_mod, UInt8.ofNat_toNat]
  simp [percentByte, percentDecode, hhi, hlo, hbyte]

theorem percentDecode_percentBytes (bytes : List UInt8) (rest : List Char) :
    percentDecode (percentBytes bytes ++ rest) = (percentDecode rest).map (bytes ++ ·) := by
  induction bytes with
  | nil => simp [percentBytes]
  | cons b bytes ih =>
      have hcons : percentBytes (b :: bytes) ++ rest =
          percentByte b ++ (percentBytes bytes ++ rest) := by
        simp [percentBytes]
      rw [hcons, percentDecode_percentByte, ih, Option.map_map]
      rfl

theorem percentEncode_cons (encoded : Char → Bool) (c : Char) (s : List Char) :
    percentEncode encoded (c :: s) = encodeChar encoded c ++ percentEncode encoded s :=
  List.flatMap_cons

/-- Escapes of an encoding that also escapes `%` are read back as they were
written. -/
theorem percentDecode_percentEncode {encoded : Char → Bool} (h : encoded '%' = true)
    (s : List Char) :
    percentDecode (percentEncode encoded s) = some (s.flatMap utf8EncodeChar) := by
  induction s with
  | nil => simp [percentEncode, percentDecode]
  | cons c s ih =>
      rw [percentEncode_cons, encodeChar, List.flatMap_cons]
      split
      · rw [percentDecode_percentBytes, ih]
        rfl
      · next hkept =>
          have hc : c ≠ '%' := by
            rintro rfl
            exact hkept h
          rw [List.singleton_append, percentDecode_cons hc, ih]
          rfl

/-! ## Encodings that keep escapes -/

section KeepsEscapes

variable {encoded : Char → Bool}

theorem encodeChar_of_kept {c : Char} (h : encoded c = false) : encodeChar encoded c = [c] := by
  simp [encodeChar, h]

theorem length_percentBytes (bytes : List UInt8) :
    (percentBytes bytes).length = 3 * bytes.length := by
  induction bytes with
  | nil => rfl
  | cons b bytes ih =>
      have hcons : percentBytes (b :: bytes) = percentByte b ++ percentBytes bytes :=
        List.flatMap_cons
      rw [hcons, List.length_append, ih, List.length_cons]
      simp only [percentByte, List.length_cons, List.length_nil]
      omega

theorem one_le_length_utf8EncodeChar (c : Char) : 1 ≤ (utf8EncodeChar c).length := by
  rw [String.length_utf8EncodeChar]
  exact c.utf8Size_pos

theorem one_lt_length_encodeChar {c : Char} (h : encoded c = true) :
    1 < (encodeChar encoded c).length := by
  have hlen := one_le_length_utf8EncodeChar c
  rw [encodeChar, if_pos h, length_percentBytes]
  omega

theorem length_le_percentEncode (s : List Char) : s.length ≤ (percentEncode encoded s).length := by
  induction s with
  | nil => simp
  | cons c s ih =>
      rw [percentEncode_cons, List.length_append, List.length_cons]
      cases h : encoded c with
      | true =>
          have hlen := one_lt_length_encodeChar h
          omega
      | false =>
          rw [encodeChar_of_kept h, List.length_singleton]
          omega

theorem percentEncode_eq_self_iff {s : List Char} :
    percentEncode encoded s = s ↔ ∀ c ∈ s, encoded c = false := by
  induction s with
  | nil => simp [percentEncode]
  | cons c s ih =>
      rw [percentEncode_cons, List.forall_mem_cons]
      cases h : encoded c with
      | true =>
          have hlen := one_lt_length_encodeChar h
          have hrest : s.length ≤ (percentEncode encoded s).length := length_le_percentEncode s
          constructor
          · intro heq
            have hlengths := congrArg List.length heq
            rw [List.length_append, List.length_cons] at hlengths
            omega
          · simp
      | false =>
          simp [encodeChar_of_kept h, ih]

theorem percentBytes_utf8EncodeChar (c : Char) :
    ∃ rest, percentBytes (utf8EncodeChar c) = '%' :: rest := by
  have hlen := one_le_length_utf8EncodeChar c
  cases hbytes : utf8EncodeChar c with
  | nil =>
      rw [hbytes] at hlen
      exact absurd hlen (by decide)
  | cons b bytes => exact ⟨_, rfl⟩

theorem hexValue_percent : hexValue '%' = none := by decide

theorem percentDecode_percent_eq_none {s : List Char}
    (h : ∀ hi lo rest, s = hi :: lo :: rest → hexValue hi = none ∨ hexValue lo = none) :
    percentDecode ('%' :: s) = none := by
  match s with
  | [] => rfl
  | [_] => rfl
  | hi :: lo :: rest =>
      simp only [percentDecode, if_true]
      rcases h hi lo rest rfl with hnone | hnone
      · simp [hnone]
      · cases hexValue hi <;> simp [hnone]

theorem encodeChar_of_hexValue_eq_none {c : Char} (h : hexValue c = none) :
    ∃ d rest, encodeChar encoded c = d :: rest ∧ hexValue d = none := by
  unfold encodeChar
  split
  · obtain ⟨rest, hrest⟩ := percentBytes_utf8EncodeChar c
    exact ⟨'%', rest, hrest, hexValue_percent⟩
  · exact ⟨c, [], rfl, h⟩

theorem exists_of_percentEncode_eq_cons (hhex : ∀ c, isHexDigit c = true → encoded c = false)
    {s : List Char} {d : Char} {rest : List Char} (h : percentEncode encoded s = d :: rest)
    (hd : isHexDigit d = true) : ∃ s', s = d :: s' ∧ rest = percentEncode encoded s' := by
  cases s with
  | nil => simp [percentEncode] at h
  | cons c s =>
      rw [percentEncode_cons] at h
      cases hc : isHexDigit c with
      | true =>
          rw [encodeChar_of_kept (hhex c hc), List.singleton_append, List.cons.injEq] at h
          exact ⟨s, by rw [h.1], h.2.symm⟩
      | false =>
          have hnone : hexValue c = none :=
            Option.isNone_iff_eq_none.mp (by simpa [isHexDigit] using hc)
          obtain ⟨e, tail, hencode, he⟩ :
              ∃ e tail, encodeChar encoded c = e :: tail ∧ hexValue e = none :=
            encodeChar_of_hexValue_eq_none hnone
          rw [hencode, List.cons_append, List.cons.injEq] at h
          rw [isHexDigit, ← h.1, he] at hd
          exact absurd hd (by simp)

/-- What does not complete an escape does not complete one once it is encoded. -/
theorem hexValue_percentEncode (hhex : ∀ c, isHexDigit c = true → encoded c = false)
    {s : List Char}
    (h : ∀ hi lo rest, s = hi :: lo :: rest → hexValue hi = none ∨ hexValue lo = none)
    (hi lo : Char) (rest : List Char) (hs : percentEncode encoded s = hi :: lo :: rest) :
    hexValue hi = none ∨ hexValue lo = none := by
  by_contra hboth
  rw [not_or, ← ne_eq, ← ne_eq, ← Option.isSome_iff_ne_none, ← Option.isSome_iff_ne_none] at hboth
  obtain ⟨s₁, rfl, hs₁⟩ := exists_of_percentEncode_eq_cons hhex hs hboth.1
  obtain ⟨s₂, rfl, -⟩ := exists_of_percentEncode_eq_cons hhex hs₁.symm hboth.2
  rcases h hi lo s₂ rfl with hnone | hnone
  · rw [hnone] at hboth
    exact Bool.noConfusion hboth.1
  · rw [hnone] at hboth
    exact Bool.noConfusion hboth.2

/-- Where `%` and the hexadecimal digits are kept, an escape stays an escape and
what is not one does not become one: nothing changes for the decoder. -/
theorem percentDecode_percentEncode_of_keeps (hpercent : encoded '%' = false)
    (hhex : ∀ c, isHexDigit c = true → encoded c = false) (s : List Char) :
    percentDecode (percentEncode encoded s) = percentDecode s := by
  induction hn : s.length using Nat.strong_induction_on generalizing s with
  | _ n ih =>
  match s with
  | [] => rfl
  | c :: s =>
      rw [percentEncode_cons]
      by_cases hc : c = '%'
      · subst hc
        rw [encodeChar_of_kept hpercent, List.singleton_append]
        by_cases hescape : ∃ hi lo rest, s = hi :: lo :: rest ∧ isHexDigit hi = true ∧
            isHexDigit lo = true
        · obtain ⟨hi, lo, rest, rfl, hhi, hlo⟩ := hescape
          have hlen : rest.length < n := by
            simp only [List.length_cons] at hn
            omega
          have hrest := ih rest.length hlen rest rfl
          rw [percentEncode_cons, percentEncode_cons, encodeChar_of_kept (hhex hi hhi),
            encodeChar_of_kept (hhex lo hlo)]
          simp only [List.singleton_append, percentDecode, if_true, hrest]
        · have hnone : ∀ hi lo rest, s = hi :: lo :: rest →
              hexValue hi = none ∨ hexValue lo = none := by
            intro hi lo rest hs
            by_contra hboth
            rw [not_or] at hboth
            exact hescape ⟨hi, lo, rest, hs, Option.isSome_iff_ne_none.mpr hboth.1,
              Option.isSome_iff_ne_none.mpr hboth.2⟩
          rw [percentDecode_percent_eq_none hnone]
          exact percentDecode_percent_eq_none (hexValue_percentEncode hhex hnone)
      · have hrest := ih s.length (by simp [← hn]) s rfl
        cases henc : encoded c with
        | true =>
            rw [encodeChar, if_pos henc, percentDecode_percentBytes, hrest, percentDecode_cons hc]
        | false =>
            rw [encodeChar_of_kept henc, List.singleton_append, percentDecode_cons hc, hrest,
              percentDecode_cons hc]

end KeepsEscapes

/-! ## The functions of JavaScript -/

/-- The characters that `encodeURIComponent` keeps. -/
def isUnreserved (c : Char) : Bool :=
  c.isAlphanum || ['-', '_', '.', '!', '~', '*', '\x27', '(', ')'].contains c

def encodeURIComponent (s : String) : String :=
  String.ofList (percentEncode (fun c ↦ !isUnreserved c) s.toList)

/-- `none` where the function throws. A character that stands as it is never
completes an escaped one, so all the bytes can be decoded together. -/
def decodeURIComponent (s : String) : Option String :=
  (percentDecode s.toList).bind fun bytes ↦ (utf8Decode bytes).map String.ofList

/-- Every string of Unicode characters is read back from its encoding. -/
theorem decodeURIComponent_encodeURIComponent (s : String) :
    decodeURIComponent (encodeURIComponent s) = some s := by
  have hdecode : percentDecode (percentEncode (fun c ↦ !isUnreserved c) s.toList) =
      some (s.toList.flatMap utf8EncodeChar) := percentDecode_percentEncode (by decide) s.toList
  simp [decodeURIComponent, encodeURIComponent, hdecode, utf8Decode_flatMap]

theorem isAlphanum_iff {c : Char} :
    c.isAlphanum = true ↔ ((65 ≤ c.toNat ∧ c.toNat ≤ 90) ∨ (97 ≤ c.toNat ∧ c.toNat ≤ 122)) ∨
      (48 ≤ c.toNat ∧ c.toNat ≤ 57) := by
  change (decide (65 ≤ c.val ∧ c.val ≤ 90) || (decide (97 ≤ c.val) && decide (c.val ≤ 122)) ||
    (decide (48 ≤ c.val) && decide (c.val ≤ 57))) = true ↔ _
  simp only [Bool.or_eq_true, Bool.and_eq_true, decide_eq_true_eq, UInt32.le_iff_toNat_le]
  exact Iff.rfl

theorem toNat_lt_of_isUnreserved {c : Char} (h : isUnreserved c = true) : c.toNat < 128 := by
  have hlisted : ∀ d ∈ ['-', '_', '.', '!', '~', '*', '\x27', '(', ')'], d.toNat < 128 :=
    List.all_iff_forall_prop.mp (by decide)
  rw [isUnreserved, Bool.or_eq_true, List.contains_iff_mem] at h
  rcases h with halphanum | hmem
  · rw [isAlphanum_iff] at halphanum
    omega
  · exact hlisted c hmem

/-- A property of the unreserved characters is checked on the ASCII ones. -/
theorem of_isUnreserved {p : Char → Prop} [DecidablePred p]
    (hall : ∀ n : Fin 128, isUnreserved (Char.ofNat n) = true → p (Char.ofNat n)) {c : Char}
    (h : isUnreserved c = true) : p c := by
  have hc := hall ⟨c.toNat, toNat_lt_of_isUnreserved h⟩
  rw [Char.ofNat_toNat] at hc
  exact hc h

theorem isUnreserved_of_isHexDigit {c : Char} (h : isHexDigit c = true) :
    isUnreserved c = true := by
  have halphanum : c.isAlphanum = true := by
    rw [isAlphanum_iff]
    unfold isHexDigit hexValue at h
    split at h
    · next hdigit => exact .inr hdigit
    · split at h
      · next hupper => exact .inl (.inl ⟨hupper.1, Nat.le_trans hupper.2 (by decide)⟩)
      · split at h
        · next hlower => exact .inl (.inr ⟨hlower.1, Nat.le_trans hlower.2 (by decide)⟩)
        · contradiction
  rw [isUnreserved, halphanum, Bool.true_or]

theorem mem_encodeURIComponent {s : String} {c : Char} (h : c ∈ (encodeURIComponent s).toList) :
    isUnreserved c = true ∨ c = '%' := by
  have hdigits : ∀ n : Fin 16, isUnreserved (hexDigit n) = true := by decide
  simp only [encodeURIComponent, String.toList_ofList, percentEncode, List.mem_flatMap] at h
  obtain ⟨d, -, hc⟩ := h
  unfold encodeChar at hc
  split at hc
  · simp only [percentBytes, List.mem_flatMap] at hc
    obtain ⟨b, -, hc⟩ := hc
    have hb : b.toNat < 256 := b.toNat_lt
    simp only [percentByte, List.mem_cons, List.not_mem_nil, or_false] at hc
    rcases hc with rfl | rfl | rfl
    · exact .inr rfl
    · exact .inl (hdigits ⟨b.toNat / 16, by omega⟩)
    · exact .inl (hdigits ⟨b.toNat % 16, by omega⟩)
  · next hkept =>
      rw [List.mem_singleton] at hc
      subst hc
      exact .inl (by simpa using hkept)

theorem percentDecode_of_notMem {s : List Char} (h : '%' ∉ s) :
    percentDecode s = some (s.flatMap utf8EncodeChar) := by
  induction s with
  | nil => rfl
  | cons c s ih =>
      rw [List.mem_cons, not_or] at h
      rw [percentDecode_cons (Ne.symm h.1), ih h.2, List.flatMap_cons]
      rfl

theorem percentDecode_append_eq_none {s rest : List Char} (h : '%' ∉ s)
    (hrest : percentDecode rest = none) : percentDecode (s ++ rest) = none := by
  induction s with
  | nil => exact hrest
  | cons c s ih =>
      rw [List.mem_cons, not_or] at h
      rw [List.cons_append, percentDecode_cons (Ne.symm h.1), ih h.2]
      rfl

/-- A text throws where its first `%` does not start an escape. -/
theorem decodeURIComponent_eq_none {s : String} {before after : List Char}
    (hs : s.toList = before ++ '%' :: after) (hbefore : '%' ∉ before)
    (hstray : ∀ hi lo rest, after = hi :: lo :: rest → hexValue hi = none ∨ hexValue lo = none) :
    decodeURIComponent s = none := by
  have hdecode := percentDecode_append_eq_none hbefore (percentDecode_percent_eq_none hstray)
  rw [decodeURIComponent, hs, hdecode]
  rfl

/-- A text without escapes is read as it stands. -/
theorem decodeURIComponent_eq_self {s : String} (h : '%' ∉ s.toList) :
    decodeURIComponent s = some s := by
  simp [decodeURIComponent, percentDecode_of_notMem h, utf8Decode_flatMap]

theorem encodeURIComponent_injective : Function.Injective encodeURIComponent := by
  intro s t h
  have hdecoded := congrArg decodeURIComponent h
  simpa [decodeURIComponent_encodeURIComponent] using hdecoded

end NestQueueExample.PercentEncoding
