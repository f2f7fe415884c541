import Mathlib.Algebra.Order.Field.Rat
import NestQueueExample.Foundations.IdealHash
import NestQueueExample.Foundations.Utf16

/-!
# Invoice rendering

The render of an invoice hashes its id and then, round after round, the digest
together with its lines. The lines are fed to the hash one after the other with
nothing between them, so the checksum identifies the id of the invoice and the
text of all its lines, and not where one line ends.
-/

namespace NestQueueExample.Workers

open Utf16

def HASH_ROUNDS : ℕ := 10000

structure InvoiceRenderData where
  invoiceId : CodeUnits
  lines : List CodeUnits
  deriving DecidableEq

structure InvoiceRenderResult (α : Type) where
  invoiceId : CodeUnits
  checksum : List α
  durationMs : ℚ

/-! ## The endpoint -/

def MAX_INVOICE_ID_LENGTH : ℕ := 128

def MAX_INVOICE_LINES : ℕ := 1000

def MAX_LINE_LENGTH : ℕ := 512

/-- A digit or a letter. -/
def isWordStart (unit : UInt16) : Bool :=
  0x30 ≤ unit.toNat && unit.toNat ≤ 0x39 || 0x41 ≤ unit.toNat && unit.toNat ≤ 0x5a ||
    0x61 ≤ unit.toNat && unit.toNat ≤ 0x7a

/-- A digit, a letter, `_` or `-`. -/
def isWordUnit (unit : UInt16) : Bool :=
  isWordStart unit || unit.toNat = 0x5f || unit.toNat = 0x2d

def invoiceIdPattern : CodeUnits → Bool
  | [] => false
  | first :: units => isWordStart first && units.all isWordUnit

/-- The bodies that the schema of the render endpoint accepts. -/
def renderSchema (data : InvoiceRenderData) : Bool :=
  1 ≤ data.invoiceId.length && data.invoiceId.length ≤ MAX_INVOICE_ID_LENGTH &&
    invoiceIdPattern data.invoiceId &&
    data.lines.all (fun line ↦ line.length ≤ MAX_LINE_LENGTH) &&
    1 ≤ data.lines.length && data.lines.length ≤ MAX_INVOICE_LINES

abbrev RenderRequest := {data : InvoiceRenderData // renderSchema data = true}

theorem toNat_lt_of_isWordStart {unit : UInt16} (h : isWordStart unit = true) :
    unit.toNat < 128 := by
  simp only [isWordStart, Bool.or_eq_true, Bool.and_eq_true, decide_eq_true_eq] at h
  omega

theorem toNat_lt_of_isWordUnit {unit : UInt16} (h : isWordUnit unit = true) :
    unit.toNat < 128 := by
  simp only [isWordUnit, Bool.or_eq_true, decide_eq_true_eq] at h
  rcases h with (hstart | hunderscore) | hdash
  · exact toNat_lt_of_isWordStart hstart
  · omega
  · omega

theorem RenderRequest.isAscii_invoiceId (request : RenderRequest) :
    IsAscii request.1.invoiceId := by
  have hschema := request.2
  simp only [renderSchema, Bool.and_eq_true] at hschema
  have hpattern := hschema.1.1.1.2
  intro unit hunit
  cases hid : request.1.invoiceId with
  | nil => simp [hid] at hunit
  | cons first units =>
      rw [hid] at hpattern hunit
      simp only [invoiceIdPattern, Bool.and_eq_true, List.all_eq_true] at hpattern
      rcases List.mem_cons.mp hunit with rfl | hrest
      · exact toNat_lt_of_isWordStart hpattern.1
      · exact toNat_lt_of_isWordUnit (hpattern.2 unit hrest)

/-! ## The render -/

section Render

variable {α : Type} (H : IdealHash α)

/-- `hash.update(text)`: the text joins what was updated before. -/
def update (hash : List α) (text : CodeUnits) : List α := hash ++ (utf8 text).map H.ofByte

def hashRound (lines : List CodeUnits) (digest : List α) : List α :=
  H.digest (lines.foldl (update H) digest)

def renderInvoice (data : InvoiceRenderData) (startedAt finishedAt : ℚ) :
    InvoiceRenderResult α where
  invoiceId := data.invoiceId
  checksum := (hashRound H data.lines)^[HASH_ROUNDS] (H.digest (update H [] data.invoiceId))
  durationMs := finishedAt - startedAt

/-- The bytes of all lines, without what would tell where a line ends. -/
def joinedBytes (lines : List CodeUnits) : List UInt8 := lines.flatMap utf8

theorem foldl_update (lines : List CodeUnits) (hash : List α) :
    lines.foldl (update H) hash = hash ++ (joinedBytes lines).map H.ofByte := by
  induction lines generalizing hash with
  | nil => simp [joinedBytes]
  | cons line lines ih => simp [ih, update, joinedBytes]

theorem checksum_eq_rounds (data : InvoiceRenderData) (startedAt finishedAt : ℚ) :
    (renderInvoice H data startedAt finishedAt).checksum =
      H.rounds ((joinedBytes data.lines).map H.ofByte) HASH_ROUNDS
        (H.digest ((utf8 data.invoiceId).map H.ofByte)) := by
  have hround : hashRound H data.lines = fun digest ↦
      H.digest (digest ++ (joinedBytes data.lines).map H.ofByte) := by
    funext digest
    rw [hashRound, foldl_update]
  simp only [renderInvoice, update, List.nil_append, IdealHash.rounds, hround]

/-- The checksum identifies the id and the joined bytes of the lines. -/
theorem checksum_eq_iff (x y : RenderRequest) (s t s' t' : ℚ) :
    (renderInvoice H x.1 s t).checksum = (renderInvoice H y.1 s' t').checksum ↔
      x.1.invoiceId = y.1.invoiceId ∧ joinedBytes x.1.lines = joinedBytes y.1.lines := by
  have hpos : HASH_ROUNDS ≠ 0 := Nat.succ_ne_zero 9999
  have hbytes := H.ofByte_injective.list_map
  rw [checksum_eq_rounds, checksum_eq_rounds,
    H.rounds_eq_iff (H.length_digest _) (H.length_digest _), H.digest_injective.eq_iff,
    hbytes.eq_iff, hbytes.eq_iff, or_iff_right hpos]
  refine and_congr_left' ⟨utf8_injective x.isAscii_invoiceId y.isAscii_invoiceId, ?_⟩
  exact congrArg utf8

/-- Equal checksums are those of equal ids and lines, but for two requests with
one id whose lines differ and have the same bytes one after the other. -/
theorem checksum_identifies_iff (x y : RenderRequest) (s t s' t' : ℚ) :
    ((renderInvoice H x.1 s t).checksum = (renderInvoice H y.1 s' t').checksum ↔
        x.1.invoiceId = y.1.invoiceId ∧ x.1.lines = y.1.lines) ↔
      ¬ (x.1.invoiceId = y.1.invoiceId ∧ x.1.lines ≠ y.1.lines ∧
        joinedBytes x.1.lines = joinedBytes y.1.lines) := by
  rw [checksum_eq_iff]
  constructor
  · rintro h ⟨hid, hlines, hbytes⟩
    exact hlines (h.mp ⟨hid, hbytes⟩).2
  · intro h
    constructor
    · rintro ⟨hid, hbytes⟩
      refine ⟨hid, ?_⟩
      by_contra hlines
      exact h ⟨hid, hlines, hbytes⟩
    · rintro ⟨hid, hlines⟩
      exact ⟨hid, congrArg joinedBytes hlines⟩

end Render

/-- The id `i1` with the line `ab`. -/
def oneLineRequest : RenderRequest := ⟨⟨[0x69, 0x31], [[0x61, 0x62]]⟩, by decide⟩

/-- The id `i1` with the lines `a` and `b`. -/
def twoLinesRequest : RenderRequest := ⟨⟨[0x69, 0x31], [[0x61], [0x62]]⟩, by decide⟩

theorem joined_lines_same_checksum :
    ¬ ((renderInvoice IdealHash.coded oneLineRequest.1 0 1).checksum =
          (renderInvoice IdealHash.coded twoLinesRequest.1 0 1).checksum ↔
        oneLineRequest.1.invoiceId = twoLinesRequest.1.invoiceId ∧
          oneLineRequest.1.lines = twoLinesRequest.1.lines) := by
  intro h
  have hlines := (h.mp ((checksum_eq_iff _ _ _ _ _ _ _).mpr ⟨rfl, by decide⟩)).2
  exact absurd hlines (by decide)

end NestQueueExample.Workers
