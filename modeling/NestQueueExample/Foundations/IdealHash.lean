import Mathlib.Data.List.Basic
import Mathlib.Logic.Equiv.List
import Mathlib.Logic.Function.Iterate

/-!
# Ideal hashes

A hash without collisions and with digests of one length. No such function
maps bytes to bytes, so the texts are lists over any type of symbols in which
the bytes can be told apart. A digest that is hashed again with the same
content, round after round, still identifies where it started and the content.
-/

namespace NestQueueExample

structure IdealHash (α : Type*) where
  ofByte : UInt8 → α
  ofByte_injective : Function.Injective ofByte
  digest : List α → List α
  digest_injective : Function.Injective digest
  length : ℕ
  length_digest : ∀ content, (digest content).length = length

namespace IdealHash

variable {α : Type*} (H : IdealHash α)

/-- Hash the digest together with the content, `n` times. -/
def rounds (content : List α) (n : ℕ) (digest : List α) : List α :=
  (fun digest ↦ H.digest (digest ++ content))^[n] digest

theorem rounds_succ (content : List α) (n : ℕ) (digest : List α) :
    H.rounds content (n + 1) digest = H.digest (H.rounds content n digest ++ content) :=
  Function.iterate_succ_apply' _ n digest

theorem length_rounds (content : List α) (n : ℕ) {digest : List α}
    (h : digest.length = H.length) : (H.rounds content n digest).length = H.length := by
  cases n with
  | zero => exact h
  | succ n => rw [rounds_succ, H.length_digest]

theorem rounds_eq_iff {a b d e : List α} (hd : d.length = H.length) (he : e.length = H.length)
    (n : ℕ) : H.rounds a n d = H.rounds b n e ↔ d = e ∧ (n = 0 ∨ a = b) := by
  induction n with
  | zero => simp [rounds]
  | succ n ih =>
      have hlen : (H.rounds a n d).length = (H.rounds b n e).length := by
        rw [H.length_rounds a n hd, H.length_rounds b n he]
      rw [rounds_succ, rounds_succ, H.digest_injective.eq_iff]
      constructor
      · intro h
        obtain ⟨hdigests, hcontent⟩ := List.append_inj h hlen
        exact ⟨(ih.mp hdigests).1, Or.inr hcontent⟩
      · rintro ⟨hstart, hzero | hcontent⟩
        · contradiction
        · rw [ih.mpr ⟨hstart, Or.inr hcontent⟩, hcontent]

/-- The hash over numbers whose digest is the code of the text. -/
def coded : IdealHash ℕ where
  ofByte := UInt8.toNat
  ofByte_injective _ _ h := UInt8.toNat_inj.mp h
  digest content := [Encodable.encode content]
  digest_injective _ _ h := Encodable.encode_injective (List.singleton_injective h)
  length := 1
  length_digest _ := rfl

end IdealHash

end NestQueueExample
