import Mathlib.Data.List.Basic
import Mathlib.Data.List.Infix
import Mathlib.Tactic.TypeStar
import NestQueueExample.Foundations.Utf8Decoder

/-!
# Searching lines for phrases

The lines of a text, and two kinds of case-insensitive patterns: a word, and a
word that another one follows in the same line. What a pattern finds has no
line break, so it is in some line of a text exactly when it is in the text, and
it begins and ends with ASCII words, so that its bytes can be cut out.
-/

namespace NestQueueExample.TextSearch

open Utf8Decoder

/-! ## Lines -/

section Split

variable {α : Type*} [DecidableEq α] {sep : α}

theorem exists_splitOn_eq_cons (sep : α) (xs : List α) :
    ∃ head tail, xs.splitOn sep = head :: tail ∧ head <+: xs ∧ ∀ piece ∈ tail, piece <:+: xs := by
  induction xs with
  | nil => exact ⟨[], [], List.splitOn_nil sep, List.prefix_refl _, by simp⟩
  | cons x xs ih =>
      obtain ⟨head, tail, hsplit, hhead, htail⟩ := ih
      rw [List.splitOn_cons_eq_if_modifyHead, hsplit]
      split
      · refine ⟨[], head :: tail, rfl, List.nil_prefix, ?_⟩
        rintro piece hpiece
        rcases List.mem_cons.mp hpiece with rfl | hmem
        · exact hhead.isInfix.trans (List.suffix_cons x xs).isInfix
        · exact (htail piece hmem).trans (List.suffix_cons x xs).isInfix
      · refine ⟨x :: head, tail, rfl, List.cons_prefix_cons.mpr ⟨rfl, hhead⟩, ?_⟩
        exact fun piece hmem ↦ (htail piece hmem).trans (List.suffix_cons x xs).isInfix

theorem infix_of_mem_splitOn {xs piece : List α} (h : piece ∈ xs.splitOn sep) :
    piece <:+: xs := by
  obtain ⟨head, tail, hsplit, hhead, htail⟩ := exists_splitOn_eq_cons sep xs
  rw [hsplit] at h
  rcases List.mem_cons.mp h with rfl | hmem
  · exact hhead.isInfix
  · exact htail piece hmem

theorem prefix_head_splitOn {phrase xs : List α} (hsep : sep ∉ phrase) (h : phrase <+: xs) :
    ∃ head tail, xs.splitOn sep = head :: tail ∧ phrase <+: head := by
  induction phrase generalizing xs with
  | nil =>
      obtain ⟨head, tail, hsplit, -, -⟩ := exists_splitOn_eq_cons sep xs
      exact ⟨head, tail, hsplit, List.nil_prefix⟩
  | cons p phrase ih =>
      cases xs with
      | nil => simp at h
      | cons x xs =>
          obtain ⟨rfl, hrest⟩ := List.cons_prefix_cons.mp h
          rw [List.mem_cons, not_or] at hsep
          obtain ⟨head, tail, hsplit, hhead⟩ := ih hsep.2 hrest
          rw [List.splitOn_cons_eq_if_modifyHead, hsplit, if_neg (by simpa using Ne.symm hsep.1)]
          exact ⟨p :: head, tail, rfl, List.cons_prefix_cons.mpr ⟨rfl, hhead⟩⟩

/-- A phrase without the separator is in the text exactly when it is in one of
its pieces. -/
theorem exists_piece_iff {phrase xs : List α} (hsep : sep ∉ phrase) :
    (∃ piece ∈ xs.splitOn sep, phrase <:+: piece) ↔ phrase <:+: xs := by
  constructor
  · rintro ⟨piece, hpiece, hphrase⟩
    exact hphrase.trans (infix_of_mem_splitOn hpiece)
  · intro h
    induction xs with
    | nil =>
        refine ⟨[], ?_, h⟩
        rw [List.splitOn_nil]
        exact List.mem_singleton_self []
    | cons x xs ih =>
        rcases List.infix_cons_iff.mp h with hprefix | hinfix
        · obtain ⟨head, tail, hsplit, hhead⟩ := prefix_head_splitOn hsep hprefix
          exact ⟨head, by simp [hsplit], hhead.isInfix⟩
        · obtain ⟨piece, hpiece, hphrase⟩ := ih hinfix
          rw [List.splitOn_cons_eq_if_modifyHead]
          split
          · exact ⟨piece, List.mem_cons_of_mem _ hpiece, hphrase⟩
          · cases hsplit : xs.splitOn sep with
            | nil => exact absurd hsplit (List.splitOn_ne_nil sep xs)
            | cons head tail =>
                rw [hsplit] at hpiece
                rcases List.mem_cons.mp hpiece with rfl | hmem
                · exact ⟨x :: piece, by simp, hphrase.trans (List.suffix_cons x _).isInfix⟩
                · exact ⟨piece, by simp [hmem], hphrase⟩

end Split

def lines (text : List Char) : List (List Char) := text.splitOn '\n'

/-! ## Patterns -/

/-- A character that `.` does not match. -/
def isLineTerminator (c : Char) : Bool := ['\n', '\r', '\u2028', '\u2029'].contains c

/-- The text starts with the word, which is given in lower case. -/
def startsWithWord (word text : List Char) : Bool :=
  (text.take word.length).map Char.toLower == word

/-- `/word/i.test(text)`. -/
def hasWord (word : List Char) : List Char → Bool
  | [] => startsWithWord word []
  | c :: text => startsWithWord word (c :: text) || hasWord word text

/-- `/^.*word/i.test(text)`. -/
def hasWordInLine (word : List Char) : List Char → Bool
  | [] => startsWithWord word []
  | c :: text =>
      startsWithWord word (c :: text) || !isLineTerminator c && hasWordInLine word text

/-- `/first.*last/i.test(text)`. -/
def hasPhrase (first last : List Char) : List Char → Bool
  | [] => startsWithWord first [] && hasWordInLine last []
  | c :: text =>
      startsWithWord first (c :: text) && hasWordInLine last ((c :: text).drop first.length) ||
        hasPhrase first last text

/-- The text is one match of `/first.*last/i`. -/
def IsPhrase (first last phrase : List Char) : Prop :=
  ∃ start middle stop, phrase = start ++ (middle ++ stop) ∧ start.map Char.toLower = first ∧
    (∀ c ∈ middle, isLineTerminator c = false) ∧ stop.map Char.toLower = last

theorem startsWithWord_iff {word text : List Char} :
    startsWithWord word text = true ↔
      ∃ found rest, text = found ++ rest ∧ found.map Char.toLower = word := by
  rw [startsWithWord, beq_iff_eq]
  constructor
  · intro h
    exact ⟨text.take word.length, text.drop word.length, (List.take_append_drop _ _).symm, h⟩
  · rintro ⟨found, rest, rfl, rfl⟩
    simp

theorem hasWordInLine_iff {word text : List Char} :
    hasWordInLine word text = true ↔ ∃ middle stop rest, text = middle ++ (stop ++ rest) ∧
      (∀ c ∈ middle, isLineTerminator c = false) ∧ stop.map Char.toLower = word := by
  induction text with
  | nil =>
      rw [hasWordInLine, startsWithWord_iff]
      constructor
      · rintro ⟨found, rest, htext, hword⟩
        exact ⟨[], found, rest, htext, by simp, hword⟩
      · rintro ⟨middle, stop, rest, htext, -, hword⟩
        obtain ⟨-, hstop⟩ := List.append_eq_nil_iff.mp htext.symm
        exact ⟨stop, rest, hstop.symm, hword⟩
  | cons c text ih =>
      rw [hasWordInLine, Bool.or_eq_true, Bool.and_eq_true, Bool.not_eq_true', startsWithWord_iff,
        ih]
      constructor
      · rintro (⟨found, rest, htext, hword⟩ | ⟨hc, middle, stop, rest, rfl, hmiddle, hword⟩)
        · exact ⟨[], found, rest, htext, by simp, hword⟩
        · exact ⟨c :: middle, stop, rest, rfl, List.forall_mem_cons.mpr ⟨hc, hmiddle⟩, hword⟩
      · rintro ⟨middle, stop, rest, htext, hmiddle, hword⟩
        cases middle with
        | nil => exact Or.inl ⟨stop, rest, htext, hword⟩
        | cons d middle =>
            obtain ⟨rfl, hrest⟩ := List.cons.inj htext
            rw [List.forall_mem_cons] at hmiddle
            exact Or.inr ⟨hmiddle.1, middle, stop, rest, hrest, hmiddle.2, hword⟩

theorem exists_prefix_phrase_iff {first last text : List Char} :
    (startsWithWord first text && hasWordInLine last (text.drop first.length)) = true ↔
      ∃ phrase, phrase <+: text ∧ IsPhrase first last phrase := by
  rw [Bool.and_eq_true, startsWithWord_iff, hasWordInLine_iff]
  constructor
  · rintro ⟨⟨start, rest, rfl, rfl⟩, middle, stop, after, hrest, hmiddle, hstop⟩
    rw [List.length_map, List.drop_left] at hrest
    refine ⟨start ++ (middle ++ stop), ⟨after, ?_⟩, start, middle, stop, rfl, rfl, hmiddle, hstop⟩
    rw [hrest, List.append_assoc, List.append_assoc]
  · rintro ⟨phrase, ⟨after, rfl⟩, start, middle, stop, rfl, rfl, hmiddle, hstop⟩
    rw [List.append_assoc, List.append_assoc, List.length_map, List.drop_left]
    exact ⟨⟨start, middle ++ (stop ++ after), rfl, rfl⟩, middle, stop, after, rfl, hmiddle, hstop⟩

theorem hasPhrase_iff {first last text : List Char} :
    hasPhrase first last text = true ↔
      ∃ phrase, phrase <:+: text ∧ IsPhrase first last phrase := by
  induction text with
  | nil =>
      have hhere := @exists_prefix_phrase_iff first last []
      simpa [hasPhrase] using hhere
  | cons c text ih =>
      rw [hasPhrase, Bool.or_eq_true, exists_prefix_phrase_iff, ih]
      simp only [List.infix_cons_iff, or_and_right, exists_or]

theorem isLineTerminator_newline : isLineTerminator '\n' = true := by decide

theorem newline_notMem_of_map_toLower {word text : List Char} (hword : '\n' ∉ word)
    (h : text.map Char.toLower = word) : '\n' ∉ text := by
  intro hmem
  exact hword (h ▸ List.mem_map.mpr ⟨'\n', hmem, by decide⟩)

section Words

variable {first last : List Char} (hfirst : '\n' ∉ first) (hlast : '\n' ∉ last)
include hfirst hlast

theorem IsPhrase.newline_notMem {phrase : List Char} (h : IsPhrase first last phrase) :
    '\n' ∉ phrase := by
  obtain ⟨start, middle, stop, rfl, hstart, hmiddle, hstop⟩ := h
  rw [List.mem_append, List.mem_append]
  rintro (hmem | hmem | hmem)
  · exact newline_notMem_of_map_toLower hfirst hstart hmem
  · exact absurd (hmiddle _ hmem) (by simp [isLineTerminator_newline])
  · exact newline_notMem_of_map_toLower hlast hstop hmem

/-- A phrase is in some line of a text exactly when it is in the text. -/
theorem any_lines_hasPhrase_iff {text : List Char} :
    (lines text).any (hasPhrase first last) = true ↔
      ∃ phrase, phrase <:+: text ∧ IsPhrase first last phrase := by
  rw [List.any_eq_true]
  constructor
  · rintro ⟨line, hline, hphrase⟩
    obtain ⟨phrase, hinfix, hmatch⟩ := hasPhrase_iff.mp hphrase
    exact ⟨phrase, hinfix.trans (infix_of_mem_splitOn hline), hmatch⟩
  · rintro ⟨phrase, hinfix, hmatch⟩
    obtain ⟨line, hline, hin⟩ :=
      (exists_piece_iff (hmatch.newline_notMem hfirst hlast)).mpr hinfix
    exact ⟨line, hline, hasPhrase_iff.mpr ⟨phrase, hin, hmatch⟩⟩

end Words

/-! ## Phrases in bytes -/

theorem toNat_lt_of_toLower {c : Char} (h : c.toLower.toNat < 0x80) : c.toNat < 0x80 := by
  by_cases hupper : c.val ≥ 'A'.val ∧ c.val ≤ 'Z'.val
  · have hle : c.toNat ≤ 'Z'.toNat := UInt32.le_iff_toNat_le.mp hupper.2
    exact Nat.lt_of_le_of_lt hle (by decide)
  · have hsame : c.toLower = c := dif_neg hupper
    rwa [hsame] at h

theorem isAscii_of_map_toLower {word text : List Char} (hword : IsAscii word)
    (h : text.map Char.toLower = word) : IsAscii text := by
  intro c hc
  exact toNat_lt_of_toLower (hword _ (h ▸ List.mem_map_of_mem hc))

/-- What is read as one text between two ASCII texts is bytes of that text between
the bytes of the two. -/
theorem decode_eq_between_iff {start stop : List Char} (hstart : IsAscii start)
    (hstop : IsAscii stop) (hstart_ne : start ≠ []) (hstop_ne : stop ≠ []) {middle : List Char}
    {segment : List UInt8} :
    decode segment = start ++ (middle ++ stop) ↔
      ∃ between, segment = start.map asciiByte ++ (between ++ stop.map asciiByte) ∧
        decode between = middle := by
  constructor
  · intro h
    rw [← List.nil_append (start ++ _)] at h
    obtain ⟨xs, ys, rfl, hxs, hys⟩ := exists_of_decode_eq hstart hstart_ne h
    obtain rfl := eq_nil_of_decode_eq_nil hxs
    rw [← List.append_nil stop] at hys
    obtain ⟨zs, rest, rfl, hzs, hrest⟩ := exists_of_decode_eq hstop hstop_ne hys
    obtain rfl := eq_nil_of_decode_eq_nil hrest
    exact ⟨zs, by simp, hzs⟩
  · rintro ⟨between, rfl, rfl⟩
    have hend := decode_append_ascii hstop hstop_ne between []
    rw [List.append_nil] at hend
    rw [decode_ascii_append hstart, hend]
    simp [decode, decodeFrom, flush]

/-- A phrase is in what is read exactly when some bytes are read as one, without
those around them. -/
theorem exists_segment_iff {first last : List Char} (hfirst : IsAscii first)
    (hlast : IsAscii last) (hfirst_ne : first ≠ []) (hlast_ne : last ≠ []) {bytes : List UInt8} :
    (∃ phrase, phrase <:+: decode bytes ∧ IsPhrase first last phrase) ↔
      ∃ segment, segment <:+: bytes ∧ IsPhrase first last (decode segment) := by
  have hascii : ∀ {word text : List Char}, IsAscii word → word ≠ [] →
      text.map Char.toLower = word → IsAscii text ∧ text ≠ [] := by
    rintro word text hword hne rfl
    exact ⟨isAscii_of_map_toLower hword rfl, fun h ↦ hne (List.map_eq_nil_iff.mpr h)⟩
  constructor
  · rintro ⟨_, ⟨before, after, hdecode⟩, start, middle, stop, rfl, hstart, hmiddle, hstop⟩
    obtain ⟨hstart_ascii, hstart_ne⟩ := hascii hfirst hfirst_ne hstart
    obtain ⟨hstop_ascii, hstop_ne⟩ := hascii hlast hlast_ne hstop
    simp only [List.append_assoc] at hdecode
    obtain ⟨xs, ys, rfl, -, hys⟩ := exists_of_decode_eq hstart_ascii hstart_ne hdecode.symm
    obtain ⟨zs, rest, rfl, hzs, -⟩ := exists_of_decode_eq hstop_ascii hstop_ne hys
    refine ⟨start.map asciiByte ++ (zs ++ stop.map asciiByte), ⟨xs, rest, by simp⟩, ?_⟩
    exact ⟨start, middle, stop, (decode_eq_between_iff hstart_ascii hstop_ascii hstart_ne
      hstop_ne).mpr ⟨zs, rfl, hzs⟩, hstart, hmiddle, hstop⟩
  · rintro ⟨segment, ⟨xs, ys, rfl⟩, start, middle, stop, hsegment, hstart, hmiddle, hstop⟩
    obtain ⟨hstart_ascii, hstart_ne⟩ := hascii hfirst hfirst_ne hstart
    obtain ⟨hstop_ascii, hstop_ne⟩ := hascii hlast hlast_ne hstop
    obtain ⟨between, rfl, rfl⟩ :=
      (decode_eq_between_iff hstart_ascii hstop_ascii hstart_ne hstop_ne).mp hsegment
    refine ⟨start ++ (decode between ++ stop), ⟨decode xs, decode ys, ?_⟩, start, decode between,
      stop, rfl, hstart, hmiddle, hstop⟩
    simp only [List.append_assoc]
    rw [decode_append_ascii hstart_ascii hstart_ne, decode_append_ascii hstop_ascii hstop_ne]

end NestQueueExample.TextSearch
