import NestQueueExample.Foundations.JsValue
import NestQueueExample.Foundations.UrlPath

/-!
# Query strings

The text between the first `?` of a request path and its fragment is cut at the
ampersands into pairs, and each pair at its first equals sign. Names and values
of unreserved characters are read as they are written, and the segments of the
path are those of the text before the query.
-/

namespace NestQueueExample.UrlQuery

open PercentEncoding UrlPath

/-! ## Parsing -/

/-- The query percent-encode set of the URL standard for special schemes. -/
def queryEncoded (c : Char) : Bool :=
  isC0ControlOrHigh c || [' ', '"', '#', '<', '>', '\x27'].contains c

def queryText (text : List Char) : List Char :=
  percentEncode queryEncoded
    ((((clean text).takeWhile (· ≠ '#')).dropWhile (· ≠ '?')).tail)

/-- `none` for a malformed escape. -/
def decodeComponent (s : List Char) : Option String :=
  decodeURIComponent (String.ofList (s.map fun c ↦ if c = '+' then ' ' else c))

def parsePair (s : List Char) : Option (String × String) := do
  let name ← decodeComponent (s.takeWhile (· ≠ '='))
  let value ← decodeComponent (s.dropWhile (· ≠ '=')).tail
  some (name, value)

def parseQuery (text : String) : Option (List (String × String)) :=
  (((queryText text.toList).splitOnP (· = '&')).filter (· ≠ [])).mapM parsePair

/-- The object of the pairs: a name that comes again collects its values. -/
def addPair (slots : List (Slot × JsValue)) (pair : String × String) : List (Slot × JsValue) :=
  match JsValue.get? slots pair.1 with
  | none => slots ++ [(.own pair.1, .string pair.2)]
  | some (.array items) => JsValue.put slots (.own pair.1) (.array (items ++ [.string pair.2]))
  | some old => JsValue.put slots (.own pair.1) (.array [old, .string pair.2])

def queryObject (pairs : List (String × String)) : JsValue := .object (pairs.foldl addPair [])

/-! ## Plain queries -/

def isWordChar (c : Char) : Bool := c.isAlphanum || c = '-' || c = '_'

def IsWord (s : List Char) : Prop := ∀ c ∈ s, isWordChar c = true

/-- A character that a query keeps and that separates nothing. -/
def isKept (c : Char) : Bool :=
  !queryEncoded c && !isBlank c && !(['&', '=', '+', '%', '#', '?'].contains c)

def pairText (pair : List Char × List Char) : List Char := pair.1 ++ '=' :: pair.2

def pairsText : List (List Char × List Char) → List Char
  | [] => []
  | pair :: rest => pairText pair ++ rest.flatMap fun pair ↦ '&' :: pairText pair

theorem isUnreserved_of_isWordChar {c : Char} (h : isWordChar c = true) :
    isUnreserved c = true := by
  simp only [isWordChar, Bool.or_eq_true, decide_eq_true_eq] at h
  rcases h with (halphanum | rfl) | rfl
  · rw [isUnreserved, halphanum, Bool.true_or]
  · decide
  · decide

theorem isKept_of_isWordChar {c : Char} (h : isWordChar c = true) : isKept c = true :=
  of_isUnreserved (p := fun c ↦ isWordChar c = true → isKept c = true) (by decide)
    (isUnreserved_of_isWordChar h) h

theorem ne_of_isWordChar {c d : Char} (h : isWordChar c = true) (hd : isWordChar d = false) :
    c ≠ d := by
  rintro rfl
  rw [h] at hd
  exact Bool.noConfusion hd

theorem plainSegment_of_isWord {s : List Char} (h : IsWord s) : PlainSegment s ∧ '%' ∉ s := by
  constructor
  · apply plainSegment_of_unreserved fun c hc ↦ .inl (isUnreserved_of_isWordChar (h c hc))
    intro c hc
    have hword := h c (List.mem_of_mem_head? hc)
    exact ⟨ne_of_isWordChar hword (by decide), ne_of_isWordChar hword (by decide)⟩
  · exact fun hmem ↦ ne_of_isWordChar (h '%' hmem) (by decide) rfl

theorem ne_of_isKept {c d : Char} (h : isKept c = true) (hd : isKept d = false) : c ≠ d := by
  rintro rfl
  rw [h] at hd
  exact Bool.noConfusion hd

section Plain

variable {pair : List Char × List Char} {pairs : List (List Char × List Char)}

theorem splitOnP_append_flatMap {α : Type*} {p : α → Bool} {sep : α} (hsep : p sep = true)
    {s : List α} {rest : List (List α)} (hs : ∀ a ∈ s, p a = false)
    (hrest : ∀ t ∈ rest, ∀ a ∈ t, p a = false) :
    (s ++ rest.flatMap fun t ↦ sep :: t).splitOnP p = s :: rest := by
  induction rest generalizing s with
  | nil => simp [List.splitOnP_eq_singleton hs]
  | cons t rest ih =>
      have hcons : (s ++ (t :: rest).flatMap fun t ↦ sep :: t) =
          s ++ sep :: (t ++ rest.flatMap fun t ↦ sep :: t) := by
        simp
      rw [hcons, List.splitOnP_append_cons_of_forall_mem hs sep hsep,
        ih (hrest t (by simp)) fun u hu ↦ hrest u (by simp [hu])]

theorem mem_pairText (hname : IsWord pair.1) (hvalue : IsWord pair.2) :
    ∀ c ∈ pairText pair, isKept c = true ∨ c = '=' := by
  intro c hc
  rcases List.mem_append.mp hc with hc | hc
  · exact .inl (isKept_of_isWordChar (hname c hc))
  · rcases List.mem_cons.mp hc with rfl | hc
    · exact .inr rfl
    · exact .inl (isKept_of_isWordChar (hvalue c hc))

theorem decodeComponent_word {s : List Char} (h : IsWord s) :
    decodeComponent s = some (String.ofList s) := by
  have hplus : (s.map fun c ↦ if c = '+' then ' ' else c) = s := by
    calc (s.map fun c ↦ if c = '+' then ' ' else c) = s.map id :=
          List.map_congr_left fun c hc ↦
            if_neg (ne_of_isKept (isKept_of_isWordChar (h c hc)) (by decide))
      _ = s := List.map_id s
  have hpercent : '%' ∉ (String.ofList s).toList := by
    rw [String.toList_ofList]
    exact fun hmem ↦ absurd (h '%' hmem) (by decide)
  rw [decodeComponent, hplus, decodeURIComponent_eq_self hpercent]

theorem parsePair_pairText (hname : IsWord pair.1) (hvalue : IsWord pair.2) :
    parsePair (pairText pair) = some (String.ofList pair.1, String.ofList pair.2) := by
  have hkept : ∀ c ∈ pair.1, decide (c ≠ '=') = true := fun c hc ↦
    decide_eq_true (ne_of_isKept (isKept_of_isWordChar (hname c hc)) (by decide))
  have htake : (pairText pair).takeWhile (· ≠ '=') = pair.1 := by
    rw [pairText, List.takeWhile_append_of_pos hkept]
    simp
  have hdrop : ((pairText pair).dropWhile (· ≠ '=')).tail = pair.2 := by
    rw [pairText, List.dropWhile_append_of_pos hkept]
    simp
  rw [parsePair, htake, hdrop, decodeComponent_word hname, decodeComponent_word hvalue]
  rfl

theorem mem_pairsText (h : ∀ pair ∈ pairs, IsWord pair.1 ∧ IsWord pair.2) :
    ∀ c ∈ pairsText pairs, isKept c = true ∨ c = '=' ∨ c = '&' := by
  have hpair : ∀ pair ∈ pairs, ∀ c ∈ pairText pair, isKept c = true ∨ c = '=' ∨ c = '&' := by
    intro pair hpair c hc
    rcases mem_pairText (h pair hpair).1 (h pair hpair).2 c hc with hkept | rfl
    · exact .inl hkept
    · exact .inr (.inl rfl)
  intro c hc
  cases pairs with
  | nil => cases hc
  | cons pair rest =>
      rcases List.mem_append.mp hc with hc | hc
      · exact hpair pair List.mem_cons_self c hc
      · obtain ⟨other, hother, hc⟩ := List.mem_flatMap.mp hc
        rcases List.mem_cons.mp hc with rfl | hc
        · exact .inr (.inr rfl)
        · exact hpair other (List.mem_cons_of_mem pair hother) c hc

theorem queryText_pairsText {path : List Segment} (hpath : ∀ s ∈ path, PlainSegment s)
    (h : ∀ pair ∈ pairs, IsWord pair.1 ∧ IsWord pair.2) :
    queryText (pathText path ++ '?' :: pairsText pairs) = pairsText pairs := by
  have hchars : ∀ c ∈ pairsText pairs,
      isBlank c = false ∧ c ≠ '#' ∧ queryEncoded c = false := by
    intro c hc
    rcases mem_pairsText h c hc with hkept | rfl | rfl
    · refine ⟨?_, ne_of_isKept hkept (by decide), ?_⟩
      · simp only [isKept, Bool.and_eq_true, Bool.not_eq_true'] at hkept
        exact hkept.1.2
      · simp only [isKept, Bool.and_eq_true, Bool.not_eq_true'] at hkept
        exact hkept.1.1
    · decide
    · decide
  have hclean := clean_append_query hpath fun c hc ↦ (hchars c hc).1
  have hends : ∀ c ∈ pathText path, c ≠ '#' ∧ c ≠ '?' := by
    intro c hc
    have hc := (mem_pathText hpath c hc).2
    rw [endsPath, Bool.or_eq_false_iff, decide_eq_false_iff_not, decide_eq_false_iff_not] at hc
    exact ⟨hc.2, hc.1⟩
  have htake : (pathText path ++ '?' :: pairsText pairs).takeWhile (· ≠ '#') =
      pathText path ++ '?' :: pairsText pairs := by
    rw [List.takeWhile_eq_self_iff]
    intro c hc
    rcases List.mem_append.mp hc with hc | hc
    · exact decide_eq_true (hends c hc).1
    · rcases List.mem_cons.mp hc with rfl | hc
      · decide
      · exact decide_eq_true (hchars c hc).2.1
  have hdrop : (pathText path ++ '?' :: pairsText pairs).dropWhile (· ≠ '?') =
      '?' :: pairsText pairs := by
    rw [List.dropWhile_append_of_pos fun c hc ↦ decide_eq_true (hends c hc).2]
    simp
  rw [queryText, hclean, htake, hdrop, List.tail_cons]
  exact percentEncode_eq_self_iff.mpr fun c hc ↦ (hchars c hc).2.2

/-- A query written from words is read back as it was written. -/
theorem parseQuery_pairsText {path : List Segment} (hpath : ∀ s ∈ path, PlainSegment s)
    (h : ∀ pair ∈ pairs, IsWord pair.1 ∧ IsWord pair.2) :
    parseQuery (String.ofList (pathText path ++ '?' :: pairsText pairs)) =
      some (pairs.map fun pair ↦ (String.ofList pair.1, String.ofList pair.2)) := by
  have hsplit : ((pairsText pairs).splitOnP (· = '&')).filter (· ≠ []) = pairs.map pairText := by
    have hsep : ∀ pair ∈ pairs, ∀ c ∈ pairText pair, decide (c = '&') = false := by
      intro pair hpair c hc
      rcases mem_pairText (h pair hpair).1 (h pair hpair).2 c hc with hkept | rfl
      · exact decide_eq_false (ne_of_isKept hkept (by decide))
      · decide
    cases pairs with
    | nil => rfl
    | cons pair rest =>
        have htext : pairsText (pair :: rest) =
            pairText pair ++ (rest.map pairText).flatMap fun t ↦ '&' :: t := by
          rw [pairsText, List.flatMap_map]
        have hrest : ∀ t ∈ rest.map pairText, ∀ c ∈ t, decide (c = '&') = false := by
          intro t ht
          obtain ⟨other, hother, rfl⟩ := List.mem_map.mp ht
          exact hsep other (List.mem_cons_of_mem pair hother)
        rw [htext, splitOnP_append_flatMap (by decide) (hsep pair List.mem_cons_self) hrest,
          List.filter_eq_self.mpr]
        · rfl
        · intro t ht
          have hmap : t ∈ (pair :: rest).map pairText := ht
          obtain ⟨other, -, rfl⟩ := List.mem_map.mp hmap
          simp [pairText]
  have hparse : (pairs.map pairText).mapM parsePair =
      some (pairs.map fun pair ↦ (String.ofList pair.1, String.ofList pair.2)) := by
    rw [List.mapM_map]
    exact mapM_eq_some_map fun pair hpair ↦ parsePair_pairText (h pair hpair).1 (h pair hpair).2
  rw [parseQuery, String.toList_ofList, queryText_pairsText hpath h, hsplit, hparse]

end Plain

end NestQueueExample.UrlQuery
