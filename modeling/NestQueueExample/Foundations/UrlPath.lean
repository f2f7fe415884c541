import Mathlib.Data.List.DropRight
import NestQueueExample.Foundations.PercentEncoding

/-!
# Request paths and routes

How the text after the origin of an `http` URL becomes path segments (blanks at
its end go, tabs and newlines go, a `?` or `#` ends it, a backslash separates
like a slash, dot segments are resolved), and how a router matches the segments
against a pattern and decodes each parameter once. The first route of a table
that matches takes the path; where no two of its patterns agree on a path, the
order of the table does not matter.
-/

namespace NestQueueExample.UrlPath

open PercentEncoding

abbrev Segment : Type := List Char

/-! ## Parsing -/

def isTabOrNewline (c : Char) : Bool := ['\t', '\n', '\r'].contains c

def isBlank (c : Char) : Bool := c.toNat ≤ 0x20

def isSeparator (c : Char) : Bool := c = '/' || c = '\\'

def endsPath (c : Char) : Bool := c = '?' || c = '#'

def isC0ControlOrHigh (c : Char) : Bool := c.toNat < 0x20 || 0x7e < c.toNat

/-- The path percent-encode set of the URL standard. -/
def pathEncoded (c : Char) : Bool :=
  isC0ControlOrHigh c ||
    [' ', '"', '#', '<', '>', '?', '^', '\x60', '\x7b', '\x7d'].contains c

def isSingleDot (s : Segment) : Bool :=
  [".", "%2e"].contains (String.ofList (s.map Char.toLower))

def isDoubleDot (s : Segment) : Bool :=
  ["..", ".%2e", "%2e.", "%2e%2e"].contains (String.ofList (s.map Char.toLower))

/-- A dot segment at the end leaves an empty segment in its place. -/
def pushSegment (path : List Segment) (s : Segment) (isLast : Bool) : List Segment :=
  if isDoubleDot s then path.dropLast ++ (if isLast then [[]] else [])
  else if isSingleDot s then path ++ (if isLast then [[]] else [])
  else path ++ [s]

def resolve (path : List Segment) : List Segment → List Segment
  | [] => path
  | s :: rest => resolve (pushSegment path s rest.isEmpty) rest

def clean (text : List Char) : List Char :=
  (text.rdropWhile isBlank).filter fun c ↦ !isTabOrNewline c

def splitPath (text : List Char) : List Segment :=
  (((clean text).takeWhile fun c ↦ !endsPath c).splitOnP isSeparator).tail

/-- The path segments of a URL whose text from the path on, with its first
slash, is `text`. -/
def segments (text : List Char) : List Segment :=
  resolve [] ((splitPath text).map (percentEncode pathEncoded))

/-! ## Routing -/

inductive PatternSegment where
  | literal (text : String)
  | param
  deriving DecidableEq

/-- The undecoded parameters of a path that the pattern matches: letter case is
ignored in its literals, and one slash may follow at the end. -/
def matchRoute : List PatternSegment → List Segment → Option (List Segment)
  | [], [] => some []
  | [], [s] => if s.isEmpty then some [] else none
  | .literal text :: pattern, s :: path =>
      if String.ofList (s.map Char.toLower) = text then matchRoute pattern path else none
  | .param :: pattern, s :: path =>
      if s.isEmpty then none else (matchRoute pattern path).map (s :: ·)
  | _, _ => none

def decodeParam (s : Segment) : Option String := decodeURIComponent (String.ofList s)

def route (pattern : List PatternSegment) (text : String) : Option (List String) :=
  (matchRoute pattern (segments text.toList)).bind fun params ↦ params.mapM decodeParam

/-! ## Plain paths -/

def isPlain (c : Char) : Bool := !pathEncoded c && !isSeparator c

structure PlainSegment (s : Segment) : Prop where
  plain : ∀ c ∈ s, isPlain c = true
  notSingleDot : isSingleDot s = false
  notDoubleDot : isDoubleDot s = false

def pathText (path : List Segment) : List Char := path.flatMap fun s ↦ '/' :: s

theorem isSeparator_of_isPlain {c : Char} (h : isPlain c = true) : isSeparator c = false := by
  simp only [isPlain, Bool.and_eq_true, Bool.not_eq_true'] at h
  exact h.2

theorem pathEncoded_of_isPlain {c : Char} (h : isPlain c = true) : pathEncoded c = false := by
  simp only [isPlain, Bool.and_eq_true, Bool.not_eq_true'] at h
  exact h.1

theorem ne_of_pathEncoded {c d : Char} (hc : pathEncoded c = false) (hd : pathEncoded d = true) :
    c ≠ d := by
  rintro rfl
  rw [hc] at hd
  exact Bool.noConfusion hd

theorem not_isBlank_of_pathEncoded {c : Char} (h : pathEncoded c = false) :
    isBlank c = false := by
  have hspace : c ≠ ' ' := ne_of_pathEncoded h (by decide)
  have hcontrol : isC0ControlOrHigh c = false := by
    rw [pathEncoded, Bool.or_eq_false_iff] at h
    exact h.1
  simp only [isC0ControlOrHigh, Bool.or_eq_false_iff, decide_eq_false_iff_not] at hcontrol
  rw [isBlank, decide_eq_false_iff_not]
  intro hle
  have heq : c.toNat = ' '.toNat := by
    have hspaceNat : ' '.toNat = 0x20 := rfl
    omega
  exact hspace (Char.toNat_inj.mp heq)

theorem splitOnP_append_pathText {s : Segment} {path : List Segment}
    (hs : ∀ c ∈ s, isSeparator c = false)
    (hpath : ∀ t ∈ path, ∀ c ∈ t, isSeparator c = false) :
    (s ++ pathText path).splitOnP isSeparator = s :: path := by
  induction path generalizing s with
  | nil => simp [pathText, List.splitOnP_eq_singleton hs]
  | cons t path ih =>
      have hcons : s ++ pathText (t :: path) = s ++ '/' :: (t ++ pathText path) := by
        simp [pathText]
      rw [hcons, List.splitOnP_append_cons_of_forall_mem hs '/' (by decide),
        ih (hpath t (by simp)) fun u hu ↦ hpath u (by simp [hu])]

theorem resolve_plain {path rest : List Segment}
    (h : ∀ s ∈ rest, isSingleDot s = false ∧ isDoubleDot s = false) :
    resolve path rest = path ++ rest := by
  induction rest generalizing path with
  | nil => simp [resolve]
  | cons s rest ih =>
      obtain ⟨hsingle, hdouble⟩ := h s (by simp)
      have hpush : pushSegment path s rest.isEmpty = path ++ [s] := by
        simp [pushSegment, hsingle, hdouble]
      rw [resolve, hpush, ih fun t ht ↦ h t (by simp [ht]), List.append_assoc,
        List.singleton_append]

theorem isTabOrNewline_of_not_isBlank {c : Char} (h : isBlank c = false) :
    isTabOrNewline c = false := by
  by_contra htab
  have hall : ∀ d ∈ ['\t', '\n', '\r'], isBlank d = true :=
    List.all_eq_true.mp (by decide)
  have hmem : c ∈ ['\t', '\n', '\r'] := by
    rwa [isTabOrNewline, Bool.not_eq_false, List.contains_iff_mem] at htab
  rw [hall c hmem] at h
  exact Bool.noConfusion h

theorem clean_eq_self {text : List Char} (h : ∀ c ∈ text, isBlank c = false) :
    clean text = text := by
  have htrim : text.rdropWhile isBlank = text :=
    List.rdropWhile_eq_self_iff.mpr fun hne ↦ by simp [h _ (List.getLast_mem hne)]
  rw [clean, htrim, List.filter_eq_self]
  intro c hc
  rw [isTabOrNewline_of_not_isBlank (h c hc)]
  rfl

theorem not_dot_of_head {s : Segment} (h : ∀ c ∈ s.head?, c.toLower ≠ '.' ∧ c.toLower ≠ '%') :
    isSingleDot s = false ∧ isDoubleDot s = false := by
  cases s with
  | nil => decide
  | cons c s =>
      obtain ⟨hdot, hpercent⟩ := h c rfl
      have hnot : ∀ texts : List String,
          (∀ text ∈ texts, text.toList.head? = some '.' ∨ text.toList.head? = some '%') →
          texts.contains (String.ofList ((c :: s).map Char.toLower)) = false := by
        intro texts htexts
        rw [← Bool.not_eq_true, List.contains_iff_mem]
        intro hmem
        have hhead := htexts _ hmem
        simp [hdot, hpercent] at hhead
      exact ⟨hnot _ (by decide), hnot _ (by decide)⟩

/-- A path written from plain segments has just these segments. -/
theorem segments_pathText {path : List Segment} (h : ∀ s ∈ path, PlainSegment s) :
    segments (pathText path) = path := by
  have hchars : ∀ c ∈ pathText path, pathEncoded c = false := by
    intro c hc
    obtain ⟨s, hs, hcs⟩ := List.mem_flatMap.mp hc
    rcases List.mem_cons.mp hcs with rfl | hcs
    · decide
    · exact pathEncoded_of_isPlain ((h s hs).plain c hcs)
  have hclean : clean (pathText path) = pathText path :=
    clean_eq_self fun c hc ↦ not_isBlank_of_pathEncoded (hchars c hc)
  have htake : (pathText path).takeWhile (fun c ↦ !endsPath c) = pathText path := by
    rw [List.takeWhile_eq_self_iff]
    intro c hc
    have hquery : c ≠ '?' := ne_of_pathEncoded (hchars c hc) (by decide)
    have hfragment : c ≠ '#' := ne_of_pathEncoded (hchars c hc) (by decide)
    simp [endsPath, hquery, hfragment]
  have hsplit : splitPath (pathText path) = path := by
    rw [splitPath, hclean, htake]
    have hsep : ∀ t ∈ path, ∀ c ∈ t, isSeparator c = false := fun t ht c hc ↦
      isSeparator_of_isPlain ((h t ht).plain c hc)
    rw [← List.nil_append (pathText path), splitOnP_append_pathText (by simp) hsep, List.tail_cons]
  have hencode : path.map (percentEncode pathEncoded) = path := by
    calc path.map (percentEncode pathEncoded) = path.map id :=
          List.map_congr_left fun s hs ↦ percentEncode_eq_self_iff.mpr fun c hc ↦
            pathEncoded_of_isPlain ((h s hs).plain c hc)
      _ = path := List.map_id path
  rw [segments, hsplit, hencode, resolve_plain fun s hs ↦ ⟨(h s hs).notSingleDot,
    (h s hs).notDoubleDot⟩, List.nil_append]

theorem isPlain_of_isUnreserved {c : Char} (h : isUnreserved c = true) : isPlain c = true :=
  of_isUnreserved (p := fun c ↦ isPlain c = true) (by decide) h

/-- A segment of unreserved characters and escapes that starts with neither a
dot nor an escape is plain. -/
theorem plainSegment_of_unreserved {s : Segment}
    (h : ∀ c ∈ s, isUnreserved c = true ∨ c = '%') (hhead : ∀ c ∈ s.head?, c ≠ '.' ∧ c ≠ '%') :
    PlainSegment s := by
  have hdots : isSingleDot s = false ∧ isDoubleDot s = false := by
    apply not_dot_of_head
    intro c hc
    obtain ⟨hdot, hpercent⟩ := hhead c hc
    have hunreserved := (h c (List.mem_of_mem_head? hc)).resolve_right hpercent
    exact of_isUnreserved (p := fun c ↦ c ≠ '.' → c.toLower ≠ '.' ∧ c.toLower ≠ '%') (by decide)
      hunreserved hdot
  refine ⟨fun c hc ↦ ?_, hdots.1, hdots.2⟩
  rcases h c hc with hunreserved | rfl
  · exact isPlain_of_isUnreserved hunreserved
  · decide

/-- The spellings of a lower-case text in the characters of a dot segment. -/
def spellings : List Char → List Segment
  | [] => [[]]
  | c :: t =>
      (if c = 'e' then ['e', 'E'] else [c]).flatMap fun d ↦ (spellings t).map (d :: ·)

def isSpelled (c : Char) : Bool :=
  if ['.', '%', '2', 'e'].contains c.toLower then
    (if c.toLower = 'e' then ['e', 'E'] else [c.toLower]).contains c
  else true

def isDots (t : String) : Bool :=
  (t.toList.all fun d ↦ ['.', '%', '2', 'e'].contains d) &&
    (spellings t.toList).all fun s ↦ [some ".", some ".."].contains (decodeParam s)

theorem mem_spellings {s : Segment} {t : List Char}
    (hs : ∀ c ∈ s, isUnreserved c = true ∨ c = '%') (ht : ∀ d ∈ t, d ∈ ['.', '%', '2', 'e'])
    (h : s.map Char.toLower = t) : s ∈ spellings t := by
  induction s generalizing t with
  | nil =>
      rw [← h]
      exact List.mem_singleton_self _
  | cons c s ih =>
      subst h
      have hspelled : isSpelled c = true := by
        rcases hs c List.mem_cons_self with hunreserved | rfl
        · exact of_isUnreserved (p := fun c ↦ isSpelled c = true) (by decide +kernel) hunreserved
        · decide
      have hlower : c ∈ if c.toLower = 'e' then ['e', 'E'] else [c.toLower] := by
        rw [isSpelled, if_pos (List.contains_iff_mem.mpr (ht _ List.mem_cons_self))] at hspelled
        exact List.contains_iff_mem.mp hspelled
      have hrest := ih (fun d hd ↦ hs d (List.mem_cons_of_mem c hd))
        (fun d hd ↦ ht d (List.mem_cons_of_mem _ hd)) rfl
      exact List.mem_flatMap.mpr ⟨c, hlower, List.mem_map.mpr ⟨s, hrest, rfl⟩⟩

/-- A segment of unreserved characters and escapes that is resolved as a dot
segment is decoded to one or two dots. -/
theorem decodeParam_of_dots {s : Segment} (hs : ∀ c ∈ s, isUnreserved c = true ∨ c = '%')
    (h : isSingleDot s = true ∨ isDoubleDot s = true) :
    decodeParam s = some "." ∨ decodeParam s = some ".." := by
  have hdots : [".", "%2e", "..", ".%2e", "%2e.", "%2e%2e"].all isDots = true := by
    decide +kernel
  have hmem : String.ofList (s.map Char.toLower) ∈
      [".", "%2e", "..", ".%2e", "%2e.", "%2e%2e"] := by
    rcases h with h | h
    · exact List.mem_append_left _ (List.contains_iff_mem.mp h)
    · exact List.mem_append_right [".", "%2e"] (List.contains_iff_mem.mp h)
  have hall := List.all_eq_true.mp hdots _ hmem
  rw [isDots, String.toList_ofList, Bool.and_eq_true, List.all_eq_true, List.all_eq_true] at hall
  have hspelling := mem_spellings hs (fun d hd ↦ List.contains_iff_mem.mp (hall.1 d hd)) rfl
  simpa using hall.2 s hspelling

/-- What `encodeURIComponent` writes is a plain segment but for the dot
segments. -/
theorem plainSegment_encodeURIComponent {s : String} (hsingle : s ≠ ".") (hdouble : s ≠ "..") :
    PlainSegment (encodeURIComponent s).toList := by
  have hchars : ∀ c ∈ (encodeURIComponent s).toList, isUnreserved c = true ∨ c = '%' :=
    fun c hc ↦ mem_encodeURIComponent hc
  have hdecode : decodeParam (encodeURIComponent s).toList = some s := by
    rw [decodeParam, String.ofList_toList, decodeURIComponent_encodeURIComponent]
  have hdots : ¬ (isSingleDot (encodeURIComponent s).toList = true ∨
      isDoubleDot (encodeURIComponent s).toList = true) := by
    intro h
    rcases decodeParam_of_dots hchars h with hdot | hdot
    · exact hsingle (Option.some.inj (hdecode.symm.trans hdot))
    · exact hdouble (Option.some.inj (hdecode.symm.trans hdot))
  rw [not_or, Bool.not_eq_true, Bool.not_eq_true] at hdots
  refine ⟨fun c hc ↦ ?_, hdots.1, hdots.2⟩
  rcases hchars c hc with hunreserved | rfl
  · exact isPlain_of_isUnreserved hunreserved
  · decide

theorem plainSegment_of_all {s : Segment}
    (h : (s.all isPlain && !isSingleDot s && !isDoubleDot s) = true) : PlainSegment s := by
  simp only [Bool.and_eq_true, List.all_eq_true, Bool.not_eq_true'] at h
  exact ⟨h.1.1, h.1.2, h.2⟩

theorem route_pathText {pattern : List PatternSegment} {path : List Segment}
    (h : ∀ s ∈ path, PlainSegment s) :
    route pattern (String.ofList (pathText path)) =
      (matchRoute pattern path).bind fun params ↦ params.mapM decodeParam := by
  rw [route, String.toList_ofList, segments_pathText h]

theorem decodeParam_eq_self {s : String} (h : '%' ∉ s.toList) : decodeParam s.toList = some s := by
  rw [decodeParam, String.ofList_toList, decodeURIComponent_eq_self h]

theorem mapM_eq_some_map {α β : Type*} {f : α → Option β} {g : α → β} {l : List α}
    (h : ∀ a ∈ l, f a = some (g a)) : l.mapM f = some (l.map g) := by
  induction l with
  | nil => rfl
  | cons a l ih =>
      rw [List.mapM_cons, h a (by simp), ih fun b hb ↦ h b (by simp [hb])]
      rfl

theorem mem_of_matchRoute {pattern : List PatternSegment} {path params : List Segment}
    (h : matchRoute pattern path = some params) : ∀ s ∈ params, s ∈ path := by
  induction pattern generalizing path params with
  | nil =>
      have hnil : params = [] := by
        unfold matchRoute at h
        split at h <;> simp_all
      simp [hnil]
  | cons p pattern ih =>
      cases path with
      | nil => cases p <;> simp [matchRoute] at h
      | cons t path =>
          cases p with
          | literal text =>
              rw [matchRoute] at h
              split at h
              · exact fun s hs ↦ List.mem_cons_of_mem t (ih h s hs)
              · contradiction
          | param =>
              rw [matchRoute] at h
              split at h
              · contradiction
              · obtain ⟨rest, hrest, rfl⟩ := Option.map_eq_some_iff.mp h
                intro s hs
                rcases List.mem_cons.mp hs with rfl | hs
                · exact List.mem_cons_self
                · exact List.mem_cons_of_mem t (ih hrest s hs)

theorem mem_pathText {path : List Segment} (h : ∀ s ∈ path, PlainSegment s) :
    ∀ c ∈ pathText path, isBlank c = false ∧ endsPath c = false := by
  intro c hc
  obtain ⟨s, hs, hcs⟩ := List.mem_flatMap.mp hc
  rcases List.mem_cons.mp hcs with rfl | hcs
  · decide
  · have hc := pathEncoded_of_isPlain ((h s hs).plain c hcs)
    refine ⟨not_isBlank_of_pathEncoded hc, ?_⟩
    simp [endsPath, ne_of_pathEncoded hc (d := '?') (by decide),
      ne_of_pathEncoded hc (d := '#') (by decide)]

theorem clean_append_query {path : List Segment} (h : ∀ s ∈ path, PlainSegment s)
    {query : List Char} (hquery : ∀ c ∈ query, isBlank c = false) :
    clean (pathText path ++ '?' :: query) = pathText path ++ '?' :: query := by
  apply clean_eq_self
  intro c hc
  rcases List.mem_append.mp hc with hc | hc
  · exact (mem_pathText h c hc).1
  · rcases List.mem_cons.mp hc with rfl | hc
    · decide
    · exact hquery c hc

/-- A query after the path does not change its segments. -/
theorem segments_append_query {path : List Segment} (h : ∀ s ∈ path, PlainSegment s)
    {query : List Char} (hquery : ∀ c ∈ query, isBlank c = false) :
    segments (pathText path ++ '?' :: query) = path := by
  have hpath := mem_pathText h
  have hclean := clean_append_query h hquery
  have hcut : ((pathText path ++ '?' :: query).takeWhile fun c ↦ !endsPath c) = pathText path := by
    rw [List.takeWhile_append_of_pos fun c hc ↦ by simp [(hpath c hc).2]]
    simp [endsPath]
  have hcleanPath : clean (pathText path) = pathText path :=
    clean_eq_self fun c hc ↦ (hpath c hc).1
  have hcutPath : ((pathText path).takeWhile fun c ↦ !endsPath c) = pathText path :=
    List.takeWhile_eq_self_iff.mpr fun c hc ↦ by simp [(hpath c hc).2]
  have hsplit : splitPath (pathText path ++ '?' :: query) = splitPath (pathText path) := by
    rw [splitPath, splitPath, hclean, hcut, hcleanPath, hcutPath]
  calc segments (pathText path ++ '?' :: query) = segments (pathText path) := by
        rw [segments, segments, hsplit]
    _ = path := segments_pathText h

theorem mapM_decodeParam_matchRoute {pattern : List PatternSegment} {path : List Segment}
    (h : ∀ s ∈ path, '%' ∉ s) :
    ((matchRoute pattern path).bind fun params ↦ params.mapM decodeParam) =
      (matchRoute pattern path).map (List.map String.ofList) := by
  cases hmatch : matchRoute pattern path with
  | none => rfl
  | some params =>
      have hdecode : ∀ s ∈ params, decodeParam s = some (String.ofList s) := by
        intro s hs
        have hpercent : '%' ∉ (String.ofList s).toList := by
          rw [String.toList_ofList]
          exact h s (mem_of_matchRoute hmatch s hs)
        simpa using decodeParam_eq_self hpercent
      rw [Option.bind_some, mapM_eq_some_map hdecode, Option.map_some]

/-- The parameters of a path of plain segments without escapes are read as they
are written. -/
theorem route_plain {pattern : List PatternSegment} {path : List Segment}
    (h : ∀ s ∈ path, PlainSegment s ∧ '%' ∉ s) :
    route pattern (String.ofList (pathText path)) =
      (matchRoute pattern path).map (List.map String.ofList) := by
  rw [route_pathText fun s hs ↦ (h s hs).1, mapM_decodeParam_matchRoute fun s hs ↦ (h s hs).2]

theorem route_plain_query {pattern : List PatternSegment} {path : List Segment}
    (h : ∀ s ∈ path, PlainSegment s ∧ '%' ∉ s) {query : List Char}
    (hquery : ∀ c ∈ query, isBlank c = false) :
    route pattern (String.ofList (pathText path ++ '?' :: query)) =
      (matchRoute pattern path).map (List.map String.ofList) := by
  rw [route, String.toList_ofList, segments_append_query (fun s hs ↦ (h s hs).1) hquery,
    mapM_decodeParam_matchRoute fun s hs ↦ (h s hs).2]

/-! ## Tables of routes -/

/-- No path matches both patterns: they ask for different literals at some
place, or one goes on where the other ends. -/
def conflict : List PatternSegment → List PatternSegment → Bool
  | [], [] => false
  | [], s :: _ => s ≠ .literal ""
  | s :: _, [] => s ≠ .literal ""
  | .literal text :: pattern, .literal other :: pattern' =>
      text ≠ other || conflict pattern pattern'
  | _ :: pattern, _ :: pattern' => conflict pattern pattern'

theorem matchRoute_nil_eq_some {path params : List Segment}
    (h : matchRoute [] path = some params) : path = [] ∨ path = [[]] := by
  match path, h with
  | [], _ => exact .inl rfl
  | [s], h =>
      rw [matchRoute] at h
      split at h
      · next hempty => exact .inr (by rw [List.isEmpty_iff.mp hempty])
      · contradiction
  | _ :: _ :: _, h => simp [matchRoute] at h

theorem matchRoute_cons_of_ended {s : PatternSegment} {pattern : List PatternSegment}
    (hs : s ≠ .literal "") {path : List Segment} (hpath : path = [] ∨ path = [[]]) :
    matchRoute (s :: pattern) path = none := by
  rcases hpath with rfl | rfl
  · cases s <;> rfl
  · cases s with
    | literal text =>
        have htext : "" ≠ text := fun h ↦ hs (by rw [← h])
        simp [matchRoute, htext]
    | param => simp [matchRoute]

theorem matchRoute_cons_eq_some {s : PatternSegment} {pattern : List PatternSegment}
    {path params : List Segment} (h : matchRoute (s :: pattern) path = some params) :
    ∃ first rest params', path = first :: rest ∧ matchRoute pattern rest = some params' ∧
      ∀ text, s = .literal text → String.ofList (first.map Char.toLower) = text := by
  cases path with
  | nil => cases s <;> simp [matchRoute] at h
  | cons first rest =>
      cases s with
      | literal text =>
          rw [matchRoute] at h
          split at h
          · next htext =>
              refine ⟨first, rest, params, rfl, h, fun other hother ↦ ?_⟩
              rw [htext, PatternSegment.literal.inj hother]
          · contradiction
      | param =>
          rw [matchRoute] at h
          split at h
          · contradiction
          · obtain ⟨params', hparams', -⟩ := Option.map_eq_some_iff.mp h
            exact ⟨first, rest, params', rfl, hparams', by simp⟩

theorem matchRoute_cons_of_none {s : PatternSegment} {pattern : List PatternSegment}
    {first : Segment} {rest : List Segment} (h : matchRoute pattern rest = none) :
    matchRoute (s :: pattern) (first :: rest) = none := by
  cases s <;> simp [matchRoute, h]

theorem matchRoute_of_conflict {pattern pattern' : List PatternSegment}
    (h : conflict pattern pattern' = true) {path params : List Segment}
    (hmatch : matchRoute pattern path = some params) : matchRoute pattern' path = none := by
  induction pattern, pattern' using conflict.induct generalizing path params with
  | case1 => simp [conflict] at h
  | case2 s pattern' =>
      exact matchRoute_cons_of_ended (by simpa [conflict] using h) (matchRoute_nil_eq_some hmatch)
  | case3 s pattern =>
      cases hother : matchRoute [] path with
      | none => rfl
      | some params' =>
          have hended : matchRoute (s :: pattern) path = none :=
            matchRoute_cons_of_ended (by simpa [conflict] using h) (matchRoute_nil_eq_some hother)
          rw [hended] at hmatch
          contradiction
  | case4 text pattern other pattern' ih =>
      obtain ⟨first, rest, params', rfl, hrest, htext⟩ := matchRoute_cons_eq_some hmatch
      rw [conflict, Bool.or_eq_true, decide_eq_true_eq] at h
      rcases h with hne | hconflict
      · rw [matchRoute, if_neg (by rw [htext text rfl]; exact hne)]
      · exact matchRoute_cons_of_none (ih hconflict hrest)
  | case5 s pattern s' pattern' hne ih =>
      obtain ⟨first, rest, params', rfl, hrest, -⟩ := matchRoute_cons_eq_some hmatch
      refine matchRoute_cons_of_none (ih ?_ hrest)
      unfold conflict at h
      split at h <;> simp_all

section Dispatch

variable {ρ : Type*} {pattern : ρ → List PatternSegment} {routes : List ρ}

/-- The first route of the table that the path matches, and its parameters. -/
def dispatch (pattern : ρ → List PatternSegment) (routes : List ρ) (text : String) :
    Option (ρ × List String) :=
  (routes.find? fun r ↦ (matchRoute (pattern r) (segments text.toList)).isSome).bind fun r ↦
    (route (pattern r) text).map fun params ↦ (r, params)

theorem find?_matchRoute (hexclusive : routes.Pairwise fun r r' ↦
    conflict (pattern r) (pattern r') = true) {path params : List Segment} {r : ρ}
    (hr : r ∈ routes) (hmatch : matchRoute (pattern r) path = some params) :
    routes.find? (fun r ↦ (matchRoute (pattern r) path).isSome) = some r := by
  induction routes with
  | nil => simp at hr
  | cons first rest ih =>
      obtain ⟨hfirst, hrest⟩ := List.pairwise_cons.mp hexclusive
      rcases List.mem_cons.mp hr with rfl | hr
      · simp [hmatch]
      · have hnone : matchRoute (pattern first) path = none := by
          cases hother : matchRoute (pattern first) path with
          | none => rfl
          | some params' =>
              rw [matchRoute_of_conflict (hfirst r hr) hother] at hmatch
              contradiction
        simpa [hnone] using ih hrest hr

/-- Where no path matches two patterns of a table, a path is dispatched to any
route that it matches. -/
theorem dispatch_eq_some_iff (hexclusive : routes.Pairwise fun r r' ↦
    conflict (pattern r) (pattern r') = true) {text : String} {r : ρ} {params : List String} :
    dispatch pattern routes text = some (r, params) ↔
      r ∈ routes ∧ route (pattern r) text = some params := by
  constructor
  · intro h
    obtain ⟨found, hfound, hparams⟩ := Option.bind_eq_some_iff.mp h
    obtain ⟨params', hroute, hpair⟩ := Option.map_eq_some_iff.mp hparams
    obtain ⟨rfl, rfl⟩ := Prod.mk.injEq .. ▸ hpair
    exact ⟨List.mem_of_find?_eq_some hfound, hroute⟩
  · rintro ⟨hr, hroute⟩
    obtain ⟨matched, hmatched, -⟩ := Option.bind_eq_some_iff.mp hroute
    rw [dispatch, find?_matchRoute hexclusive hr hmatched, Option.bind_some, hroute,
      Option.map_some]

end Dispatch

end NestQueueExample.UrlPath
