import NestQueueExample.Admin.Queues
import NestQueueExample.Foundations.UrlPath
import NestQueueExample.Search.Reindex

/-!
# Paths of deduplication keys

The dashboard encodes the key of a term into one path segment, and the API
decodes it back: the key that is inspected or cleared is the one under which a
reindex of the term is registered.
-/

namespace NestQueueExample.Web

open Admin Http PercentEncoding Queues Search UrlPath
open Queues.Handler (invoke)

def dedupKeyPath (term : String) : String :=
  "/admin/dedup/search/" ++ encodeURIComponent ("reindex:" ++ term)

def dedupRoute : List PatternSegment :=
  [.literal "admin", .literal "dedup", .param, .param]

/-- The path is written from four plain segments, and the last of them is read
as the key. -/
structure NamesKey (path key : String) : Prop where
  segments : ∃ last, UrlPath.segments path.toList =
    ["admin".toList, "dedup".toList, "search".toList, last] ∧ decodeParam last = some key
  written : path.toList = pathText (UrlPath.segments path.toList)
  plain : ∀ s ∈ UrlPath.segments path.toList, PlainSegment s
  route : UrlPath.route dedupRoute path = some [SEARCH_QUEUE, key]

/-- The key is accepted, and a request with it asks for this key and no other. -/
structure ConcernsKey (L : Library) (zod : Zod) (key : String) : Prop where
  accepted : zod.safeParse DedupController.dedupKeySchema (.string key) = .ok key
  view : (DedupController.view zod SEARCH_QUEUE (.string key) : Handler L (Option String)) =
    invoke (.getOrCreateQueue SEARCH_QUEUE) >>= fun managed ↦
      invoke (.getDeduplicationJobId managed key)
  clear : (DedupController.clear zod SEARCH_QUEUE (.string key) : Handler L Bool) =
    invoke (.getOrCreateQueue SEARCH_QUEUE) >>= fun managed ↦
      invoke (.removeDeduplicationKey managed key) >>= fun removed ↦ pure (decide (0 < removed))

def keySegment (term : String) : Segment := (encodeURIComponent ("reindex:" ++ term)).toList

theorem keySegment_eq_cons (term : String) : ∃ rest, keySegment term = 'r' :: rest := by
  have hr : ("reindex:" ++ term).toList = 'r' :: ("eindex:" ++ term).toList := by simp
  refine ⟨percentEncode (fun c ↦ !isUnreserved c) ("eindex:" ++ term).toList, ?_⟩
  rw [keySegment, encodeURIComponent, String.toList_ofList, hr, percentEncode_cons,
    encodeChar_of_kept (by decide), List.singleton_append]

theorem plainSegment_key (term : String) : PlainSegment (keySegment term) := by
  refine plainSegment_of_unreserved (fun c hc ↦ mem_encodeURIComponent hc) fun c hc ↦ ?_
  obtain ⟨rest, hkey⟩ := keySegment_eq_cons term
  rw [hkey, List.head?_cons, Option.mem_some_iff] at hc
  rw [← hc]
  decide

theorem decodeParam_keySegment (term : String) :
    decodeParam (keySegment term) = some (dedupId term) := by
  rw [decodeParam, keySegment, String.ofList_toList, decodeURIComponent_encodeURIComponent]
  rfl

def dedupSegments (term : String) : List Segment :=
  ["admin".toList, "dedup".toList, "search".toList, keySegment term]

theorem dedupKeyPath_toList (term : String) :
    (dedupKeyPath term).toList = pathText (dedupSegments term) := by
  have hwritten : ∀ key : Segment, "/admin/dedup/search/".toList ++ key =
      pathText ["admin".toList, "dedup".toList, "search".toList, key] := by
    intro key
    simp [pathText]
  unfold dedupKeyPath
  rw [String.toList_append]
  exact hwritten (keySegment term)

theorem plain_dedupSegments (term : String) : ∀ s ∈ dedupSegments term, PlainSegment s := by
  rw [dedupSegments, List.forall_mem_cons, List.forall_mem_cons, List.forall_mem_cons,
    List.forall_mem_singleton]
  exact ⟨plainSegment_of_all (by decide), plainSegment_of_all (by decide),
    plainSegment_of_all (by decide), plainSegment_key term⟩

theorem matchRoute_dedupSegments (term : String) :
    matchRoute dedupRoute (dedupSegments term) = some ["search".toList, keySegment term] := by
  obtain ⟨rest, hkey⟩ := keySegment_eq_cons term
  rw [dedupSegments, hkey]
  simp [dedupRoute, matchRoute]

theorem namesKey_dedupKeyPath (term : String) : NamesKey (dedupKeyPath term) (dedupId term) := by
  have hsegments := segments_pathText (plain_dedupSegments term)
  rw [← dedupKeyPath_toList] at hsegments
  have hsearch : decodeParam "search".toList = some "search" := decodeParam_eq_self (by decide)
  refine ⟨⟨_, hsegments, decodeParam_keySegment term⟩, ?_, ?_, ?_⟩
  · rw [hsegments, dedupKeyPath_toList]
  · rw [hsegments]
    exact plain_dedupSegments term
  · rw [UrlPath.route, hsegments, matchRoute_dedupSegments, Option.bind_some, List.mapM_cons,
      hsearch, List.mapM_cons, decodeParam_keySegment]
    rfl

theorem dedupKeyPath_injective : Function.Injective dedupKeyPath := by
  intro term other h
  have hencoded := (String.append_right_inj _).mp h
  exact (String.append_right_inj _).mp (encodeURIComponent_injective hencoded)

theorem concernsKey_dedupId (L : Library) {zod : Zod} (hzod : zod.Checks) {term : String}
    (hmax : JsString.length term ≤ MAX_TERM_LENGTH) : ConcernsKey L zod (dedupId term) := by
  have hlength : JsString.length (dedupId term) = 8 + JsString.length term := by
    rw [dedupId, JsString.length_append]
    rfl
  have haccepted : zod.safeParse DedupController.dedupKeySchema (.string (dedupId term)) =
      .ok (dedupId term) := by
    refine hzod.string_iff.mpr ⟨rfl, ?_⟩
    rw [List.forall_mem_cons, List.forall_mem_singleton]
    simp only [StringCheck.holds, decide_eq_true_eq, hlength,
      DedupController.MAX_DEDUP_KEY_LENGTH]
    rw [MAX_TERM_LENGTH] at hmax
    omega
  refine ⟨haccepted, ?_, ?_⟩
  · rw [DedupController.view, parseRequest_ok_iff.mpr haccepted]
    rfl
  · rw [DedupController.clear, parseRequest_ok_iff.mpr haccepted]
    rfl

/-- For every term that a reindex accepts, the path names its key, the requests
with it concern this key, every mode registers the reindex under it, and no
other term has the path. -/
theorem dedupKeyPath_concerns_key (L : Library) {zod : Zod} (hzod : zod.Checks) {term : String}
    (hmax : JsString.length term ≤ MAX_TERM_LENGTH) :
    NamesKey (dedupKeyPath term) (dedupId term) ∧ ConcernsKey L zod (dedupId term) ∧
      (∀ mode, (ReindexService.options ⟨term, mode⟩).deduplication.map DeduplicationOptions.id =
        some (dedupId term)) ∧
      ∀ other, dedupKeyPath other = dedupKeyPath term → other = term := by
  refine ⟨namesKey_dedupKeyPath term, concernsKey_dedupId L hzod hmax, fun mode ↦ ?_,
    fun other hpath ↦ ?_⟩
  · cases mode <;> rfl
  · exact dedupKeyPath_injective hpath

theorem dedupKeyPath_concerns_key_slashed :
    NamesKey (dedupKeyPath "50% a/b") (dedupId "50% a/b") :=
  (dedupKeyPath_concerns_key ⟨Unit, Unit, Unit, Empty, []⟩ (Zod.checks_ofParse fun _ ↦ none)
    (by decide)).1

end NestQueueExample.Web
