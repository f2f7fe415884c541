import NestQueueExample.Processors.EmailProcessor

/-!
# Markers under an undefined id

The receipt processor stores no marker for a job without an id. A variant that
stores one, under the undefined key, never reads it back, but the marker takes
a place among the 1000: while it is held, one marker of an identified job
fewer is. The two differ exactly at a delivery of the job whose marker the
variant has evicted for it.
-/

namespace NestQueueExample.Processors

open Runs SlidingWindow

/-- The receipt processor without the guard of `rememberReceipt`. -/
structure UnguardedProcessor where
  mailer : MailerStub := {}
  processedReceipts : InsertionMap (Option String) MailResult := .empty

namespace UnguardedProcessor

def evictOldestMarkerWhenFull (markers : InsertionMap (Option String) MailResult) :
    InsertionMap (Option String) MailResult :=
  if markers.size ≤ IDEMPOTENCY_MARKER_CAPACITY then markers else markers.deleteOldest

def rememberReceipt (p : UnguardedProcessor) (jobId : Option String) (result : MailResult) :
    UnguardedProcessor :=
  { p with processedReceipts := evictOldestMarkerWhenFull (p.processedReceipts.set jobId result) }

def sendReceipt (p : UnguardedProcessor) (d : ReceiptDelivery) :
    ReceiptOutcome × UnguardedProcessor :=
  match d.jobId.bind fun id ↦ p.processedReceipts.get? (some id) with
  | some marker => (⟨marker, []⟩, p)
  | none =>
      let (result, mailer) := p.mailer.send d.data.recipient RECEIPT_JOB d.now d.uuid
      (⟨result, [⟨d.data.recipient, RECEIPT_JOB, d.now⟩]⟩,
        { p with mailer }.rememberReceipt d.jobId result)

def step (p : UnguardedProcessor) (d : ReceiptDelivery) : UnguardedProcessor :=
  (p.sendReceipt d).2

def outcomes (p : UnguardedProcessor) (deliveries : List ReceiptDelivery) :
    List ReceiptOutcome :=
  emitted step (fun p d ↦ [(p.sendReceipt d).1]) p deliveries

theorem sendReceipt_marked {p : UnguardedProcessor} {d : ReceiptDelivery} {marker : MailResult}
    (h : (d.jobId.bind fun id ↦ p.processedReceipts.get? (some id)) = some marker) :
    p.sendReceipt d = (⟨marker, []⟩, p) := by
  simp [sendReceipt, h]

theorem sendReceipt_unmarked {p : UnguardedProcessor} {d : ReceiptDelivery}
    (h : (d.jobId.bind fun id ↦ p.processedReceipts.get? (some id)) = none) :
    p.sendReceipt d =
      (⟨⟨d.uuid⟩, [⟨d.data.recipient, RECEIPT_JOB, d.now⟩]⟩,
        { p with mailer := (p.mailer.send d.data.recipient RECEIPT_JOB d.now d.uuid).2
          }.rememberReceipt d.jobId ⟨d.uuid⟩) := by
  simp [sendReceipt, h, MailerStub.send]

theorem mailer_sendReceipt (p : UnguardedProcessor) (d : ReceiptDelivery) :
    (p.step d).mailer = p.mailer.record (p.sendReceipt d).1.sends := by
  cases hmarker : d.jobId.bind fun id ↦ p.processedReceipts.get? (some id) with
  | some marker =>
      rw [step, sendReceipt_marked hmarker]
      rfl
  | none =>
      rw [step, sendReceipt_unmarked hmarker]
      rfl

theorem mailer_exec (p : UnguardedProcessor) (deliveries : List ReceiptDelivery) :
    (exec step p deliveries).mailer =
      p.mailer.record ((p.outcomes deliveries).flatMap ReceiptOutcome.sends) := by
  induction deliveries generalizing p with
  | nil => rfl
  | cons d deliveries ih =>
      have houtcomes : p.outcomes (d :: deliveries) =
          (p.sendReceipt d).1 :: (p.step d).outcomes deliveries := rfl
      rw [exec_cons, ih, mailer_sendReceipt, houtcomes, List.flatMap_cons, MailerStub.record_append]

theorem keys_step {p : UnguardedProcessor} {d : ReceiptDelivery} {id : String}
    (hid : d.jobId = some id) (hnew : p.processedReceipts.get? (some id) = none) :
    (p.step d).processedReceipts.keys =
      pushBounded IDEMPOTENCY_MARKER_CAPACITY p.processedReceipts.keys (some id) := by
  have hunmarked : (d.jobId.bind fun id ↦ p.processedReceipts.get? (some id)) = none := by
    simpa [hid] using hnew
  rw [step, sendReceipt_unmarked hunmarked, hid]
  exact InsertionMap.keys_evictOver_set (InsertionMap.get?_eq_none_iff.mp hnew) ⟨d.uuid⟩

end UnguardedProcessor

theorem EmailProcessor.keys_step {p : EmailProcessor} {d : ReceiptDelivery} {id : String}
    (hid : d.jobId = some id) (hnew : p.processedReceipts.get? id = none) :
    (p.step d).processedReceipts.keys =
      pushBounded IDEMPOTENCY_MARKER_CAPACITY p.processedReceipts.keys id := by
  have hunmarked : d.jobId.bind p.processedReceipts.get? = none := by
    simpa [hid] using hnew
  rw [step, sendReceipt_unmarked hunmarked, hid]
  exact InsertionMap.keys_evictOver_set (InsertionMap.get?_eq_none_iff.mp hnew) ⟨d.uuid⟩

/-! ## What is stored under ids -/

theorem mem_withId {xs : List (Option String × MailResult)} {id : String} {result : MailResult} :
    (id, result) ∈ withId xs ↔ (some id, result) ∈ xs := by
  simp [withId]

theorem withId_replace_none (result : MailResult) (xs : List (Option String × MailResult)) :
    withId (InsertionMap.replace none result xs) = withId xs := by
  rw [withId, InsertionMap.replace, List.filterMap_map, withId]
  apply List.filterMap_congr
  rintro ⟨_ | id, r⟩ -
  · simp
  · simp

/-- Among distinct keys at most one is undefined. -/
theorem length_eq_length_withId {xs : List (Option String × MailResult)}
    (h : (xs.map Prod.fst).Nodup) :
    xs.length = (withId xs).length + if none ∈ xs.map Prod.fst then 1 else 0 := by
  induction xs with
  | nil => simp [withId]
  | cons entry xs ih =>
      obtain ⟨_ | id, r⟩ := entry
      · rw [List.map_cons, List.nodup_cons] at h
        have hlen := ih h.2
        rw [if_neg h.1] at hlen
        have hskip : withId ((none, r) :: xs) = withId xs := rfl
        rw [hskip, List.length_cons, hlen]
        simp
      · rw [List.map_cons, List.nodup_cons] at h
        have hlen := ih h.2
        rw [withId_cons_some, List.length_cons, List.length_cons, hlen]
        simp only [List.map_cons, List.mem_cons, reduceCtorEq, false_or]
        omega

/-- The number of places that markers under these keys leave to identified
jobs. -/
def room (keys : List (Option String)) : ℕ :=
  if none ∈ keys then IDEMPOTENCY_MARKER_CAPACITY - 1 else IDEMPOTENCY_MARKER_CAPACITY

theorem capacity_pos : 0 < IDEMPOTENCY_MARKER_CAPACITY := Nat.succ_pos 999

theorem room_le (keys : List (Option String)) : room keys ≤ IDEMPOTENCY_MARKER_CAPACITY := by
  unfold room
  split <;> omega

theorem room_pos (keys : List (Option String)) : 0 < room keys := by
  have hcapacity : IDEMPOTENCY_MARKER_CAPACITY = 1000 := rfl
  unfold room
  split <;> omega

theorem room_of_mem {keys : List (Option String)} (h : none ∈ keys) :
    room keys = IDEMPOTENCY_MARKER_CAPACITY - 1 := if_pos h

theorem room_of_notMem {keys : List (Option String)} (h : none ∉ keys) :
    room keys = IDEMPOTENCY_MARKER_CAPACITY := if_neg h

theorem room_congr {keys keys' : List (Option String)} (h : none ∈ keys ↔ none ∈ keys') :
    room keys = room keys' := by
  simp only [room, h]

@[simp] theorem room_append_some (keys : List (Option String)) (id : String) :
    room (keys ++ [some id]) = room keys := room_congr (by simp)

@[simp] theorem room_cons_some (keys : List (Option String)) (id : String) :
    room (some id :: keys) = room keys := room_congr (by simp)

theorem length_add_room {xs : List (Option String × MailResult)}
    (h : (xs.map Prod.fst).Nodup) :
    xs.length + room (xs.map Prod.fst) = (withId xs).length + IDEMPOTENCY_MARKER_CAPACITY := by
  have hpos := capacity_pos
  rw [length_eq_length_withId h]
  by_cases hnone : none ∈ xs.map Prod.fst
  · rw [if_pos hnone, room_of_mem hnone]
    omega
  · rw [if_neg hnone, room_of_notMem hnone]
    omega

/-! ## A window that shares its places with one other key -/

section Window

variable {xs : List (Option String × MailResult)} {ys : List (String × MailResult)}

/-- While there is room, all of `ys` is held. -/
theorem withId_of_lt (hnodup : (xs.map Prod.fst).Nodup)
    (hxs : withId xs = ys.rtake (room (xs.map Prod.fst)))
    (hlt : xs.length < IDEMPOTENCY_MARKER_CAPACITY) :
    withId xs = ys ∧ ys.length < room (xs.map Prod.fst) := by
  have hsize := length_add_room hnodup
  have hlen := congrArg List.length hxs
  rw [length_rtake] at hlen
  have hys : ys.length < room (xs.map Prod.fst) := by omega
  rw [rtake_of_length_le hys.le] at hxs
  exact ⟨hxs, hys⟩

theorem room_le_length (hnodup : (xs.map Prod.fst).Nodup)
    (hxs : withId xs = ys.rtake (room (xs.map Prod.fst)))
    (hfull : xs.length = IDEMPOTENCY_MARKER_CAPACITY) :
    room (xs.map Prod.fst) ≤ ys.length := by
  have hsize := length_add_room hnodup
  have hlen := congrArg List.length hxs
  rw [length_rtake] at hlen
  omega

/-- A new identified entry takes the place of the undefined key, where that is
the oldest, and else of the oldest identified entry. -/
theorem withId_pushBounded_some (hnodup : (xs.map Prod.fst).Nodup)
    (hxs : withId xs = ys.rtake (room (xs.map Prod.fst)))
    (hle : xs.length ≤ IDEMPOTENCY_MARKER_CAPACITY) (id : String) (result : MailResult) :
    withId (pushBounded IDEMPOTENCY_MARKER_CAPACITY xs (some id, result)) =
      (ys ++ [(id, result)]).rtake
        (room ((pushBounded IDEMPOTENCY_MARKER_CAPACITY xs (some id, result)).map Prod.fst)) := by
  have hsingle : withId [(some id, result)] = [(id, result)] := rfl
  rcases Nat.lt_or_eq_of_le hle with hlt | hfull
  · obtain ⟨hall, hys⟩ := withId_of_lt hnodup hxs hlt
    rw [pushBounded_of_lt hlt, withId_append, hall, hsingle, List.map_append]
    rw [rtake_of_length_le]
    rw [List.length_append, List.length_singleton, List.map_singleton, room_append_some]
    exact hys
  · have hlen := room_le_length hnodup hxs hfull
    have hroom := room_pos (xs.map Prod.fst)
    rw [pushBounded_of_le hfull.ge]
    cases xs with
    | nil => exact absurd hfull (by decide)
    | cons entry rest =>
        rw [List.cons_append, List.tail_cons, withId_append, hsingle, List.map_append]
        obtain ⟨_ | oldest, r⟩ := entry
        · have hskip : withId ((none, r) :: rest) = withId rest := rfl
          have hnone : none ∉ rest.map Prod.fst := (List.nodup_cons.mp hnodup).1
          rw [hskip, room_of_mem (by simp)] at hxs
          rw [hxs, List.map_singleton, room_append_some, room_of_notMem hnone,
            ← List.rtake_concat_succ, Nat.sub_add_cancel capacity_pos]
        · have htail : withId rest = (withId ((some oldest, r) :: rest)).tail := rfl
          rw [htail, hxs, tail_rtake hroom hlen, ← List.rtake_concat_succ,
            Nat.sub_add_cancel hroom]
          simp

/-- The undefined key, when it is new, takes the place of the oldest entry. -/
theorem withId_pushBounded_none (hnodup : (xs.map Prod.fst).Nodup)
    (hxs : withId xs = ys.rtake (room (xs.map Prod.fst)))
    (hle : xs.length ≤ IDEMPOTENCY_MARKER_CAPACITY) (hnew : none ∉ xs.map Prod.fst)
    (result : MailResult) :
    withId (pushBounded IDEMPOTENCY_MARKER_CAPACITY xs (none, result)) =
      ys.rtake
        (room ((pushBounded IDEMPOTENCY_MARKER_CAPACITY xs (none, result)).map Prod.fst)) := by
  have hsingle : withId [(none, result)] = [] := rfl
  rcases Nat.lt_or_eq_of_le hle with hlt | hfull
  · obtain ⟨hall, hys⟩ := withId_of_lt hnodup hxs hlt
    rw [room_of_notMem hnew] at hys
    rw [pushBounded_of_lt hlt, withId_append, hall, hsingle, List.append_nil,
      room_of_mem (by simp), rtake_of_length_le (by omega)]
  · have hlen := room_le_length hnodup hxs hfull
    have hroom := room_pos (xs.map Prod.fst)
    rw [pushBounded_of_le hfull.ge]
    cases xs with
    | nil => exact absurd hfull (by decide)
    | cons entry rest =>
        obtain ⟨_ | oldest, r⟩ := entry
        · simp at hnew
        · have htail : withId rest = (withId ((some oldest, r) :: rest)).tail := rfl
          rw [List.cons_append, List.tail_cons, withId_append, hsingle, List.append_nil, htail,
            hxs, tail_rtake hroom hlen, room_of_notMem hnew, room_of_mem (by simp)]

end Window

/-! ## The variant keeps the newest markers of the code -/

/-- The variant holds the newest markers of the code, as many as it has room
for. -/
structure Trims (code : EmailProcessor) (variant : UnguardedProcessor) : Prop where
  size_le : code.processedReceipts.size ≤ IDEMPOTENCY_MARKER_CAPACITY
  variant_size_le : variant.processedReceipts.size ≤ IDEMPOTENCY_MARKER_CAPACITY
  entries : withId variant.processedReceipts.entries =
    code.processedReceipts.entries.rtake (room variant.processedReceipts.keys)

namespace Trims

variable {code : EmailProcessor} {variant : UnguardedProcessor}

theorem empty : Trims {} {} where
  size_le := Nat.zero_le _
  variant_size_le := Nat.zero_le _
  entries := by simp [InsertionMap.empty, withId, List.rtake]

theorem get?_variant_iff (h : Trims code variant) {id : String} {result : MailResult} :
    variant.processedReceipts.get? (some id) = some result ↔
      (id, result) ∈
        code.processedReceipts.entries.rtake (room variant.processedReceipts.keys) := by
  rw [InsertionMap.get?_eq_some_iff, ← mem_withId, h.entries]

theorem get?_variant_eq_none (h : Trims code variant) {id : String}
    (hnew : code.processedReceipts.get? id = none) :
    variant.processedReceipts.get? (some id) = none := by
  rw [Option.eq_none_iff_forall_ne_some]
  intro result hget
  have hmem := (rtake_suffix _ _).subset (h.get?_variant_iff.mp hget)
  rw [InsertionMap.get?_eq_some_iff.mpr hmem] at hnew
  exact Option.some_ne_none _ hnew

theorem rememberIdentified (h : Trims code variant) {id : String}
    (hnew : code.processedReceipts.get? id = none) (result : MailResult) :
    Trims (code.rememberReceipt (some id) result) (variant.rememberReceipt (some id) result) where
  size_le := InsertionMap.size_evictOver_set_le h.size_le id result
  variant_size_le := InsertionMap.size_evictOver_set_le h.variant_size_le (some id) result
  entries := by
    have hvariant : (variant.rememberReceipt (some id) result).processedReceipts.entries =
        pushBounded IDEMPOTENCY_MARKER_CAPACITY variant.processedReceipts.entries
          (some id, result) :=
      InsertionMap.entries_evictOver_set
        (InsertionMap.get?_eq_none_iff.mp (h.get?_variant_eq_none hnew)) result
    rw [EmailProcessor.entries_remember (rtake_of_length_le h.size_le).symm hnew, rtake_rtake,
      Nat.min_eq_left (room_le _), InsertionMap.keys, hvariant]
    exact withId_pushBounded_some variant.processedReceipts.nodup h.entries h.variant_size_le
      id result

theorem rememberUnidentified (h : Trims code variant) (result : MailResult) :
    Trims code (variant.rememberReceipt none result) where
  size_le := h.size_le
  variant_size_le := InsertionMap.size_evictOver_set_le h.variant_size_le none result
  entries := by
    by_cases hheld : none ∈ variant.processedReceipts.keys
    · have hvariant : (variant.rememberReceipt none result).processedReceipts =
          variant.processedReceipts.set none result :=
        InsertionMap.evictOver_set_of_mem h.variant_size_le hheld result
      rw [hvariant, InsertionMap.keys_set_of_mem hheld, InsertionMap.entries_set_of_mem hheld,
        withId_replace_none, h.entries]
    · have hvariant : (variant.rememberReceipt none result).processedReceipts.entries =
          pushBounded IDEMPOTENCY_MARKER_CAPACITY variant.processedReceipts.entries
            (none, result) :=
        InsertionMap.entries_evictOver_set hheld result
      rw [InsertionMap.keys, hvariant]
      exact withId_pushBounded_none variant.processedReceipts.nodup h.entries h.variant_size_le
        hheld result

theorem of_eq {code' : EmailProcessor} {variant' : UnguardedProcessor} (h : Trims code variant)
    (hcode : code'.processedReceipts = code.processedReceipts)
    (hvariant : variant'.processedReceipts = variant.processedReceipts) :
    Trims code' variant' :=
  ⟨hcode ▸ h.size_le, hvariant ▸ h.variant_size_le, by rw [hcode, hvariant, h.entries]⟩

end Trims

/-- The delivered job has the oldest of 1000 markers, and the variant holds a
marker under the undefined key in its place. -/
def LosesMarker (code : EmailProcessor) (variant : UnguardedProcessor) (d : ReceiptDelivery) :
    Prop :=
  ∃ id, d.jobId = some id ∧ code.processedReceipts.keys.head? = some id ∧
    code.processedReceipts.size = IDEMPOTENCY_MARKER_CAPACITY ∧
    none ∈ variant.processedReceipts.keys

namespace Trims

variable {code : EmailProcessor} {variant : UnguardedProcessor}

/-- A full code map keeps one marker more than a variant that holds the
undefined key. -/
theorem rtake_of_full (h : Trims code variant)
    (hfull : code.processedReceipts.size = IDEMPOTENCY_MARKER_CAPACITY)
    (hnone : none ∈ variant.processedReceipts.keys) :
    code.processedReceipts.entries.rtake (room variant.processedReceipts.keys) =
      code.processedReceipts.entries.tail := by
  rw [room_of_mem hnone, ← tail_rtake capacity_pos hfull.ge, rtake_of_length_le h.size_le]

theorem get?_of_losesMarker (h : Trims code variant) {d : ReceiptDelivery}
    (hloses : LosesMarker code variant d) :
    ∃ id result, d.jobId = some id ∧ code.processedReceipts.get? id = some result ∧
      variant.processedReceipts.get? (some id) = none := by
  obtain ⟨id, hid, hhead, hfull, hnone⟩ := hloses
  have hnodup := code.processedReceipts.nodup
  cases hcons : code.processedReceipts.entries with
  | nil => simp [InsertionMap.keys, hcons] at hhead
  | cons entry rest =>
      obtain ⟨key, result⟩ := entry
      obtain rfl : key = id := by simpa [InsertionMap.keys, hcons] using hhead
      refine ⟨key, result, hid, InsertionMap.get?_eq_some_iff.mpr (by simp [hcons]), ?_⟩
      rw [Option.eq_none_iff_forall_ne_some]
      intro other hget
      have hmem := h.get?_variant_iff.mp hget
      rw [h.rtake_of_full hfull hnone, hcons, List.tail_cons] at hmem
      rw [hcons, List.map_cons, List.nodup_cons] at hnodup
      exact hnodup.1 (List.mem_map.mpr ⟨(key, other), hmem, rfl⟩)

theorem get?_variant_eq (h : Trims code variant) {d : ReceiptDelivery}
    (hkept : ¬ LosesMarker code variant d) {id : String} (hid : d.jobId = some id) :
    variant.processedReceipts.get? (some id) = code.processedReceipts.get? id := by
  cases hget : code.processedReceipts.get? id with
  | none => exact h.get?_variant_eq_none hget
  | some result =>
      have hmem := InsertionMap.get?_eq_some_iff.mp hget
      rw [h.get?_variant_iff]
      by_cases hnone : none ∈ variant.processedReceipts.keys
      · rcases Nat.lt_or_eq_of_le h.size_le with hlt | hfull
        · rw [room_of_mem hnone, rtake_of_length_le (Nat.le_sub_one_of_lt hlt)]
          exact hmem
        · rw [h.rtake_of_full hfull hnone]
          cases hcons : code.processedReceipts.entries with
          | nil => simp [hcons] at hmem
          | cons entry rest =>
              rw [hcons] at hmem
              rcases List.mem_cons.mp hmem with rfl | hrest
              · exact absurd ⟨id, hid, by simp [InsertionMap.keys, hcons], hfull, hnone⟩ hkept
              · exact hrest
      · rw [room_of_notMem hnone, rtake_of_length_le h.size_le]
        exact hmem

theorem lookup_eq (h : Trims code variant) {d : ReceiptDelivery}
    (hkept : ¬ LosesMarker code variant d) :
    (d.jobId.bind fun id ↦ variant.processedReceipts.get? (some id)) =
      d.jobId.bind code.processedReceipts.get? := by
  cases hid : d.jobId with
  | none => rfl
  | some id => exact h.get?_variant_eq hkept hid

theorem outcome_eq_iff (h : Trims code variant) (d : ReceiptDelivery) :
    (code.sendReceipt d).1 = (variant.sendReceipt d).1 ↔ ¬ LosesMarker code variant d := by
  constructor
  · intro heq hloses
    obtain ⟨id, result, hid, hcode, hvariant⟩ := h.get?_of_losesMarker hloses
    have hmarked : d.jobId.bind code.processedReceipts.get? = some result := by
      simpa [hid] using hcode
    have hunmarked : (d.jobId.bind fun id ↦ variant.processedReceipts.get? (some id)) = none := by
      simpa [hid] using hvariant
    rw [EmailProcessor.sendReceipt_marked hmarked,
      UnguardedProcessor.sendReceipt_unmarked hunmarked] at heq
    simp at heq
  · intro hkept
    have hlookup := h.lookup_eq hkept
    cases hmarker : d.jobId.bind code.processedReceipts.get? with
    | some marker =>
        rw [EmailProcessor.sendReceipt_marked hmarker,
          UnguardedProcessor.sendReceipt_marked (hlookup.trans hmarker)]
    | none =>
        rw [EmailProcessor.sendReceipt_unmarked hmarker,
          UnguardedProcessor.sendReceipt_unmarked (hlookup.trans hmarker)]

theorem step (h : Trims code variant) {d : ReceiptDelivery}
    (hkept : ¬ LosesMarker code variant d) : Trims (code.step d) (variant.step d) := by
  have hlookup := h.lookup_eq hkept
  rw [EmailProcessor.step, UnguardedProcessor.step]
  cases hmarker : d.jobId.bind code.processedReceipts.get? with
  | some marker =>
      rw [EmailProcessor.sendReceipt_marked hmarker,
        UnguardedProcessor.sendReceipt_marked (hlookup.trans hmarker)]
      exact h
  | none =>
      rw [EmailProcessor.sendReceipt_unmarked hmarker,
        UnguardedProcessor.sendReceipt_unmarked (hlookup.trans hmarker)]
      cases hid : d.jobId with
      | none => exact (h.rememberUnidentified ⟨d.uuid⟩).of_eq rfl rfl
      | some id =>
          have hnew : code.processedReceipts.get? id = none := by simpa [hid] using hmarker
          exact (h.rememberIdentified hnew ⟨d.uuid⟩).of_eq rfl rfl

theorem outcomes_eq_iff (h : Trims code variant) (deliveries : List ReceiptDelivery) :
    code.outcomes deliveries = variant.outcomes deliveries ↔
      AllSteps (fun s d ↦ (s.1.step d, s.2.step d)) (fun s d ↦ ¬ LosesMarker s.1 s.2 d)
        (code, variant) deliveries := by
  have hstep : ∀ code variant d, Trims code variant → ¬ LosesMarker code variant d →
      Trims (code.step d) (variant.step d) := fun _ _ _ h ↦ h.step
  have hsame : ∀ code variant d, Trims code variant →
      ([(code.sendReceipt d).1] = [(variant.sendReceipt d).1] ↔
        ¬ LosesMarker code variant d) := by
    intro code variant d h
    rw [List.cons.injEq, and_iff_left rfl]
    exact h.outcome_eq_iff d
  refine emitted_eq_iff_allSteps hstep (fun code variant d ↦ ?_) hsame h deliveries
  rfl

end Trims

/-- The variant answers every delivery as the code does, and sends the same,
exactly when no delivery is of the job with the oldest of 1000 markers while
the variant holds a marker under the undefined key. The sends of the outcomes
are what the two mailers have recorded. -/
theorem unguarded_outcomes_eq_iff (deliveries : List ReceiptDelivery) :
    (EmailProcessor.outcomes {} deliveries = UnguardedProcessor.outcomes {} deliveries ↔
      AllSteps (fun s d ↦ (s.1.step d, s.2.step d)) (fun s d ↦ ¬ LosesMarker s.1 s.2 d)
        (({}, {}) : EmailProcessor × UnguardedProcessor) deliveries) ∧
    (exec EmailProcessor.step {} deliveries).mailer = ({} : MailerStub).record
      ((EmailProcessor.outcomes {} deliveries).flatMap ReceiptOutcome.sends) ∧
    (exec UnguardedProcessor.step {} deliveries).mailer = ({} : MailerStub).record
      ((UnguardedProcessor.outcomes {} deliveries).flatMap ReceiptOutcome.sends) :=
  ⟨Trims.empty.outcomes_eq_iff deliveries, EmailProcessor.mailer_exec {} deliveries,
    UnguardedProcessor.mailer_exec {} deliveries⟩

/-! ## A marker that the undefined key crowds out -/

def receiptId (n : ℕ) : String := String.ofList (List.replicate (n + 1) 'r')

def receipt (n : ℕ) : ReceiptDelivery := ⟨some (receiptId n), ⟨"o1", "u1", 10⟩, n, "m1"⟩

def receiptWithoutId : ReceiptDelivery := ⟨none, ⟨"o2", "u2", 10⟩, 1000, "m2"⟩

/-- A thousand receipts, one without an id, and the first one again. -/
def crowdedOut : List ReceiptDelivery :=
  (List.range IDEMPOTENCY_MARKER_CAPACITY).map receipt ++ [receiptWithoutId, receipt 0]

theorem receiptId_injective : Function.Injective receiptId := by
  intro m n h
  simpa [receiptId] using congrArg (fun s : String ↦ s.toList.length) h

/-- After `n` receipts: the code has their markers, and the variant has none
under the undefined key. -/
structure Filled (n : ℕ) (s : EmailProcessor × UnguardedProcessor) : Prop where
  trims : Trims s.1 s.2
  keys : s.1.processedReceipts.keys = (List.range n).map receiptId
  unidentified : none ∉ s.2.processedReceipts.keys

theorem Filled.step {n : ℕ} {s : EmailProcessor × UnguardedProcessor} (h : Filled n s)
    (hroom : n < IDEMPOTENCY_MARKER_CAPACITY) :
    Filled (n + 1) (s.1.step (receipt n), s.2.step (receipt n)) := by
  have hkept : ¬ LosesMarker s.1 s.2 (receipt n) := fun hloses ↦
    h.unidentified hloses.choose_spec.2.2.2
  have hlen : s.1.processedReceipts.keys.length < IDEMPOTENCY_MARKER_CAPACITY := by
    rw [h.keys, List.length_map, List.length_range]
    exact hroom
  have habsent : receiptId n ∉ s.1.processedReceipts.keys := by
    rw [h.keys, List.mem_map]
    rintro ⟨m, hm, heq⟩
    rw [receiptId_injective heq, List.mem_range] at hm
    omega
  have hnew : s.1.processedReceipts.get? (receiptId n) = none :=
    InsertionMap.get?_eq_none_iff.mpr habsent
  refine ⟨h.trims.step hkept, ?_, ?_⟩
  · rw [EmailProcessor.keys_step (d := receipt n) rfl hnew, pushBounded_of_lt hlen,
      List.range_succ, List.map_append, ← h.keys]
    rfl
  · rw [UnguardedProcessor.keys_step (d := receipt n) rfl (h.trims.get?_variant_eq_none hnew)]
    intro hmem
    rcases mem_of_mem_pushBounded hmem with hold | hnone
    · exact h.unidentified hold
    · simp at hnone

theorem filled_exec {n : ℕ} (hle : n ≤ IDEMPOTENCY_MARKER_CAPACITY) :
    Filled n (exec (fun s d ↦ (s.1.step d, s.2.step d))
      (({}, {}) : EmailProcessor × UnguardedProcessor) ((List.range n).map receipt)) := by
  induction n with
  | zero => exact ⟨Trims.empty, rfl, List.not_mem_nil⟩
  | succ n ih =>
      rw [List.range_succ, List.map_append, exec_append]
      exact (ih (by omega)).step hle

/-- After the receipt without an id, the first receipt is the oldest of 1000,
and the variant holds the undefined key. -/
theorem Filled.losesMarker {s : EmailProcessor × UnguardedProcessor}
    (h : Filled IDEMPOTENCY_MARKER_CAPACITY s) :
    LosesMarker (s.1.step receiptWithoutId) (s.2.step receiptWithoutId) (receipt 0) := by
  have hunmarked : (receiptWithoutId.jobId.bind fun id ↦
      s.2.processedReceipts.get? (some id)) = none := rfl
  have hsize : s.1.processedReceipts.size = IDEMPOTENCY_MARKER_CAPACITY := by
    rw [← InsertionMap.length_keys, h.keys, List.length_map, List.length_range]
  have hhead : s.1.processedReceipts.keys.head? = some (receiptId 0) := by
    rw [h.keys, List.head?_map, List.head?_range]
    rfl
  refine ⟨receiptId 0, rfl, hhead, hsize, ?_⟩
  rw [UnguardedProcessor.step, UnguardedProcessor.sendReceipt_unmarked hunmarked]
  have hkeys := InsertionMap.keys_evictOver_set (n := IDEMPOTENCY_MARKER_CAPACITY)
    h.unidentified ⟨receiptWithoutId.uuid⟩
  exact hkeys ▸ mem_pushBounded_self capacity_pos _ _

theorem crowdedOut_outcomes_differ :
    EmailProcessor.outcomes {} crowdedOut ≠ UnguardedProcessor.outcomes {} crowdedOut := by
  rw [ne_eq, Trims.empty.outcomes_eq_iff, crowdedOut, AllSteps.append_iff]
  rintro ⟨-, -, hkept, -⟩
  exact hkept (filled_exec (le_refl _)).losesMarker

end NestQueueExample.Processors
