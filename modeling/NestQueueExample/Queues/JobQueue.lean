import Mathlib.Algebra.Order.Field.Rat
import NestQueueExample.Foundations.InsertionMap

/-!
# Job queues

What the enqueue of the library does to one queue. A job without an id of its
own gets the next number, never one that was given before; a custom id that is
present adds nothing; and while a deduplication key is live an enqueue under it
adds nothing either, unless it replaces the job that holds the key.
-/

namespace NestQueueExample.Queues

structure DeduplicationOptions where
  id : String
  ttl : Option ℕ := none
  extend : Bool := false
  replace : Bool := false
  keepLastIfActive : Bool := false
  deriving DecidableEq

structure JobsOptions where
  priority : Option ℕ := none
  delay : Option ℚ := none
  jobId : Option String := none
  attempts : Option ℕ := none
  deduplication : Option DeduplicationOptions := none
  deriving DecidableEq

structure QueuedJob (δ : Type) where
  name : String
  data : δ
  opts : JobsOptions := {}
  deriving DecidableEq

/-! ## Job ids -/

def autoId (n : ℕ) : String := n.repr

theorem autoId_inj {m n : ℕ} : autoId m = autoId n ↔ m = n := by
  constructor
  · intro h
    have hdigits := congrArg (fun id : String ↦ Nat.ofDigitChars 10 id.toList 0) h
    simpa [autoId] using hdigits
  · rintro rfl
    rfl

def isNumeral (id : String) : Bool := (Nat.ofDigitChars 10 id.toList 0).repr = id

theorem isNumeral_autoId (n : ℕ) : isNumeral (autoId n) = true := by
  simp [isNumeral, autoId]

def isInteger (id : String) : Bool :=
  isNumeral id ||
    match id.toList with
    | '-' :: digits => digits ≠ ['0'] && isNumeral (String.ofList digits)
    | _ => false

/-- The library rejects custom ids that are integers or contain a colon. -/
def isCustomId (id : String) : Bool := !isInteger id && !id.toList.contains ':'

theorem autoId_ne_of_isCustomId {id : String} (h : isCustomId id = true) (n : ℕ) :
    autoId n ≠ id := by
  rintro rfl
  simp [isCustomId, isInteger, isNumeral_autoId] at h

/-- No number is written with a letter. -/
theorem isNumeral_eq_false {id : String} {c : Char} (hc : c ∈ id.toList)
    (hdigit : c.isDigit = false) : isNumeral id = false := by
  rw [isNumeral, decide_eq_false_iff_not]
  intro h
  rw [← h, Nat.toList_repr] at hc
  rw [Nat.isDigit_of_mem_toDigits (by decide) (by decide) hc] at hdigit
  exact Bool.noConfusion hdigit

inductive EnqueueError where
  | invalidJobId (id : String)
  | unavailable (reason : String)
  deriving DecidableEq

/-! ## The queue -/

/-- The jobs by id, the next number to give, and the job that holds each live
deduplication key. No number from `nextId` on has been given to a job. -/
structure JobQueue (δ : Type) where
  jobs : InsertionMap String (QueuedJob δ)
  nextId : ℕ
  keys : InsertionMap String String
  fresh : ∀ n, nextId ≤ n → autoId n ∉ jobs.keys
  unissued : ∀ n, nextId ≤ n → ∀ key, keys.get? key ≠ some (autoId n)

/-- The outcome of an enqueue: the queue after it, the id it answers, and
whether it created a job. -/
structure Enqueued (δ : Type) where
  queue : JobQueue δ
  jobId : String
  created : Bool

namespace JobQueue

variable {δ : Type}

def empty : JobQueue δ where
  jobs := .empty
  nextId := 1
  keys := .empty
  fresh := by simp [InsertionMap.empty, InsertionMap.keys]
  unissued := by simp [InsertionMap.empty, InsertionMap.get?]

/-- Put a job under `id`, which no later number can be. -/
def insert (q : JobQueue δ) (id : String) (nextId : ℕ) (hnext : q.nextId ≤ nextId)
    (hid : ∀ n, nextId ≤ n → autoId n ≠ id) (job : QueuedJob δ) : JobQueue δ where
  jobs := q.jobs.set id job
  nextId := nextId
  keys := match job.opts.deduplication with
    | some deduplication => q.keys.set deduplication.id id
    | none => q.keys
  fresh n hn := by
    rw [← InsertionMap.get?_eq_none_iff, InsertionMap.get?_set, if_neg (hid n hn),
      InsertionMap.get?_eq_none_iff]
    exact q.fresh n (hnext.trans hn)
  unissued n hn key := by
    have hold := q.unissued n (hnext.trans hn) key
    split
    · rw [InsertionMap.get?_set]
      split
      · simpa using (hid n hn).symm
      · exact hold
    · exact hold

def remove (q : JobQueue δ) (id : String) : JobQueue δ where
  jobs := q.jobs.delete id
  nextId := q.nextId
  keys := q.keys
  fresh n hn := by
    rw [← InsertionMap.get?_eq_none_iff, InsertionMap.get?_delete,
      InsertionMap.get?_eq_none_iff.mpr (q.fresh n hn), ite_self]
  unissued := q.unissued

/-- The key lapses, or is cleared. -/
def dropKey (q : JobQueue δ) (key : String) : JobQueue δ where
  jobs := q.jobs
  nextId := q.nextId
  keys := q.keys.delete key
  fresh := q.fresh
  unissued n hn other := by
    rw [InsertionMap.get?_delete]
    split
    · simp
    · exact q.unissued n hn other

def insertAuto (q : JobQueue δ) (job : QueuedJob δ) : JobQueue δ :=
  q.insert (autoId q.nextId) (q.nextId + 1) (Nat.le_succ _)
    (fun n hn ↦ by rw [ne_eq, autoId_inj]; omega) job

/-- The ids of the jobs, in their order, and the queue with all of them. -/
def insertAll (q : JobQueue δ) : List (QueuedJob δ) → List String × JobQueue δ
  | [] => ([], q)
  | job :: jobs =>
      let (ids, after) := (q.insertAuto job).insertAll jobs
      (autoId q.nextId :: ids, after)

def insertCustom (q : JobQueue δ) (id : String) (hid : isCustomId id = true)
    (job : QueuedJob δ) : JobQueue δ :=
  q.insert id q.nextId le_rfl (fun n _ ↦ autoId_ne_of_isCustomId hid n) job

def create (q : JobQueue δ) (id : Option {id : String // isCustomId id = true})
    (job : QueuedJob δ) : Enqueued δ :=
  match id with
  | some id => ⟨q.insertCustom id.1 id.2 job, id.1, true⟩
  | none => ⟨q.insertAuto job, autoId q.nextId, true⟩

/-- The job that holds the live deduplication key of the options, if any. -/
def holder (q : JobQueue δ) (opts : JobsOptions) : Option String :=
  opts.deduplication.bind fun deduplication ↦ q.keys.get? deduplication.id

def replaces (opts : JobsOptions) (replaceable : Bool) : Bool :=
  replaceable && opts.deduplication.any DeduplicationOptions.replace

/-- `replaceable` tells whether the job that holds the deduplication key is
still waiting for its delay, so that another may take its place. -/
def add (q : JobQueue δ) (id : Option {id : String // isCustomId id = true})
    (job : QueuedJob δ) (replaceable : Bool) : Enqueued δ :=
  match id.filter fun id ↦ q.jobs.has id.1 with
  | some present => ⟨q, present.1, false⟩
  | none =>
      match q.holder job.opts with
      | some held =>
          if replaces job.opts replaceable then (q.remove held).create id job
          else ⟨q, held, false⟩
      | none => q.create id job

def enqueue (q : JobQueue δ) (name : String) (data : δ) (opts : JobsOptions)
    (replaceable : Bool) : Except EnqueueError (Enqueued δ) :=
  match opts.jobId with
  | none => .ok (q.add none ⟨name, data, opts⟩ replaceable)
  | some id =>
      if hid : isCustomId id = true then .ok (q.add (some ⟨id, hid⟩) ⟨name, data, opts⟩ replaceable)
      else .error (.invalidJobId id)

variable {q : JobQueue δ} {name : String} {data : δ} {opts : JobsOptions} {replaceable : Bool}

theorem entries_insertAuto (q : JobQueue δ) (job : QueuedJob δ) :
    (q.insertAuto job).jobs.entries = q.jobs.entries ++ [(autoId q.nextId, job)] :=
  InsertionMap.entries_set_of_notMem (q.fresh _ le_rfl) job

theorem enqueue_plain (hid : opts.jobId = none) (hkey : opts.deduplication = none) :
    q.enqueue name data opts replaceable =
      .ok ⟨q.insertAuto ⟨name, data, opts⟩, autoId q.nextId, true⟩ := by
  simp [enqueue, hid, add, holder, hkey, create]

/-- Without an id of its own, a job either collapses into the one that holds its
key, or is created under the next number. -/
theorem enqueue_keyed (hid : opts.jobId = none) :
    (∃ held, q.holder opts = some held ∧ replaces opts replaceable = false ∧
      q.enqueue name data opts replaceable = .ok ⟨q, held, false⟩) ∨
    ((∀ held, q.holder opts = some held → replaces opts replaceable = true) ∧
      ∃ queue : JobQueue δ, queue.nextId = q.nextId + 1 ∧
        q.enqueue name data opts replaceable = .ok ⟨queue, autoId q.nextId, true⟩) := by
  have hadd : q.enqueue name data opts replaceable =
      .ok (q.add none ⟨name, data, opts⟩ replaceable) := by
    simp only [enqueue, hid]
  rw [hadd]
  cases hholder : q.holder opts with
  | none =>
      right
      refine ⟨by simp, (q.create none ⟨name, data, opts⟩).queue, rfl, ?_⟩
      simp only [add, Option.filter_none, hholder]
      rfl
  | some held =>
      cases hreplaces : replaces opts replaceable with
      | true =>
          right
          refine ⟨fun _ _ ↦ rfl, ((q.remove held).create none ⟨name, data, opts⟩).queue, rfl, ?_⟩
          simp only [add, Option.filter_none, hholder, hreplaces, if_true]
          rfl
      | false =>
          left
          refine ⟨held, rfl, rfl, ?_⟩
          simp only [add, Option.filter_none, hholder, hreplaces]
          rfl

theorem keys_insertAuto {job : QueuedJob δ} {deduplication : DeduplicationOptions}
    (h : job.opts.deduplication = some deduplication) (key : String) :
    (q.insertAuto job).keys.get? key =
      if key = deduplication.id then some (autoId q.nextId) else q.keys.get? key := by
  have hkeys : (q.insertAuto job).keys = q.keys.set deduplication.id (autoId q.nextId) := by
    simp only [insertAuto, insert, h]
  rw [hkeys, InsertionMap.get?_set]

/-- The key of a job without an id of its own is held by the job that the enqueue
answers, and the other keys are held as before. -/
theorem keys_enqueue (hid : opts.jobId = none) {deduplication : DeduplicationOptions}
    (hkey : opts.deduplication = some deduplication) :
    ∃ enqueued, q.enqueue name data opts replaceable = .ok enqueued ∧
      ∀ key, enqueued.queue.keys.get? key =
        if key = deduplication.id then some enqueued.jobId else q.keys.get? key := by
  have hadd : q.enqueue name data opts replaceable =
      .ok (q.add none ⟨name, data, opts⟩ replaceable) := by
    simp only [enqueue, hid]
  refine ⟨_, hadd, fun key ↦ ?_⟩
  have hholder : q.holder opts = q.keys.get? deduplication.id := by
    rw [holder, hkey, Option.bind_some]
  simp only [add, Option.filter_none, hholder]
  cases hheld : q.keys.get? deduplication.id with
  | none => exact keys_insertAuto hkey key
  | some held =>
      dsimp only
      split
      · exact keys_insertAuto (q := q.remove held) hkey key
      · split
        · next hsame => rw [hsame, hheld]
        · rfl

/-- A custom id that is present adds nothing. -/
theorem enqueue_custom {id : String} (hid : opts.jobId = some id) (hkey : opts.deduplication = none)
    (hcustom : isCustomId id = true) :
    q.enqueue name data opts replaceable =
      if q.jobs.has id then .ok ⟨q, id, false⟩
      else .ok ⟨q.insertCustom id hcustom ⟨name, data, opts⟩, id, true⟩ := by
  simp only [enqueue, hid, hcustom, dif_pos]
  cases hhas : q.jobs.has id with
  | true => simp [add, Option.filter, hhas]
  | false => simp [add, Option.filter, hhas, holder, hkey, create]

theorem jobs_insertAuto (job : QueuedJob δ) :
    (q.insertAuto job).jobs = q.jobs.set (autoId q.nextId) job := rfl

theorem jobs_insertCustom {id : String} (hid : isCustomId id = true) (job : QueuedJob δ) :
    (q.insertCustom id hid job).jobs = q.jobs.set id job := rfl

theorem ids_insertAll (q : JobQueue δ) (jobs : List (QueuedJob δ)) :
    (q.insertAll jobs).1 = (List.range jobs.length).map fun n ↦ autoId (q.nextId + n) := by
  induction jobs generalizing q with
  | nil => rfl
  | cons job jobs ih =>
      have htail : (q.insertAuto job).nextId = q.nextId + 1 := rfl
      rw [insertAll, List.length_cons, List.range_succ_eq_map, List.map_cons, List.map_map]
      simp only [ih, htail, Nat.add_zero, List.cons.injEq, true_and]
      apply List.map_congr_left
      intro n _
      simp only [Function.comp_apply, Nat.succ_eq_add_one]
      congr 1
      omega

end JobQueue

end NestQueueExample.Queues
