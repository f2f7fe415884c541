import Mathlib.Algebra.Order.Field.Rat
import Mathlib.Data.List.Basic

/-!
# JavaScript strings and values

Strings are sequences of Unicode characters; where a program measures a string
it counts UTF-16 units. A value is built from primitives, arrays and plain
objects. An object is the list of its slots in property order: its own
properties and, when it was changed, its prototype.
-/

namespace NestQueueExample

namespace JsString

/-- The characters whose lower case is an ASCII letter are the ASCII capitals
and the Kelvin sign; every other character is left as it is. -/
def lowerChar (c : Char) : Char := if c = '\u212a' then 'k' else c.toLower

/-- `String.prototype.toLowerCase`, exact wherever the result is compared with
an ASCII string: no other character lowers to ASCII characters alone. -/
def toLowerCase (s : String) : String := String.ofList (s.toList.map lowerChar)

def startsWith (s start : String) : Bool := start.toList.isPrefixOf s.toList

def slice (s : String) (n : ℕ) : String := String.ofList (s.toList.drop n)

def length (s : String) : ℕ :=
  (s.toList.map fun c ↦ if c.val < 0x10000 then 1 else 2).sum

theorem length_append (s t : String) : length (s ++ t) = length s + length t := by
  simp [length]

theorem one_le_length {s : String} (h : s ≠ "") : 1 ≤ length s := by
  rw [length]
  cases hs : s.toList with
  | nil => exact absurd (String.toList_eq_nil_iff.mp hs) h
  | cons c rest =>
      rw [List.map_cons, List.sum_cons]
      split <;> omega

theorem startsWith_iff {s start : String} :
    startsWith s start = true ↔ ∃ rest, s = start ++ rest := by
  rw [startsWith, List.isPrefixOf_iff_prefix]
  constructor
  · rintro ⟨rest, hrest⟩
    refine ⟨String.ofList rest, String.toList_injective ?_⟩
    simp [hrest]
  · rintro ⟨rest, rfl⟩
    simp

@[simp] theorem startsWith_append (start rest : String) :
    startsWith (start ++ rest) start = true :=
  startsWith_iff.mpr ⟨rest, rfl⟩

@[simp] theorem slice_append (start rest : String) :
    slice (start ++ rest) start.toList.length = rest := by
  simp [slice]

end JsString

/-- A slot of an object: an own property, or the prototype when it is not the
ordinary one. -/
inductive Slot where
  | own (key : String)
  | prototype
  deriving DecidableEq

inductive JsValue where
  | undefined
  | null
  | bool (b : Bool)
  | number (q : ℚ)
  | string (s : String)
  | array (items : List JsValue)
  | object (slots : List (Slot × JsValue))
  deriving Inhabited

namespace JsValue

def get? (slots : List (Slot × JsValue)) (key : String) : Option JsValue :=
  (slots.find? fun slot ↦ slot.1 = .own key).map Prod.snd

mutual

/-- The value read by `value[key]`, for a key that the built-in prototypes do
not define: the own property, else the property of the prototype. -/
def read : JsValue → String → JsValue
  | .object slots, key => (get? slots key).getD (readPrototype slots key)
  | _, _ => .undefined

def readPrototype : List (Slot × JsValue) → String → JsValue
  | [], _ => .undefined
  | (.prototype, value) :: _, key => read value key
  | (.own _, _) :: slots, key => readPrototype slots key

end

section Read

variable {slots : List (Slot × JsValue)} {key other : String} {value : JsValue}

theorem read_nil : read (.object []) key = .undefined := by
  simp [read, get?, readPrototype]

theorem read_own : read (.object ((.own key, value) :: slots)) key = value := by
  simp [read, get?]

theorem read_own_of_ne (h : key ≠ other) :
    read (.object ((.own key, value) :: slots)) other = read (.object slots) other := by
  simp [read, get?, readPrototype, h]

end Read

def put (slots : List (Slot × JsValue)) (slot : Slot) (value : JsValue) :
    List (Slot × JsValue) :=
  if slot ∈ slots.map Prod.fst then
    slots.map fun old ↦ if old.1 = slot then (slot, value) else old
  else
    slots ++ [(slot, value)]

/-- The assignment `target[key] = value` on an ordinary object. Assigning to
`__proto__` runs the inherited setter: an object, an array or `null` becomes
the prototype, and a primitive is ignored. -/
def assign (target : List (Slot × JsValue)) (key : String) (value : JsValue) :
    List (Slot × JsValue) :=
  if key = "__proto__" then
    match value with
    | .null | .array _ | .object _ => put target .prototype value
    | _ => target
  else put target (.own key) value

section Assign

variable {target : List (Slot × JsValue)} {slot : Slot} {key : String} {value : JsValue}

theorem mem_put {other : Slot} (h : other ∈ (put target slot value).map Prod.fst) :
    other ∈ target.map Prod.fst ∨ other = slot := by
  unfold put at h
  split at h
  · rw [List.map_map] at h
    obtain ⟨old, hold, heq⟩ := List.mem_map.mp h
    by_cases hslot : old.1 = slot
    · exact Or.inr (by simpa [hslot] using heq.symm)
    · exact Or.inl (List.mem_map.mpr ⟨old, hold, by simpa [hslot] using heq⟩)
  · simpa using h

theorem assign_of_notMem (hkey : key ≠ "__proto__") (h : .own key ∉ target.map Prod.fst) :
    assign target key value = target ++ [(.own key, value)] := by
  unfold assign put
  rw [if_neg hkey, if_neg h]

/-- No assignment makes an own property `__proto__`. -/
theorem own_proto_notMem_assign (h : .own "__proto__" ∉ target.map Prod.fst) :
    .own "__proto__" ∉ (assign target key value).map Prod.fst := by
  intro hmem
  unfold assign at hmem
  split at hmem
  · next hkey =>
      split at hmem
      all_goals first
        | exact h hmem
        | exact (mem_put hmem).elim h Slot.noConfusion
  · next hkey =>
      rcases mem_put hmem with hold | hnew
      · exact h hold
      · exact hkey (Slot.own.inj hnew).symm

end Assign

end JsValue

end NestQueueExample
