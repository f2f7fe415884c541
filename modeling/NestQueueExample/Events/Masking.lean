import NestQueueExample.Events.Redact

/-!
# What redaction masks and what it keeps

For a value read from JSON the redaction has the same arrays and the same own
keys in the same order, with a marker under every sensitive key, unless some
object that is copied has an own key `__proto__`: the copy is built by plain
assignments, and that one sets its prototype or nothing at all.
-/

namespace NestQueueExample.Events

mutual

/-- The values that `JSON.parse` returns: every object has its own properties
alone, under distinct keys. -/
def IsJson : JsValue → Prop
  | .undefined => False
  | .array items => IsJsonItems items
  | .object slots => (slots.map Prod.fst).Nodup ∧ IsJsonSlots slots
  | _ => True

def IsJsonItems : List JsValue → Prop
  | [] => True
  | item :: items => IsJson item ∧ IsJsonItems items

def IsJsonSlots : List (Slot × JsValue) → Prop
  | [] => True
  | (.own _, value) :: slots => IsJson value ∧ IsJsonSlots slots
  | (.prototype, _) :: _ => False

end

abbrev Json := {value : JsValue // IsJson value}

mutual

/-- Every object keeps its own keys in order; under a sensitive key there is
the marker, and any other value is its own redaction, masked in turn. -/
inductive Masks : JsValue → JsValue → Prop
  | null : Masks .null .null
  | bool (b : Bool) : Masks (.bool b) (.bool b)
  | number (q : ℚ) : Masks (.number q) (.number q)
  | string (s : String) : Masks (.string s) (.string s)
  | array {items masked : List JsValue} (hitems : MasksItems items masked) :
      Masks (.array items) (.array masked)
  | object {slots masked : List (Slot × JsValue)} (hslots : MasksSlots slots masked) :
      Masks (.object slots) (.object masked)

inductive MasksItems : List JsValue → List JsValue → Prop
  | nil : MasksItems [] []
  | cons {item : JsValue} {items masked : List JsValue} (hhead : Masks item (redact item))
      (htail : MasksItems items masked) : MasksItems (item :: items) (redact item :: masked)

inductive MasksSlots : List (Slot × JsValue) → List (Slot × JsValue) → Prop
  | nil : MasksSlots [] []
  | sensitive {key : String} {value : JsValue} {slots masked : List (Slot × JsValue)}
      (hkey : isSensitive key = true) (htail : MasksSlots slots masked) :
      MasksSlots ((.own key, value) :: slots) ((.own key, .string REDACTED) :: masked)
  | kept {key : String} {value : JsValue} {slots masked : List (Slot × JsValue)}
      (hkey : isSensitive key = false) (hhead : Masks value (redact value))
      (htail : MasksSlots slots masked) :
      MasksSlots ((.own key, value) :: slots) ((.own key, redact value) :: masked)

end

mutual

/-- No object, but under a sensitive key, has an own key `__proto__`. -/
def WithoutProtoKey : JsValue → Prop
  | .array items => ItemsWithoutProtoKey items
  | .object slots => SlotsWithoutProtoKey slots
  | _ => True

def ItemsWithoutProtoKey : List JsValue → Prop
  | [] => True
  | item :: items => WithoutProtoKey item ∧ ItemsWithoutProtoKey items

def SlotsWithoutProtoKey : List (Slot × JsValue) → Prop
  | [] => True
  | (slot, value) :: slots =>
      slot ≠ .own "__proto__" ∧
        (∀ key, slot = .own key → isSensitive key = false → WithoutProtoKey value) ∧
        SlotsWithoutProtoKey slots

end

/-! ## Redaction as a map over the slots -/

/-- What the copy of an object holds in the place of a slot. -/
def maskSlot : Slot × JsValue → Slot × JsValue
  | (.own key, entry) =>
      (.own key, if isSensitive key then .string REDACTED else redact entry)
  | slot => slot

@[simp] theorem maskSlot_fst (slot : Slot × JsValue) : (maskSlot slot).1 = slot.1 := by
  obtain ⟨_ | _, _⟩ := slot <;> rfl

theorem map_fst_maskSlot (slots : List (Slot × JsValue)) :
    (slots.map maskSlot).map Prod.fst = slots.map Prod.fst := by
  simp

/-- The keys that plain assignments to a fresh object reproduce. -/
structure Assignable (keys : List Slot) : Prop where
  nodup : keys.Nodup
  own : .prototype ∉ keys
  ordinary : .own "__proto__" ∉ keys

theorem redactEntries_eq_append {slots : List (Slot × JsValue)} {result : List (Slot × JsValue)}
    (h : Assignable ((result ++ slots).map Prod.fst)) :
    redactEntries result slots = result ++ slots.map maskSlot := by
  induction slots generalizing result with
  | nil => simp [redactEntries]
  | cons slot slots ih =>
      obtain ⟨key | _, entry⟩ := slot
      · have hkey : key ≠ "__proto__" := by
          rintro rfl
          exact h.ordinary (by simp)
        have hnew : .own key ∉ result.map Prod.fst := by
          have hnodup := h.nodup
          rw [List.map_append, List.map_cons, List.nodup_append] at hnodup
          exact fun hmem ↦ hnodup.2.2 _ hmem _ List.mem_cons_self rfl
        rw [redactEntries, JsValue.assign_of_notMem hkey hnew, ih, List.append_assoc,
          List.map_cons]
        · rfl
        · simpa using h
      · exact absurd (by simp) h.own

theorem redact_object {slots : List (Slot × JsValue)} (h : Assignable (slots.map Prod.fst)) :
    redact (.object slots) = .object (slots.map maskSlot) := by
  have hmap : redactEntries [] slots = [] ++ slots.map maskSlot := redactEntries_eq_append h
  rw [redact, hmap, List.nil_append]

/-- The copy of an object never has an own key `__proto__`. -/
theorem own_proto_notMem_redactEntries (slots : List (Slot × JsValue))
    {result : List (Slot × JsValue)} (h : .own "__proto__" ∉ result.map Prod.fst) :
    .own "__proto__" ∉ (redactEntries result slots).map Prod.fst := by
  induction slots generalizing result with
  | nil => simpa [redactEntries] using h
  | cons slot slots ih =>
      obtain ⟨key | _, entry⟩ := slot
      · rw [redactEntries]
        exact ih (JsValue.own_proto_notMem_assign h)
      · rw [redactEntries]
        exact ih h

/-! ## Where the copy keeps its shape -/

theorem MasksSlots.keys_eq {slots masked : List (Slot × JsValue)} (h : MasksSlots slots masked) :
    masked.map Prod.fst = slots.map Prod.fst := by
  induction slots generalizing masked with
  | nil =>
      cases h
      rfl
  | cons slot slots ih =>
      cases h with
      | sensitive hkey htail => rw [List.map_cons, ih htail, List.map_cons]
      | kept hkey hhead htail => rw [List.map_cons, ih htail, List.map_cons]

theorem slotsWithoutProtoKey_notMem {slots : List (Slot × JsValue)}
    (h : SlotsWithoutProtoKey slots) : .own "__proto__" ∉ slots.map Prod.fst := by
  induction slots with
  | nil => simp
  | cons slot slots ih =>
      rw [List.map_cons, List.mem_cons, not_or]
      exact ⟨fun heq ↦ h.1 heq.symm, ih h.2.2⟩

mutual

theorem withoutProtoKey_of_masks : ∀ {value : JsValue}, Masks value (redact value) →
    WithoutProtoKey value
  | .undefined, _ => trivial
  | .null, _ => trivial
  | .bool _, _ => trivial
  | .number _, _ => trivial
  | .string _, _ => trivial
  | .array items, h => by
      rw [redact] at h
      cases h with
      | array hitems => exact itemsWithoutProtoKey_of_masks hitems
  | .object slots, h => by
      rw [redact] at h
      cases h with
      | object hslots =>
          have hproto : .own "__proto__" ∉ (redactEntries [] slots).map Prod.fst :=
            own_proto_notMem_redactEntries slots List.not_mem_nil
          rw [hslots.keys_eq] at hproto
          exact slotsWithoutProtoKey_of_masks hproto hslots

theorem itemsWithoutProtoKey_of_masks : ∀ {items masked : List JsValue},
    MasksItems items masked → ItemsWithoutProtoKey items
  | [], _, _ => trivial
  | _ :: _, _, .cons hhead htail =>
      ⟨withoutProtoKey_of_masks hhead, itemsWithoutProtoKey_of_masks htail⟩

theorem slotsWithoutProtoKey_of_masks : ∀ {slots masked : List (Slot × JsValue)},
    .own "__proto__" ∉ slots.map Prod.fst → MasksSlots slots masked → SlotsWithoutProtoKey slots
  | [], _, _, _ => trivial
  | _ :: _, _, hproto, .sensitive hkey htail => by
      rw [List.map_cons, List.mem_cons, not_or] at hproto
      refine ⟨Ne.symm hproto.1, fun key heq hplain ↦ ?_,
        slotsWithoutProtoKey_of_masks hproto.2 htail⟩
      rw [← Slot.own.inj heq, hkey] at hplain
      contradiction
  | _ :: _, _, hproto, .kept hkey hhead htail => by
      rw [List.map_cons, List.mem_cons, not_or] at hproto
      exact ⟨Ne.symm hproto.1, fun _ _ _ ↦ withoutProtoKey_of_masks hhead,
        slotsWithoutProtoKey_of_masks hproto.2 htail⟩

end

theorem prototype_notMem_of_isJsonSlots {slots : List (Slot × JsValue)}
    (h : IsJsonSlots slots) : .prototype ∉ slots.map Prod.fst := by
  induction slots with
  | nil => simp
  | cons slot slots ih =>
      obtain ⟨key | _, value⟩ := slot
      · simpa using ih h.2
      · exact h.elim

theorem assignable_of_isJson {slots : List (Slot × JsValue)} (hjson : IsJson (.object slots))
    (hkeys : SlotsWithoutProtoKey slots) : Assignable (slots.map Prod.fst) :=
  ⟨hjson.1, prototype_notMem_of_isJsonSlots hjson.2, slotsWithoutProtoKey_notMem hkeys⟩

mutual

theorem masks_redact : ∀ {value : JsValue}, IsJson value → WithoutProtoKey value →
    Masks value (redact value)
  | .undefined, hjson, _ => hjson.elim
  | .null, _, _ => by simpa [redact] using Masks.null
  | .bool b, _, _ => by simpa [redact] using Masks.bool b
  | .number q, _, _ => by simpa [redact] using Masks.number q
  | .string s, _, _ => by simpa [redact] using Masks.string s
  | .array items, hjson, hkeys => by
      rw [redact]
      exact .array (masksItems_redact hjson hkeys)
  | .object slots, hjson, hkeys => by
      rw [redact_object (assignable_of_isJson hjson hkeys)]
      exact .object (masksSlots_map hjson.2 hkeys)

theorem masksItems_redact : ∀ {items : List JsValue}, IsJsonItems items →
    ItemsWithoutProtoKey items → MasksItems items (redactItems items)
  | [], _, _ => by simpa [redactItems] using MasksItems.nil
  | _ :: _, hjson, hkeys => by
      rw [redactItems]
      exact .cons (masks_redact hjson.1 hkeys.1) (masksItems_redact hjson.2 hkeys.2)

theorem masksSlots_map : ∀ {slots : List (Slot × JsValue)}, IsJsonSlots slots →
    SlotsWithoutProtoKey slots → MasksSlots slots (slots.map maskSlot)
  | [], _, _ => .nil
  | (.own key, value) :: slots, hjson, hkeys => by
      have htail := masksSlots_map hjson.2 hkeys.2.2
      cases hkey : isSensitive key with
      | true => simpa [maskSlot, hkey] using MasksSlots.sensitive hkey htail
      | false =>
          have hhead := masks_redact hjson.1 (hkeys.2.1 key rfl hkey)
          simpa [maskSlot, hkey] using MasksSlots.kept hkey hhead htail
  | (.prototype, _) :: _, hjson, _ => hjson.elim

end

mutual

theorem redact_redact : ∀ {value : JsValue}, IsJson value → WithoutProtoKey value →
    redact (redact value) = redact value
  | .undefined, hjson, _ => hjson.elim
  | .null, _, _ => by simp [redact]
  | .bool _, _, _ => by simp [redact]
  | .number _, _, _ => by simp [redact]
  | .string _, _, _ => by simp [redact]
  | .array items, hjson, hkeys => by
      rw [redact, redact, redactItems_redactItems hjson hkeys]
  | .object slots, hjson, hkeys => by
      have h := assignable_of_isJson hjson hkeys
      rw [redact_object h, redact_object (by rwa [map_fst_maskSlot]),
        map_maskSlot_map_maskSlot hjson.2 hkeys]

theorem redactItems_redactItems : ∀ {items : List JsValue}, IsJsonItems items →
    ItemsWithoutProtoKey items → redactItems (redactItems items) = redactItems items
  | [], _, _ => by simp [redactItems]
  | _ :: _, hjson, hkeys => by
      rw [redactItems, redactItems, redact_redact hjson.1 hkeys.1,
        redactItems_redactItems hjson.2 hkeys.2]

theorem map_maskSlot_map_maskSlot : ∀ {slots : List (Slot × JsValue)}, IsJsonSlots slots →
    SlotsWithoutProtoKey slots → (slots.map maskSlot).map maskSlot = slots.map maskSlot
  | [], _, _ => rfl
  | (.own key, value) :: slots, hjson, hkeys => by
      rw [List.map_cons, List.map_cons, map_maskSlot_map_maskSlot hjson.2 hkeys.2.2]
      cases hkey : isSensitive key with
      | true => simp [maskSlot, hkey]
      | false => simp [maskSlot, hkey, redact_redact hjson.1 (hkeys.2.1 key rfl hkey)]
  | (.prototype, _) :: _, hjson, _ => hjson.elim

end

/-- Redaction masks the sensitive values of a JSON value, keeps its shape and is
idempotent exactly when no object outside the sensitive keys has an own key
`__proto__`. -/
theorem redact_masks_iff (value : Json) :
    Masks value.1 (redact value.1) ∧ redact (redact value.1) = redact value.1 ↔
      WithoutProtoKey value.1 :=
  ⟨fun h ↦ withoutProtoKey_of_masks h.1,
    fun h ↦ ⟨masks_redact value.2 h, redact_redact value.2 h⟩⟩

/-- A payload whose key `__proto__` came from JSON text. -/
def protoPayload : Json :=
  ⟨.object [(.own "__proto__", .object [(.own "orderId", .string "o1")])], by
    simp [IsJson, IsJsonSlots]⟩

theorem not_masks_protoPayload :
    ¬ (Masks protoPayload.1 (redact protoPayload.1) ∧
      redact (redact protoPayload.1) = redact protoPayload.1) := by
  rintro ⟨hmasks, -⟩
  have hplain : isSensitive "__proto__" = false := by decide
  have hredact : redact protoPayload.1 =
      .object [(.prototype, .object [(.own "orderId", .string "o1")])] := by
    have horder : isSensitive "orderId" = false := by decide
    simp [protoPayload, redact, redactEntries, hplain, horder, JsValue.assign, JsValue.put]
  rw [hredact] at hmasks
  cases hmasks with
  | object hslots => cases hslots

end NestQueueExample.Events
