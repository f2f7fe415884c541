import NestQueueExample.Foundations.JsValue

/-!
# Redaction of payloads

Before a payload is put on the event feed, the value of every sensitive key is
replaced by a marker, at any depth. Two values that agree outside the
sensitive keys have the same redaction.
-/

namespace NestQueueExample.Events

def REDACTED : String := "[redacted]"

def SENSITIVE_KEYS : List String :=
  ["to", "email", "password", "secret", "token", "authorization", "apikey", "connection",
    "url", "redisurl"]

def isSensitive (key : String) : Bool := SENSITIVE_KEYS.contains (JsString.toLowerCase key)

mutual

def redact : JsValue → JsValue
  | .array items => .array (redactItems items)
  | .object slots => .object (redactEntries [] slots)
  | value => value

def redactItems : List JsValue → List JsValue
  | [] => []
  | item :: items => redact item :: redactItems items

/-- The loop over the own entries of an object; `result` is the object built
so far. -/
def redactEntries (result : List (Slot × JsValue)) :
    List (Slot × JsValue) → List (Slot × JsValue)
  | [] => result
  | (.own key, entry) :: slots =>
      redactEntries
        (JsValue.assign result key (if isSensitive key then .string REDACTED else redact entry))
        slots
  | (.prototype, _) :: slots => redactEntries result slots

end

mutual

/-- The two values differ at most in what is stored under sensitive keys. -/
inductive Agree : JsValue → JsValue → Prop
  | refl (value : JsValue) : Agree value value
  | array {xs ys : List JsValue} (hitems : AgreeItems xs ys) : Agree (.array xs) (.array ys)
  | object {xs ys : List (Slot × JsValue)} (hslots : AgreeSlots xs ys) :
      Agree (.object xs) (.object ys)

inductive AgreeItems : List JsValue → List JsValue → Prop
  | nil : AgreeItems [] []
  | cons {x y : JsValue} {xs ys : List JsValue} (hhead : Agree x y) (htail : AgreeItems xs ys) :
      AgreeItems (x :: xs) (y :: ys)

inductive AgreeSlots : List (Slot × JsValue) → List (Slot × JsValue) → Prop
  | nil : AgreeSlots [] []
  | secret {key : String} {x y : JsValue} {xs ys : List (Slot × JsValue)}
      (hkey : isSensitive key = true) (htail : AgreeSlots xs ys) :
      AgreeSlots ((.own key, x) :: xs) ((.own key, y) :: ys)
  | cons {slot : Slot} {x y : JsValue} {xs ys : List (Slot × JsValue)}
      (hhead : Agree x y) (htail : AgreeSlots xs ys) :
      AgreeSlots ((slot, x) :: xs) ((slot, y) :: ys)

end

mutual

/-- The redaction depends on nothing under a sensitive key. -/
theorem redact_congr : ∀ {x y : JsValue}, Agree x y → redact x = redact y
  | _, _, .refl _ => rfl
  | _, _, .array hitems => by rw [redact, redact, redactItems_congr hitems]
  | _, _, .object hslots => by rw [redact, redact, redactEntries_congr hslots]

theorem redactItems_congr : ∀ {xs ys : List JsValue},
    AgreeItems xs ys → redactItems xs = redactItems ys
  | _, _, .nil => rfl
  | _, _, .cons hhead htail => by
      rw [redactItems, redactItems, redact_congr hhead, redactItems_congr htail]

theorem redactEntries_congr : ∀ {xs ys : List (Slot × JsValue)}, AgreeSlots xs ys →
    ∀ {result : List (Slot × JsValue)}, redactEntries result xs = redactEntries result ys
  | _, _, .nil, _ => rfl
  | _, _, .secret hkey htail, _ => by
      rw [redactEntries, redactEntries, if_pos hkey, if_pos hkey, redactEntries_congr htail]
  | (.own _, _) :: _, _, .cons hhead htail, _ => by
      rw [redactEntries, redactEntries, redact_congr hhead, redactEntries_congr htail]
  | (.prototype, _) :: _, _, .cons _ htail, _ => by
      rw [redactEntries, redactEntries, redactEntries_congr htail]

end

end NestQueueExample.Events
