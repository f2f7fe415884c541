import NestQueueExample.Foundations.JsValue

/-!
# Schemas

The syntax of zod schemas, typed by what a successful parse returns, and the
documented facts about `safeParse` that a program relies on. A parser with
these facts is given too; its messages are not those of the library.
-/

namespace NestQueueExample

structure ZodIssue where
  path : List String
  message : String
  deriving DecidableEq

inductive StringCheck where
  | min (length : ℕ)
  | max (length : ℕ)
  | regex (accepts : String → Bool)

inductive NumberCheck where
  | int
  | nonnegative
  | positive
  | min (bound : ℚ)
  | max (bound : ℚ)

mutual

inductive Schema : Type → Type 1 where
  | string (checks : List StringCheck) : Schema String
  | number (checks : List NumberCheck) : Schema ℚ
  | coerceNumber (checks : List NumberCheck) : Schema ℚ
  | boolean : Schema Bool
  | enum (values : List String) : Schema {value : String // value ∈ values}
  | record : Schema (List (String × JsValue))
  | array {α : Type} (inner : Schema α) (least most : ℕ) : Schema (List α)
  | union {α β : Type} (left : Schema α) (right : Schema β) : Schema (α ⊕ β)
  | optional {α : Type} (inner : Schema α) : Schema (Option α)
  | default {α : Type} (inner : Schema α) (value : α) : Schema α
  | refine {α : Type} (inner : Schema α) (holds : α → Bool) (message : String) : Schema α
  | transform {α β : Type} (inner : Schema α) (f : α → β) : Schema β
  /-- An object with these fields, returned in the form that `make` gives it. -/
  | object {α β : Type} (fields : Fields α) (make : α → β) : Schema β
  | strictObject {α β : Type} (fields : Fields α) (make : α → β) : Schema β

inductive Fields : Type → Type 1 where
  | nil : Fields Unit
  | cons {α β : Type} (key : String) (field : Schema α) (rest : Fields β) : Fields (α × β)

end

structure Zod where
  safeParse {α : Type} (schema : Schema α) (input : JsValue) : Except (List ZodIssue) α

/-- The field values that `zod` reads off `input`. -/
def Zod.FieldsParsed (zod : Zod) (input : JsValue) : {α : Type} → Fields α → α → Prop
  | _, .nil, _ => True
  | _, .cons key field rest, (a, b) =>
      zod.safeParse field (input.read key) = .ok a ∧ zod.FieldsParsed input rest b

/-- What the library documents of a successful parse: strings and members of an
enumeration are returned as they are, an absent optional value stays absent, a
default stands in for `undefined`, and an object is parsed field by field. -/
structure Zod.Documented (zod : Zod) : Prop where
  string_ok {checks : List StringCheck} {input : JsValue} {s : String}
    (h : zod.safeParse (.string checks) input = .ok s) : input = .string s
  enum_ok {values : List String} {input : JsValue} {s : {value : String // value ∈ values}}
    (h : zod.safeParse (.enum values) input = .ok s) : input = .string s
  optional_none {α : Type} {inner : Schema α} {input : JsValue}
    (h : zod.safeParse (.optional inner) input = .ok none) : input = .undefined
  optional_some {α : Type} {inner : Schema α} {input : JsValue} {a : α}
    (h : zod.safeParse (.optional inner) input = .ok (some a)) :
    zod.safeParse inner input = .ok a
  default_ok {α : Type} {inner : Schema α} {value : α} {input : JsValue} {a : α}
    (h : zod.safeParse (.default inner value) input = .ok a) :
    (input = .undefined ∧ a = value) ∨ zod.safeParse inner input = .ok a
  object_ok {α β : Type} {fields : Fields α} {make : α → β} {input : JsValue} {b : β}
    (h : zod.safeParse (.object fields make) input = .ok b) :
    ∃ a, zod.FieldsParsed input fields a ∧ make a = b

def StringCheck.holds : StringCheck → String → Bool
  | .min length, s => length ≤ JsString.length s
  | .max length, s => JsString.length s ≤ length
  | .regex accepts, s => accepts s

def MAX_SAFE_INTEGER : ℚ := 2 ^ 53 - 1

def NumberCheck.holds : NumberCheck → ℚ → Bool
  | .int, q => q.den = 1 ∧ -MAX_SAFE_INTEGER ≤ q ∧ q ≤ MAX_SAFE_INTEGER
  | .nonnegative, q => 0 ≤ q
  | .positive, q => 0 < q
  | .min bound, q => bound ≤ q
  | .max bound, q => q ≤ bound

/-- What the library documents of the values it checks: a string passes exactly
when it passes every check, a member of an enumeration always does, and a
coerced number has passed its checks. -/
structure Zod.Checks (zod : Zod) : Prop where
  string_iff {checks : List StringCheck} {input : JsValue} {s : String} :
    zod.safeParse (.string checks) input = .ok s ↔
      input = .string s ∧ ∀ check ∈ checks, check.holds s = true
  enum_iff {values : List String} {input : JsValue} {s : {value : String // value ∈ values}} :
    zod.safeParse (.enum values) input = .ok s ↔ input = .string s.1
  coerceNumber_holds {checks : List NumberCheck} {input : JsValue} {q : ℚ}
    (h : zod.safeParse (.coerceNumber checks) input = .ok q) :
    ∀ check ∈ checks, check.holds q = true

/-- What the library documents of schemas made from others: a transform is
applied to what the inner schema returns, and a default changes nothing for an
input that is given. -/
structure Zod.Composes (zod : Zod) : Prop where
  transform_iff {α β : Type} {inner : Schema α} {f : α → β} {input : JsValue} {b : β} :
    zod.safeParse (.transform inner f) input = .ok b ↔
      ∃ a, zod.safeParse inner input = .ok a ∧ f a = b
  default_given {α : Type} {inner : Schema α} {value : α} {input : JsValue}
    (h : input ≠ .undefined) :
    zod.safeParse (.default inner value) input = zod.safeParse inner input

/-- What the library documents of absent values and of objects: a default is
returned for `undefined`, and an object whose fields are all read is accepted. -/
structure Zod.Fills (zod : Zod) : Prop where
  default_absent {α : Type} {inner : Schema α} {value : α} :
    zod.safeParse (.default inner value) .undefined = .ok value
  object_fields {α β : Type} {fields : Fields α} {make : α → β} {slots : List (Slot × JsValue)}
    {a : α} (h : zod.FieldsParsed (.object slots) fields a) :
    zod.safeParse (.object fields make) (.object slots) = .ok (make a)

/-- What the library documents of coerced numbers: a string is read as
`Number` reads it, and a finite number that passes its checks is accepted. -/
structure Zod.Coerces (zod : Zod) (toNumber : JsValue → Option ℚ) : Prop where
  coerceNumber_string {checks : List NumberCheck} {s : String} {q : ℚ}
    (hs : toNumber (.string s) = some q) (h : ∀ check ∈ checks, check.holds q = true) :
    zod.safeParse (.coerceNumber checks) (.string s) = .ok q

/-- What the library documents of numbers: a number passes exactly when it passes
every check. -/
structure Zod.Numbers (zod : Zod) : Prop where
  number_iff {checks : List NumberCheck} {input : JsValue} {q : ℚ} :
    zod.safeParse (.number checks) input = .ok q ↔
      input = .number q ∧ ∀ check ∈ checks, check.holds q = true

/-- What the library documents of objects: nothing else is accepted as one. -/
structure Zod.Objects (zod : Zod) : Prop where
  object_input {α β : Type} {fields : Fields α} {make : α → β} {input : JsValue} {b : β}
    (h : zod.safeParse (.object fields make) input = .ok b) : ∃ slots, input = .object slots

/-! ## A parser -/

def INVALID_INPUT : String := "Invalid input"

def ZodIssue.within (key : String) (issue : ZodIssue) : ZodIssue :=
  { issue with path := key :: issue.path }

def JsValue.ownKeys (slots : List (Slot × JsValue)) : List String :=
  slots.filterMap fun slot ↦ match slot.1 with
    | .own key => some key
    | .prototype => none

def Fields.keys : {α : Type} → Fields α → List String
  | _, .nil => []
  | _, .cons key _ rest => key :: rest.keys

def invalid {α : Type} : Except (List ZodIssue) α := .error [⟨[], INVALID_INPUT⟩]

mutual

/-- The parser; `toNumber` is the conversion `Number(value)` where its result is
a finite number. -/
def Schema.parse (toNumber : JsValue → Option ℚ) :
    {α : Type} → Schema α → JsValue → Except (List ZodIssue) α
  | _, .string checks, input =>
      match input with
      | .string s => if checks.all fun check ↦ check.holds s then .ok s else invalid
      | _ => invalid
  | _, .number checks, input =>
      match input with
      | .number q => if checks.all fun check ↦ check.holds q then .ok q else invalid
      | _ => invalid
  | _, .coerceNumber checks, input =>
      match toNumber input with
      | some q => if checks.all fun check ↦ check.holds q then .ok q else invalid
      | none => invalid
  | _, .boolean, input =>
      match input with
      | .bool b => .ok b
      | _ => invalid
  | _, .enum values, input =>
      match input with
      | .string s => if hs : s ∈ values then .ok ⟨s, hs⟩ else invalid
      | _ => invalid
  | _, .record, input =>
      match input with
      | .object slots => .ok (slots.filterMap fun slot ↦ match slot.1 with
          | .own key => some (key, slot.2)
          | .prototype => none)
      | _ => invalid
  | _, .array inner least most, input =>
      match input with
      | .array items =>
          if least ≤ items.length ∧ items.length ≤ most then
            items.mapM fun item ↦ inner.parse toNumber item
          else invalid
      | _ => invalid
  | _, .union left right, input =>
      match left.parse toNumber input with
      | .ok a => .ok (.inl a)
      | .error _ =>
          match right.parse toNumber input with
          | .ok b => .ok (.inr b)
          | .error _ => invalid
  | _, .optional inner, input =>
      match input with
      | .undefined => .ok none
      | value => (inner.parse toNumber value).map some
  | _, .default inner value, input =>
      match input with
      | .undefined => .ok value
      | given => inner.parse toNumber given
  | _, .refine inner holds message, input =>
      match inner.parse toNumber input with
      | .ok a => if holds a then .ok a else .error [⟨[], message⟩]
      | .error issues => .error issues
  | _, .transform inner f, input => (inner.parse toNumber input).map f
  | _, .object fields make, input =>
      match input with
      | .object slots => (fields.parse toNumber (.object slots)).map make
      | _ => invalid
  | _, .strictObject fields make, input =>
      match input with
      | .object slots =>
          if (JsValue.ownKeys slots).all fun key ↦ key ∈ fields.keys then
            (fields.parse toNumber (.object slots)).map make
          else invalid
      | _ => invalid

def Fields.parse (toNumber : JsValue → Option ℚ) :
    {α : Type} → Fields α → JsValue → Except (List ZodIssue) α
  | _, .nil, _ => .ok ()
  | _, .cons key field rest, input =>
      match field.parse toNumber (input.read key), rest.parse toNumber input with
      | .ok a, .ok b => .ok (a, b)
      | .ok _, .error issues => .error issues
      | .error issues, .ok _ => .error (issues.map (ZodIssue.within key))
      | .error issues, .error others => .error (issues.map (ZodIssue.within key) ++ others)

end

def Zod.ofParse (toNumber : JsValue → Option ℚ) : Zod := ⟨Schema.parse toNumber⟩

theorem Fields.parse_fieldsParsed (toNumber : JsValue → Option ℚ) {input : JsValue} :
    ∀ {α : Type} {fields : Fields α} {a : α}, fields.parse toNumber input = .ok a →
      (Zod.ofParse toNumber).FieldsParsed input fields a
  | _, .nil, _, _ => trivial
  | _, .cons key field rest, (a, b), h => by
      rw [Fields.parse] at h
      split at h <;> try contradiction
      rename_i hfield hrest
      obtain ⟨rfl, rfl⟩ := Prod.mk.injEq .. ▸ Except.ok.inj h
      exact ⟨hfield, Fields.parse_fieldsParsed toNumber hrest⟩

theorem Zod.checks_ofParse (toNumber : JsValue → Option ℚ) : (Zod.ofParse toNumber).Checks where
  string_iff {checks input s} := by
    simp only [Zod.ofParse, Schema.parse]
    cases input with
    | string t =>
        simp only [JsValue.string.injEq]
        split
        · next hall =>
            rw [List.all_eq_true] at hall
            constructor
            · intro h
              obtain rfl := Except.ok.inj h
              exact ⟨rfl, hall⟩
            · rintro ⟨rfl, -⟩
              rfl
        · next hfail =>
            rw [List.all_eq_true] at hfail
            constructor
            · intro h
              contradiction
            · rintro ⟨rfl, hall⟩
              exact absurd hall hfail
    | _ => simp [invalid]
  enum_iff {values input s} := by
    simp only [Zod.ofParse, Schema.parse]
    cases input with
    | string t =>
        simp only [JsValue.string.injEq]
        split
        · next hmem =>
            rw [Except.ok.injEq]
            exact Subtype.ext_iff
        · next hmem =>
            constructor
            · intro h
              contradiction
            · rintro rfl
              exact absurd s.2 hmem
    | _ => simp [invalid]
  coerceNumber_holds {checks input q} h := by
    simp only [Zod.ofParse, Schema.parse] at h
    split at h
    · split at h
      · next hall =>
          obtain rfl := Except.ok.inj h
          exact List.all_eq_true.mp hall
      · contradiction
    · contradiction

theorem Zod.composes_ofParse (toNumber : JsValue → Option ℚ) :
    (Zod.ofParse toNumber).Composes where
  transform_iff {α β inner f input b} := by
    simp only [Zod.ofParse, Schema.parse]
    cases inner.parse toNumber input with
    | error issues => simp [Except.map]
    | ok a => simp [Except.map]
  default_given {α inner value input} h := by
    cases input with
    | undefined => exact absurd rfl h
    | _ => rfl

theorem Zod.documented_ofParse (toNumber : JsValue → Option ℚ) :
    (Zod.ofParse toNumber).Documented where
  string_ok {checks input s} h := by
    simp only [Zod.ofParse, Schema.parse] at h
    split at h
    · split at h
      · rw [Except.ok.inj h]
      · contradiction
    · contradiction
  enum_ok {values input s} h := by
    simp only [Zod.ofParse, Schema.parse] at h
    split at h
    · split at h
      · rw [← Except.ok.inj h]
      · contradiction
    · contradiction
  optional_none {α inner input} h := by
    simp only [Zod.ofParse, Schema.parse] at h
    split at h
    · rfl
    · cases hinner : inner.parse toNumber input <;> simp [hinner, Except.map] at h
  optional_some {α inner input a} h := by
    simp only [Zod.ofParse, Schema.parse] at h ⊢
    split at h
    · simp at h
    · cases hinner : inner.parse toNumber input with
      | error issues => simp [hinner, Except.map] at h
      | ok b => simpa [hinner, Except.map] using h
  default_ok {α inner value input a} h := by
    simp only [Zod.ofParse, Schema.parse] at h ⊢
    split at h
    · exact .inl ⟨rfl, (Except.ok.inj h).symm⟩
    · exact .inr h
  object_ok {α β fields make input b} h := by
    simp only [Zod.ofParse, Schema.parse] at h
    split at h
    · rename_i slots
      cases hfields : fields.parse toNumber (.object slots) with
      | error issues => simp [hfields, Except.map] at h
      | ok a =>
          exact ⟨a, Fields.parse_fieldsParsed toNumber hfields, by
            simpa [hfields, Except.map] using h⟩
    · contradiction

theorem Fields.parse_of_fieldsParsed (toNumber : JsValue → Option ℚ) {input : JsValue} :
    ∀ {α : Type} {fields : Fields α} {a : α},
      (Zod.ofParse toNumber).FieldsParsed input fields a → fields.parse toNumber input = .ok a
  | _, .nil, _, _ => rfl
  | _, .cons key field rest, (a, b), h => by
      have hfield : field.parse toNumber (input.read key) = .ok a := h.1
      rw [Fields.parse, hfield, Fields.parse_of_fieldsParsed toNumber h.2]

theorem Zod.coerces_ofParse (toNumber : JsValue → Option ℚ) :
    (Zod.ofParse toNumber).Coerces toNumber where
  coerceNumber_string hs h := by
    simp only [Zod.ofParse, Schema.parse, hs]
    rw [if_pos (List.all_eq_true.mpr h)]

theorem Zod.fills_ofParse (toNumber : JsValue → Option ℚ) : (Zod.ofParse toNumber).Fills where
  default_absent := rfl
  object_fields {α β fields make slots a} h := by
    simp [Zod.ofParse, Schema.parse, Fields.parse_of_fieldsParsed toNumber h, Except.map]

theorem Zod.objects_ofParse (toNumber : JsValue → Option ℚ) : (Zod.ofParse toNumber).Objects where
  object_input {α β fields make input b} h := by
    simp only [Zod.ofParse, Schema.parse] at h
    split at h
    · next slots => exact ⟨slots, rfl⟩
    · contradiction

theorem Zod.numbers_ofParse (toNumber : JsValue → Option ℚ) : (Zod.ofParse toNumber).Numbers where
  number_iff {checks input q} := by
    simp only [Zod.ofParse, Schema.parse]
    cases input with
    | number r =>
        simp only [JsValue.number.injEq]
        split
        · next hall =>
            rw [List.all_eq_true] at hall
            constructor
            · intro h
              obtain rfl := Except.ok.inj h
              exact ⟨rfl, hall⟩
            · rintro ⟨rfl, -⟩
              rfl
        · next hfail =>
            rw [List.all_eq_true] at hfail
            constructor
            · intro h
              contradiction
            · rintro ⟨rfl, hall⟩
              exact absurd hall hfail
    | _ => simp [invalid]

end NestQueueExample
