import Mathlib.Data.List.Basic
import Mathlib.Tactic.TypeStar

/-!
# Observables over one hot channel

Subscribing to an observable first emits the items it holds, inside the call
to `subscribe`, and then either completes or stays on the channel and maps
every later item of it.
-/

namespace NestQueueExample

structure Observable (α β : Type*) where
  emits : List β
  follows : Option (α → β)

namespace Observable

variable {α β γ : Type*}

def ofList (items : List β) : Observable α β := ⟨items, none⟩

/-- `subject.asObservable()`: nothing on subscription, then the channel. -/
def channel : Observable α α := ⟨[], some id⟩

/-- `concat(first, second)`: the second is subscribed when the first completes,
so never when the first stays on the channel. -/
def concat (first second : Observable α β) : Observable α β :=
  match first.follows with
  | some f => ⟨first.emits, some f⟩
  | none => ⟨first.emits ++ second.emits, second.follows⟩

def map (f : β → γ) (source : Observable α β) : Observable α γ :=
  ⟨source.emits.map f, source.follows.map (f ∘ ·)⟩

end Observable

end NestQueueExample
