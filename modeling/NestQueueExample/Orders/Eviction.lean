import NestQueueExample.Foundations.BoundedMap
import NestQueueExample.Orders.Repository

/-!
# Which orders the store still holds

Over any saves the order store holds the orders of the last 500 entries of an
id into it. A save of a held id is not an entry: it replaces the order and
leaves the position of the id, and so the order of eviction, as it was.
-/

namespace NestQueueExample.Orders.OrdersRepository

open Runs SlidingWindow

def saved (saves : List StoredOrder) : OrdersRepository := exec save empty saves

/-- The id of an order that is not held when it is saved. -/
def enters (r : OrdersRepository) (order : StoredOrder) : List String :=
  if order.id ∈ r.orders.keys then [] else [order.id]

def entered (saves : List StoredOrder) : List String := emitted save enters empty saves

/-- The order saved last under an id. -/
def latest (saves : List StoredOrder) (id : String) : Option StoredOrder :=
  (saves.filter fun order ↦ order.id = id).getLast?

/-- The id entered, and fewer than 500 absent ids were saved since. -/
def Retained (saves : List StoredOrder) (id : String) : Prop :=
  ∃ before after, entered saves = before ++ id :: after ∧ id ∉ after ∧
    after.length < MAX_ORDERS

/-! ## The saves as stores of a bounded map -/

def entryOf (order : StoredOrder) : String × StoredOrder := (order.id, order)

theorem max_orders_pos : 0 < MAX_ORDERS := Nat.succ_pos 499

theorem orders_save (r : OrdersRepository) (order : StoredOrder) :
    (r.save order).orders = r.orders.store MAX_ORDERS (entryOf order) := rfl

theorem orders_saved (saves : List StoredOrder) :
    (saved saves).orders = InsertionMap.stored MAX_ORDERS (saves.map entryOf) := by
  rw [InsertionMap.stored, exec, List.foldl_map]
  exact (List.foldl_hom orders fun r order ↦ (orders_save r order).symm).symm

theorem entered_eq (saves : List StoredOrder) :
    entered saves = InsertionMap.entered MAX_ORDERS (saves.map entryOf) := by
  have hempty : empty.orders = InsertionMap.empty := rfl
  rw [InsertionMap.entered, emitted_map]
  refine emitted_related (R := fun r m ↦ r.orders = m) (fun r m order h ↦ ?_)
    (fun r m order h ↦ ?_) hempty saves
  · rw [orders_save, h]
  · rw [enters, h]
    rfl

theorem latest_eq (saves : List StoredOrder) (id : String) :
    latest saves id = InsertionMap.latest (saves.map entryOf) id := by
  have hentries : (saves.map entryOf).filter (fun entry ↦ entry.1 = id) =
      (saves.filter fun order ↦ order.id = id).map entryOf := List.filter_map
  rw [InsertionMap.latest, hentries, List.getLast?_map, Option.map_map]
  exact Option.map_id_apply.symm

theorem retained_iff {saves : List StoredOrder} {id : String} :
    Retained saves id ↔ InsertionMap.Retained MAX_ORDERS (saves.map entryOf) id := by
  rw [Retained, InsertionMap.Retained, entered_eq]

theorem keys_saved (saves : List StoredOrder) :
    (saved saves).orders.keys = (entered saves).rtake MAX_ORDERS := by
  rw [orders_saved, InsertionMap.keys_stored max_orders_pos, entered_eq]

theorem saved_append (saves : List StoredOrder) (order : StoredOrder) :
    saved (saves ++ [order]) = (saved saves).save order := by
  simp [saved]

theorem keys_save_of_held {r : OrdersRepository} {order : StoredOrder}
    (h : order.id ∈ r.orders.keys) : (r.save order).orders.keys = r.orders.keys := by
  rw [orders_save]
  exact InsertionMap.keys_store_of_mem h

theorem keys_save_of_room {r : OrdersRepository} {order : StoredOrder}
    (h : order.id ∉ r.orders.keys) (hroom : r.orders.size < MAX_ORDERS) :
    (r.save order).orders.keys = r.orders.keys ++ [order.id] := by
  have hlen : r.orders.keys.length < MAX_ORDERS := by rwa [InsertionMap.length_keys]
  rw [orders_save, InsertionMap.keys_store_of_notMem max_orders_pos r.size_le h,
    pushBounded_of_lt hlen]
  rfl

theorem keys_save_of_full {saves : List StoredOrder} {order : StoredOrder}
    (h : order.id ∉ (saved saves).orders.keys)
    (hfull : (saved saves).orders.size = MAX_ORDERS) :
    ∃ before oldest after, entered saves = before ++ oldest :: after ∧ oldest ∉ after ∧
      (saved saves).orders.keys = oldest :: after ∧
      ((saved saves).save order).orders.keys = after ++ [order.id] := by
  rw [← saved_append, orders_saved, orders_saved, List.map_append, entered_eq]
  rw [orders_saved] at h hfull
  exact InsertionMap.keys_store_of_full max_orders_pos hfull h

theorem find_saved_eq_some_iff {saves : List StoredOrder} {id : String} {order : StoredOrder} :
    (saved saves).find id = some order ↔ latest saves id = some order ∧ Retained saves id := by
  rw [find, orders_saved, InsertionMap.get?_stored_eq_some_iff max_orders_pos, latest_eq,
    retained_iff]

theorem find_saved_eq_none_iff {saves : List StoredOrder} {id : String} :
    (saved saves).find id = none ↔ ¬ Retained saves id := by
  rw [find, orders_saved, InsertionMap.get?_stored_eq_none_iff max_orders_pos, retained_iff]

/-- After any saves at most 500 orders are held, in the order in which their
ids entered. A save of a held id keeps all ids in that order; a save of an
absent id that finds 500 orders evicts exactly the id that entered before all
the others that are held. An id is found, with the order saved last under it,
exactly while fewer than 500 absent ids were saved since it entered. -/
theorem eviction_first_in_first_out (saves : List StoredOrder) :
    (saved saves).orders.size ≤ MAX_ORDERS ∧
    (saved saves).orders.keys = (entered saves).rtake MAX_ORDERS ∧
    (∀ order : StoredOrder, order.id ∈ (saved saves).orders.keys →
      ((saved saves).save order).orders.keys = (saved saves).orders.keys) ∧
    (∀ order : StoredOrder, order.id ∉ (saved saves).orders.keys →
      (saved saves).orders.size < MAX_ORDERS →
      ((saved saves).save order).orders.keys = (saved saves).orders.keys ++ [order.id]) ∧
    (∀ order : StoredOrder, order.id ∉ (saved saves).orders.keys →
      (saved saves).orders.size = MAX_ORDERS →
      ∃ before oldest after, entered saves = before ++ oldest :: after ∧ oldest ∉ after ∧
        (saved saves).orders.keys = oldest :: after ∧
        ((saved saves).save order).orders.keys = after ++ [order.id]) ∧
    (∀ id order, (saved saves).find id = some order ↔
      latest saves id = some order ∧ Retained saves id) ∧
    (∀ id, (saved saves).find id = none ↔ ¬ Retained saves id) :=
  ⟨(saved saves).size_le, keys_saved saves, fun _ ↦ keys_save_of_held,
    fun _ ↦ keys_save_of_room, fun _ ↦ keys_save_of_full, fun _ _ ↦ find_saved_eq_some_iff,
    fun _ ↦ find_saved_eq_none_iff⟩

end NestQueueExample.Orders.OrdersRepository
