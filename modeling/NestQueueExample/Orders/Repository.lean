import Mathlib.Algebra.Order.Field.Rat
import NestQueueExample.Foundations.InsertionMap

/-!
# The order store

Orders are kept in memory, in insertion order, up to a fixed number; a new
order that finds the store full evicts the oldest one first.
-/

namespace NestQueueExample.Orders

def MAX_ORDERS : ℕ := 500

structure StoredOrder where
  id : String
  recipient : String
  total : ℚ
  vip : Bool
  createdAt : String
  deriving DecidableEq

structure OrdersRepository where
  orders : InsertionMap String StoredOrder
  size_le : orders.size ≤ MAX_ORDERS

namespace OrdersRepository

def empty : OrdersRepository := ⟨.empty, Nat.zero_le _⟩

def makeRoom (orders : InsertionMap String StoredOrder) (id : String) :
    InsertionMap String StoredOrder :=
  if orders.size ≥ MAX_ORDERS ∧ ¬ orders.has id then orders.deleteOldest else orders

theorem size_set_makeRoom {orders : InsertionMap String StoredOrder}
    (h : orders.size ≤ MAX_ORDERS) (order : StoredOrder) :
    ((makeRoom orders order.id).set order.id order).size ≤ MAX_ORDERS := by
  have hpos : 0 < MAX_ORDERS := by decide
  rw [InsertionMap.size_set]
  by_cases hfull : orders.size ≥ MAX_ORDERS ∧ ¬ orders.has order.id
  · have hevicted : (makeRoom orders order.id).size = orders.size - 1 := by
      rw [makeRoom, if_pos hfull, InsertionMap.size_deleteOldest]
    split <;> omega
  · rw [makeRoom, if_neg hfull]
    rw [not_and_or, not_not] at hfull
    split
    · exact h
    · next habsent =>
        rcases hfull with hroom | hpresent
        · omega
        · exact absurd hpresent habsent

def save (r : OrdersRepository) (order : StoredOrder) : OrdersRepository :=
  ⟨(makeRoom r.orders order.id).set order.id order, size_set_makeRoom r.size_le order⟩

def find (r : OrdersRepository) (id : String) : Option StoredOrder := r.orders.get? id

theorem find_save (r : OrdersRepository) (order : StoredOrder) (id : String) :
    (r.save order).find id =
      if id = order.id then some order else (makeRoom r.orders order.id).get? id := by
  rw [find, save, InsertionMap.get?_set]

end OrdersRepository

end NestQueueExample.Orders
