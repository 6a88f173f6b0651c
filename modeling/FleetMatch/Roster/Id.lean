import FleetMatch.Json.Printer
import FleetMatch.Text.Blank

/-!
# Identifiers

Clients and those who ask for them are identified by a number or a name.  A number and a name are
never the same identifier, even if they look alike.

* `ClientId.parse`: the identifier that a text stands for.
* `ClientId.display`: the text of an identifier.
* `ClientId.order`: numbers come before names; names are compared by code points.
-/

namespace FleetMatch

/-- A number or a name. -/
inductive ClientId where
  | number (n : Int64)
  | name (s : String)
  deriving DecidableEq, Repr

namespace ClientId

/-- The text without the blanks around it is a number if it is a decimal numeral of 64 bits, and a
name otherwise. -/
def parse (raw : String) : ClientId :=
  let text := Text.trim raw.toList
  match Numeral.int64? text with
  | some n => .number n
  | none => .name (String.ofList text)

/-- The text of an identifier. -/
def display : ClientId → String
  | .number n => Numeral.ofInt n.toInt
  | .name s => s

/-- The identifier as a JSON value. -/
def toJson : ClientId → Json.Value
  | .number n => .ofInt n.toInt
  | .name s => .string s

/-- How two identifiers stand in order. -/
def order : ClientId → ClientId → Ordering
  | .number a, .number b => compare a b
  | .number _, .name _ => .lt
  | .name _, .number _ => .gt
  | .name a, .name b => compare a b

instance : Ord ClientId := ⟨order⟩

theorem order_swap (a b : ClientId) : order a b = (order b a).swap := by
  cases a <;> cases b <;> simp only [order]
  · exact Std.OrientedOrd.eq_swap
  · rfl
  · rfl
  · exact Std.OrientedOrd.eq_swap

theorem order_trans {a b c : ClientId} (hab : (order a b).isLE) (hbc : (order b c).isLE) :
    (order a c).isLE := by
  cases a <;> cases b <;> cases c <;> simp only [order] at hab hbc ⊢
  · exact Std.TransOrd.isLE_trans hab hbc
  · rfl
  · cases hbc
  · rfl
  · cases hab
  · cases hab
  · cases hbc
  · exact Std.TransOrd.isLE_trans hab hbc

theorem eq_of_order {a b : ClientId} (h : order a b = .eq) : a = b := by
  cases a <;> cases b <;> simp only [order] at h
  · rw [Std.LawfulEqOrd.eq_of_compare h]
  · cases h
  · cases h
  · rw [Std.LawfulEqOrd.eq_of_compare h]

instance : Std.TransOrd ClientId where
  eq_swap := order_swap _ _
  isLE_trans := order_trans

instance : Std.LawfulEqOrd ClientId where
  eq_of_compare := eq_of_order

/-- The identifiers in order, each of them once. -/
def sorted (ids : List ClientId) : List ClientId :=
  (ids.mergeSort fun a b => (compare a b).isLE).eraseReps

end ClientId

end FleetMatch
