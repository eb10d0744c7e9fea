/-!
# Ordered tables

A table is a list of keyed entries in the order in which the keys were first set, at most one entry a
key. Setting a key that is present changes its entry where it stands; setting a new key
puts it last.
-/
namespace CodeReview

/-- Keyed entries in the order in which their keys were first set. -/
abbrev Entries (α : Type) := List (String × α)

namespace Entries

variable {α : Type}

def get? : Entries α → String → Option α
  | [], _ => none
  | (k, v) :: rest, key => if k == key then some v else get? rest key

def has (es : Entries α) (key : String) : Bool := (get? es key).isSome

def keys (es : Entries α) : List String := es.map (·.1)

def values (es : Entries α) : List α := es.map (·.2)

/-- Sets the entry of a key, where it stands or else at the end. -/
def set : Entries α → String → α → Entries α
  | [], key, v => [(key, v)]
  | (k, w) :: rest, key, v => if k == key then (k, v) :: rest else (k, w) :: set rest key v

def modify (f : α → α) : Entries α → String → Entries α
  | [], _ => []
  | (k, v) :: rest, key => if k == key then (k, f v) :: rest else (k, v) :: modify f rest key

def setAll (es : Entries α) (new : List (String × α)) : Entries α :=
  new.foldl (fun out e => out.set e.1 e.2) es

@[simp] theorem get?_set_self (es : Entries α) (k : String) (v : α) : (es.set k v).get? k = some v := by
  induction es with
  | nil => simp [set, get?]
  | cons e rest ih =>
    obtain ⟨k', w⟩ := e
    by_cases h : k' = k <;> simp [set, get?, h, ih]

@[simp] theorem keys_modify (f : α → α) (es : Entries α) (k : String) : (es.modify f k).keys = es.keys := by
  induction es with
  | nil => rfl
  | cons e rest ih =>
    obtain ⟨k', w⟩ := e
    by_cases h : k' = k
    · simp [modify, keys, h]
    · simp only [modify, beq_iff_eq, h, if_false]
      simpa [keys] using ih

end Entries
end CodeReview
