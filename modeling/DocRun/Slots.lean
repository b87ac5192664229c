namespace DocRun

-- Values kept under names. Writing a name again replaces what it held.
abbrev Slots (α : Type) := List (String × α)

namespace Slots

variable {α : Type}

def get? (slots : Slots α) (name : String) : Option α := slots.lookup name

def put (slots : Slots α) (name : String) (value : α) : Slots α :=
  (name, value) :: slots.filter fun slot => slot.1 ≠ name

theorem get?_put_self (slots : Slots α) (name : String) (value : α) :
    (slots.put name value).get? name = some value := by
  simp [get?, put]

theorem get?_put_of_ne (slots : Slots α) {name other : String} (value : α) (h : other ≠ name) :
    (slots.put name value).get? other = slots.get? other := by
  have hne : (other == name) = false := by simpa using h
  simp only [get?, put, List.lookup_cons, hne]
  induction slots with
  | nil => rfl
  | cons slot slots ih =>
    obtain ⟨key, held⟩ := slot
    by_cases hk : key = name
    · subst hk
      simpa [List.lookup_cons, hne] using ih
    · simp only [ne_eq, hk, not_false_eq_true, decide_true, List.filter_cons_of_pos,
        List.lookup_cons]
      cases other == key with
      | true => rfl
      | false => exact ih

end Slots

end DocRun
