import SchemaTyping.UseStack

/-!
# The budget of a stack

Every name may have `maxNestedUses` uses on the stack of open uses. What is left of that, summed
over the distinct names to which a classification may lead, bounds how many further uses can be
entered.
-/

namespace SchemaTyping

/-! ### Sums over distinct elements -/

/-- The sum of a weight over the distinct elements of a list. -/
def sumDistinct (weight : String → Nat) : List String → Nat
  | [] => 0
  | name :: rest => sumDistinct weight rest + if name ∈ rest then 0 else weight name

theorem sumDistinct_filter (weight : String → Nat) {name : String} {names : List String}
    (h : name ∈ names) :
    sumDistinct weight names = sumDistinct weight (names.filter (· ≠ name)) + weight name := by
  induction names with
  | nil => simp at h
  | cons head rest ih =>
    by_cases hrest : name ∈ rest
    · by_cases heq : head = name
      · subst heq
        simp [sumDistinct, hrest, ih hrest]
      · have := ih hrest
        simp [sumDistinct, heq, List.mem_filter] at this ⊢
        omega
    · obtain rfl : name = head := by simpa [hrest] using h
      have hfilter : (name :: rest).filter (· ≠ name) = rest := by
        rw [List.filter_cons_of_neg (by simp)]
        exact List.filter_eq_self.2 fun n hn => by simpa using fun e : n = name => hrest (e ▸ hn)
      rw [hfilter, sumDistinct, if_neg hrest]

/-- More names have no smaller sum. -/
theorem sumDistinct_le_of_subset (weight : String → Nat) {names more : List String}
    (h : names ⊆ more) : sumDistinct weight names ≤ sumDistinct weight more := by
  induction names generalizing more with
  | nil => simp [sumDistinct]
  | cons name rest ih =>
    rw [List.cons_subset] at h
    by_cases hrest : name ∈ rest
    · simpa [sumDistinct, hrest] using ih h.2
    · have hsub : rest ⊆ more.filter (· ≠ name) := fun n hn =>
        List.mem_filter.2 ⟨h.2 hn, by simpa using fun e : n = name => hrest (e ▸ hn)⟩
      have := ih hsub
      have := sumDistinct_filter weight h.1
      simp only [sumDistinct, if_neg hrest]
      omega

theorem sumDistinct_le_of_le {light heavy : String → Nat} (h : ∀ name, light name ≤ heavy name)
    (names : List String) : sumDistinct light names ≤ sumDistinct heavy names := by
  induction names with
  | nil => simp [sumDistinct]
  | cons name rest ih =>
    have := h name
    simp only [sumDistinct]
    split <;> omega

/-- A weight that is smaller on one of the names and nowhere larger has a smaller sum. -/
theorem sumDistinct_lt_of_lt {light heavy : String → Nat} (h : ∀ name, light name ≤ heavy name)
    {name : String} {names : List String} (hname : name ∈ names)
    (hlt : light name < heavy name) : sumDistinct light names < sumDistinct heavy names := by
  rw [sumDistinct_filter light hname, sumDistinct_filter heavy hname]
  have := sumDistinct_le_of_le h (names.filter (· ≠ name))
  omega

/-! ### The budget -/

namespace UseStack

/-- How many further uses of the given names fit on the stack. -/
def budget (stack : UseStack) (names : List String) : Nat :=
  sumDistinct (fun name => maxNestedUses - stack.usesOf name) names

theorem budget_le_of_subset (stack : UseStack) {names more : List String} (h : names ⊆ more) :
    stack.budget names ≤ stack.budget more :=
  sumDistinct_le_of_subset _ h

/-- Entering a use that is not cut short lowers the budget of all names that have its name among
them. -/
theorem budget_enter_lt {stack : UseStack} {name : String} {args : List TypeUse}
    {names : List String} (hname : name ∈ names)
    (h : stack.blocks name (.declared name args) = false) :
    (stack.enter (TypeUse.declared name args).text).budget names < stack.budget names := by
  have hroom : stack.usesOf name < maxNestedUses := by
    simp [blocks] at h
    exact h.2
  refine sumDistinct_lt_of_lt (fun n => ?_) hname ?_
  · have := usesOf_enter stack n (TypeUse.declared name args).text
    omega
  · have := usesOf_enter stack name (TypeUse.declared name args).text
    rw [isUseOf_text] at this
    simp only [if_true] at this
    omega

end UseStack

end SchemaTyping
