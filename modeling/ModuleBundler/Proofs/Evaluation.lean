/-!
# Reading closed runs back

A run of the model on a given input is evaluated by the kernel as a decision on its
`Option`-valued reading; these lemmas turn such a reading back into the result of the run.
-/

namespace ModuleBundler

variable {ε α : Type}

/-- A run whose reading is `some a` answered `a`. -/
theorem eq_ok_of_toOption {x : Except ε α} {a : α} (h : x.toOption = some a) : x = .ok a := by
  cases x <;> simp_all [Except.toOption]

/-- A run that did not fail answered something. -/
theorem exists_ok_of_isOk {x : Except ε α} (h : x.isOk = true) : ∃ a, x = .ok a := by
  cases x with
  | error e => simp [Except.isOk, Except.toBool] at h
  | ok a => exact ⟨a, rfl⟩

/-- A run that did not answer failed. -/
theorem exists_error_of_isOk {x : Except ε α} (h : x.isOk = false) : ∃ err, x = .error err := by
  cases x with
  | error err => exact ⟨err, rfl⟩
  | ok a => simp [Except.isOk, Except.toBool] at h

end ModuleBundler
