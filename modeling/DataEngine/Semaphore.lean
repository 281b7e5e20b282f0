import Mathlib

/-!
Counting semaphores, by their laws.
-/

namespace DataEngine

/-- A counting semaphore. -/
class Semaphore (σ : Type) where
  create : σ
  post : σ → σ
  /-- `none` if there is nothing to take -/
  tryPend : σ → Option σ
  count : σ → ℕ
  count_create : count create = 0
  count_post (s : σ) : count (post s) = count s + 1
  tryPend_eq_none {s : σ} : tryPend s = none ↔ count s = 0
  count_of_tryPend {s t : σ} : tryPend s = some t → count s = count t + 1

instance : Semaphore ℕ where
  create := 0
  post n := n + 1
  tryPend n := if n = 0 then none else some (n - 1)
  count n := n
  count_create := rfl
  count_post _ := rfl
  tryPend_eq_none {n} := by simp
  count_of_tryPend {n m} h := by
    split_ifs at h
    obtain rfl : n - 1 = m := by simpa using h
    omega

end DataEngine
