import Mathlib

/-!
Cells that are read and written one at a time.

Some points have a cell, and which do never changes. What a cell holds is decided by its
first value and the writes to it.
-/

namespace Lib.Memory

variable {P V : Type} [DecidableEq P]

/-- What every point holds, if it has a cell. -/
abbrev Cells (P V : Type) : Type := P → Option V

/-- A write changes nothing at a point without a cell. -/
def write (m : Cells P V) (p : P) (v : V) : Cells P V :=
  if (m p).isSome then Function.update m p (some v) else m

/-- The newest write to a point, newest last. -/
def latest (p : P) (ws : List (P × V)) : Option V :=
  (ws.reverse.find? fun w => w.1 = p).map Prod.snd

@[simp] lemma latest_nil (p : P) : latest p ([] : List (P × V)) = none := rfl

lemma latest_snoc (p : P) (ws : List (P × V)) (w : P × V) :
    latest p (ws ++ [w]) = if w.1 = p then some w.2 else latest p ws := by
  unfold latest
  rw [List.reverse_append, List.reverse_singleton, List.singleton_append, List.find?_cons]
  by_cases h : w.1 = p <;> simp [h]

/-- The cells after some writes. -/
def after (m : Cells P V) (ws : List (P × V)) : Cells P V :=
  fun p => (m p).map fun v => (latest p ws).getD v

@[simp] lemma after_nil (m : Cells P V) : after m [] = m := by
  ext p v
  simp [after]

@[simp] lemma isSome_after (m : Cells P V) (ws : List (P × V)) (p : P) :
    (after m ws p).isSome = (m p).isSome := by
  simp [after]

/-- One more write. -/
lemma write_after (m : Cells P V) (ws : List (P × V)) (p : P) (v : V) :
    write (after m ws) p v = after m (ws ++ [(p, v)]) := by
  funext q
  unfold write
  rw [isSome_after]
  by_cases hq : q = p
  · subst hq
    cases hm : m q with
    | none => simp [after, hm]
    | some u => simp [after, hm, latest_snoc]
  · have hlatest : latest q (ws ++ [(p, v)]) = latest q ws := by
      rw [latest_snoc, if_neg (Ne.symm hq)]
    split_ifs
    · rw [Function.update_of_ne hq]
      simp [after, hlatest]
    · simp [after, hlatest]

/-- More writes, one after another. -/
lemma foldl_write_after (m : Cells P V) (ws vs : List (P × V)) :
    vs.foldl (fun n w => write n w.1 w.2) (after m ws) = after m (ws ++ vs) := by
  induction vs generalizing ws with
  | nil => rw [List.append_nil, List.foldl_nil]
  | cons v vs ih =>
    rw [List.foldl_cons, write_after, ih]
    simp

end Lib.Memory
