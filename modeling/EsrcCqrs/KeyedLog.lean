import Mathlib.Data.List.Induction

/-! An append-only log shared by many keys. An entry's sequence number is its
position, counted from one; a writer that saw the last number of its key has seen
every entry of that key exactly when the number is still the last one. -/

namespace KeyedLog
variable {K E : Type} [DecidableEq K]

def entriesOf (key : K) (log : List (K × E)) : List E :=
  log.filterMap fun entry => if entry.1 = key then some entry.2 else none

/-- Zero when the key has no entry. -/
def lastSequence (key : K) : List (K × E) → Nat
  | [] => 0
  | (k, _) :: rest =>
      match lastSequence key rest with
      | 0 => if k = key then 1 else 0
      | n + 1 => n + 2

@[simp] theorem entriesOf_append (key : K) (log more : List (K × E)) :
    entriesOf key (log ++ more) = entriesOf key log ++ entriesOf key more :=
  List.filterMap_append

theorem entriesOf_prefix (key : K) {log log' : List (K × E)} (h : log <+: log') :
    entriesOf key log <+: entriesOf key log' :=
  h.filterMap _

theorem entriesOf_snoc_self (key : K) (log : List (K × E)) (e : E) :
    entriesOf key (log ++ [(key, e)]) = entriesOf key log ++ [e] := by
  simp [entriesOf]

theorem entriesOf_snoc_ne {key k : K} (h : k ≠ key) (log : List (K × E)) (e : E) :
    entriesOf key (log ++ [(k, e)]) = entriesOf key log := by
  simp [entriesOf, h]

/-- One entry of a log, for a fold that follows one key. -/
def follow {σ : Type} (key : K) (f : σ → E → σ) (a : σ) (entry : K × E) : σ :=
  if entry.1 = key then f a entry.2 else a

theorem foldl_entriesOf {σ : Type} (key : K) (f : σ → E → σ) (a : σ) (log : List (K × E)) :
    (entriesOf key log).foldl f a = log.foldl (follow key f) a := by
  induction log generalizing a with
  | nil => rfl
  | cons entry log ih =>
      rw [List.foldl_cons, ← ih]
      by_cases same : entry.1 = key
      · simp only [entriesOf, List.filterMap_cons, if_pos same, follow, List.foldl_cons]
      · simp only [entriesOf, List.filterMap_cons, if_neg same, follow]

theorem lastSequence_snoc (key k : K) (log : List (K × E)) (e : E) :
    lastSequence key (log ++ [(k, e)]) =
      if k = key then log.length + 1 else lastSequence key log := by
  induction log with
  | nil => rfl
  | cons entry log ih =>
      rcases entry with ⟨j, x⟩
      simp only [List.cons_append, lastSequence, ih, List.length_cons]
      by_cases same : k = key
      · simp only [if_pos same]
      · simp only [if_neg same]

theorem lastSequence_le_length (key : K) (log : List (K × E)) :
    lastSequence key log ≤ log.length := by
  induction log with
  | nil => exact Nat.le_refl 0
  | cons entry log ih =>
      rcases entry with ⟨j, x⟩
      simp only [lastSequence, List.length_cons]
      split
      · split <;> omega
      · omega

/-- The optimistic check: an unchanged last number means that no entry of the
key came in between, whatever was appended for other keys. -/
theorem entriesOf_of_lastSequence {key : K} {log more : List (K × E)}
    (h : lastSequence key (log ++ more) = lastSequence key log) :
    entriesOf key (log ++ more) = entriesOf key log := by
  induction more using List.reverseRecOn with
  | nil => rw [List.append_nil]
  | append_singleton more entry ih =>
      rcases entry with ⟨k, e⟩
      rw [← List.append_assoc] at h ⊢
      rw [lastSequence_snoc] at h
      by_cases same : k = key
      · rw [if_pos same, List.length_append] at h
        have bound := lastSequence_le_length key log
        omega
      · rw [if_neg same] at h
        rw [entriesOf_snoc_ne same]
        exact ih h

end KeyedLog
