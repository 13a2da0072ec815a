import EsrcCqrs.RwLock
import Mathlib.Algebra.BigOperators.Group.Finset.Piecewise
import Mathlib.Algebra.Order.BigOperators.Group.Finset

/-! Tasks that share a reader-writer lock come to their end: no guard is held while another one
is waited for, so whatever is in the way of a task can leave at once. When all have ended, each
has done so as in a sequence of their sections. -/

namespace Interaction

section Termination
variable {σ ε : Type} {init : σ → Prop} {step : σ → ε → σ → Prop} {I : Nat → σ → Prop} {final : σ → Prop}

/-- An execution is no longer than what it may still take at its start. -/
theorem Execution.length_le {n : Nat} (first : ∀ s, init s → I n s)
    (lower : ∀ {n s e s'}, I n s → step s e s' → ∃ n' < n, I n' s') {es : List ε} {s : σ}
    (h : Execution init step es s) : ∃ m, es.length + m ≤ n ∧ I m s := by
  induction h with
  | start started => exact ⟨n, Nat.le_of_eq (Nat.zero_add n), first _ started⟩
  | snoc _ moved ih =>
      obtain ⟨m, bound, holds⟩ := ih
      obtain ⟨m', less, holds'⟩ := lower holds moved
      refine ⟨m', ?_, holds'⟩
      rw [List.length_append, List.length_singleton]
      omega

/-- Steps that use something up lead to an end, where only an end is stuck. -/
theorem Continues.reaches {n : Nat} {s : σ}
    (lower : ∀ {n s e s'}, I n s → step s e s' → ∃ n' < n, I n' s')
    (unstuck : ∀ {n s}, I n s → final s ∨ ∃ e s', step s e s') (holds : I n s) :
    ∃ es s', Continues step s es s' ∧ final s' := by
  induction n using Nat.strongRecOn generalizing s with
  | ind n ih =>
      rcases unstuck holds with ended | ⟨e, s', moved⟩
      · exact ⟨[], s, .done s, ended⟩
      · obtain ⟨n', less, holds'⟩ := lower holds moved
        obtain ⟨es, s'', run, ended⟩ := ih n' less holds'
        exact ⟨e :: es, s'', .cons moved run, ended⟩

end Termination

/-- No call is left to make. -/
def Prog.Ended {F : Signature} {α : Type} (p : Prog F α) : Prop := ∃ o, p = .ofOutcome o

end Interaction

namespace RwLock
open Interaction Interaction.Prog

/-- What is left of a job, and how it will end. -/
inductive Remaining (α R : Type) where
  | untouched (job : Job α R)
  | reading (result : Outcome R)
  | editing (a : α) (result : Outcome R)
  | ended (result : Outcome R)

namespace Remaining
variable {α R : Type}

def prog : Remaining α R → Prog (Sig α) R
  | .untouched job => job.prog
  | .reading result => .call .dropRead fun _ => .ofOutcome result
  | .editing a result => .call (.dropWrite a) fun _ => .ofOutcome result
  | .ended result => .ofOutcome result

/-- The calls that are left to make. -/
def left : Remaining α R → Nat
  | .untouched (.modify _ _) => 2
  | .untouched (.inspect _) => 2
  | .untouched (.skip _) => 0
  | .reading _ => 1
  | .editing _ _ => 1
  | .ended _ => 0

theorem left_untouched_le (job : Job α R) : (untouched job).left ≤ 2 := by
  cases job with
  | modify | inspect => exact Nat.le_refl 2
  | skip => exact Nat.zero_le 2

end Remaining

/-- The requests that give a guard back. -/
def Op.Drops {α : Type} : Op α → Prop
  | .dropRead => True
  | .dropWrite _ => True
  | _ => False

section Tasks
variable {α R ι : Type}

/-- The guards that are given out: any number to readers, or a single one to a writer. -/
structure Guarded (rest : ι → Remaining α R) (s : Pool ι R (Lock α) (Sig α)) : Prop where
  task : ∀ i, s.task i = (rest i).prog
  readers : ∃ holders : Finset ι, holders.card = s.world.readers ∧
    ∀ i, i ∈ holders ↔ ∃ result, rest i = .reading result
  writer : s.world.writing = true → ∃ i a result, rest i = .editing a result
  alone : ∀ {i a result}, rest i = .editing a result → s.world.writing = true ∧ s.world.readers = 0 ∧
    ∀ {j a' result'}, rest j = .editing a' result' → j = i

theorem guarded_start (job : ι → Job α R) (first : α) :
    Guarded (fun i => .untouched (job i)) (start job first) where
  task _ := rfl
  readers := ⟨∅, rfl, fun i => ⟨fun member => absurd member (Finset.notMem_empty i), nofun⟩⟩
  writer := nofun
  alone := nofun

variable [DecidableEq ι] {rest : ι → Remaining α R} {s : Pool ι R (Lock α) (Sig α)} {i : ι}

theorem Guarded.task_update (h : Guarded rest s) (i : ι) (r : Remaining α R) (j : ι) :
    Function.update s.task i r.prog j = (Function.update rest i r j).prog := by
  rw [Function.apply_update (fun _ => Remaining.prog), funext h.task]

theorem Guarded.read (h : Guarded rest s) {result : α → Outcome R}
    (waits : rest i = .untouched (.inspect result)) (free : s.world.writing = false) :
    Guarded (Function.update rest i (.reading (result s.world.value)))
      ⟨Function.update s.task i (Remaining.reading (result s.world.value)).prog,
        { s.world with readers := s.world.readers + 1 }⟩ := by
  obtain ⟨holders, count, members⟩ := h.readers
  have outside : i ∉ holders := by
    rw [members, waits]
    exact nofun
  refine ⟨h.task_update i _, ⟨insert i holders, ?_, ?_⟩, ?_, ?_⟩
  · rw [Finset.card_insert_of_notMem outside, count]
  · intro j
    rw [Finset.mem_insert]
    by_cases same : j = i
    · subst same
      rw [Function.update_self]
      exact iff_of_true (.inl rfl) ⟨_, rfl⟩
    · rw [Function.update_of_ne same, ← members]
      exact or_iff_right same
  · intro writing
    exact absurd (free.symm.trans writing) nofun
  · intro j a o editing
    by_cases same : j = i
    · subst same
      rw [Function.update_self] at editing
      cases editing
    · rw [Function.update_of_ne same] at editing
      exact absurd (free.symm.trans (h.alone editing).1) nofun

theorem Guarded.dropRead (h : Guarded rest s) {result : Outcome R} (holds : rest i = .reading result) :
    Guarded (Function.update rest i (.ended result))
      ⟨Function.update s.task i (Remaining.ended result).prog,
        { s.world with readers := s.world.readers - 1 }⟩ := by
  obtain ⟨holders, count, members⟩ := h.readers
  have inside : i ∈ holders := (members i).mpr ⟨result, holds⟩
  refine ⟨h.task_update i _, ⟨holders.erase i, ?_, ?_⟩, ?_, ?_⟩
  · rw [Finset.card_erase_of_mem inside, count]
  · intro j
    rw [Finset.mem_erase]
    by_cases same : j = i
    · subst same
      rw [Function.update_self]
      exact iff_of_false (fun both => both.1 rfl) nofun
    · rw [Function.update_of_ne same, ← members]
      exact and_iff_right same
  · intro writing
    obtain ⟨j, a, o, editing⟩ := h.writer writing
    refine ⟨j, a, o, ?_⟩
    rw [Function.update_of_ne]
    · exact editing
    · rintro rfl
      cases editing.symm.trans holds
  · intro j a o editing
    by_cases same : j = i
    · subst same
      rw [Function.update_self] at editing
      cases editing
    · rw [Function.update_of_ne same] at editing
      -- a reader and a writer at once: this does not happen
      obtain ⟨-, none, -⟩ := h.alone editing
      rw [none, Finset.card_eq_zero] at count
      rw [count] at inside
      exact absurd inside (Finset.notMem_empty i)

theorem Guarded.write (h : Guarded rest s) {f : α → α} {result : α → Outcome R}
    (waits : rest i = .untouched (.modify f result)) (free : s.world.writing = false)
    (none : s.world.readers = 0) :
    Guarded (Function.update rest i (.editing (f s.world.value) (result s.world.value)))
      ⟨Function.update s.task i (Remaining.editing (f s.world.value) (result s.world.value)).prog,
        { s.world with writing := true }⟩ := by
  have only : ∀ {j a o}, Function.update rest i (.editing (f s.world.value) (result s.world.value)) j =
      .editing a o → j = i := by
    intro j a o editing
    by_contra other
    rw [Function.update_of_ne other] at editing
    exact absurd (free.symm.trans (h.alone editing).1) nofun
  obtain ⟨holders, count, members⟩ := h.readers
  refine ⟨h.task_update i _, ⟨holders, count, ?_⟩, ?_, ?_⟩
  · intro j
    by_cases same : j = i
    · subst same
      rw [Function.update_self, members, waits]
      exact iff_of_false nofun nofun
    · rw [Function.update_of_ne same, ← members]
  · exact fun _ => ⟨i, _, _, Function.update_self ..⟩
  · intro j a o editing
    refine ⟨rfl, none, fun editing' => ?_⟩
    exact (only editing').trans (only editing).symm

theorem Guarded.dropWrite (h : Guarded rest s) {a : α} {result : Outcome R}
    (holds : rest i = .editing a result) :
    Guarded (Function.update rest i (.ended result))
      ⟨Function.update s.task i (Remaining.ended result).prog,
        { s.world with value := a, writing := false }⟩ := by
  obtain ⟨holders, count, members⟩ := h.readers
  refine ⟨h.task_update i _, ⟨holders, count, ?_⟩, nofun, ?_⟩
  · intro j
    by_cases same : j = i
    · subst same
      rw [Function.update_self, members, holds]
      exact iff_of_false nofun nofun
    · rw [Function.update_of_ne same, ← members]
  · intro j a' o editing
    by_cases same : j = i
    · subst same
      rw [Function.update_self] at editing
      cases editing
    · rw [Function.update_of_ne same] at editing
      exact absurd ((h.alone holds).2.2 editing) same

/-- Every granted request uses up one of the calls that are left to its task. -/
theorem Guarded.step (h : Guarded rest s) {op : Op α} {s' : Pool ι R (Lock α) (Sig α)}
    (moved : Pool.Step Grant s (i, op) s') :
    ∃ r, Guarded (Function.update rest i r) s' ∧ r.left + 1 = (rest i).left := by
  cases moved with
  | @call _ _ next _ _ task granted =>
      have own : (rest i).prog = .call op next := (h.task i).symm.trans task
      cases remains : rest i with
      | untouched job =>
          rw [remains] at own
          cases job with
          | modify f result =>
              cases own
              cases granted with
              | write free none => exact ⟨_, h.write remains free none, rfl⟩
          | inspect result =>
              cases own
              cases granted with
              | read free => exact ⟨_, h.read remains free, rfl⟩
          | skip result => exact absurd own ofOutcome_ne_call
      | reading result =>
          rw [remains] at own
          cases own
          cases granted with
          | dropRead => exact ⟨_, h.dropRead remains, rfl⟩
      | editing a result =>
          rw [remains] at own
          cases own
          cases granted with
          | dropWrite => exact ⟨_, h.dropWrite remains, rfl⟩
      | ended result =>
          rw [remains] at own
          exact absurd own ofOutcome_ne_call

/-- Either a guard can be given back at once, or whoever waits can be served, in whichever order
the lock keeps them. -/
def Unblocked (s : Pool ι R (Lock α) (Sig α)) : Prop :=
  (∃ i op s', op.Drops ∧ Pool.Step Grant s (i, op) s') ∨
    ∀ i, ¬ (s.task i).Ended → ∃ op s', Pool.Step Grant s (i, op) s'

theorem Guarded.unblocked (h : Guarded rest s) : Unblocked s := by
  obtain ⟨holders, count, members⟩ := h.readers
  by_cases held : ∃ i, i ∈ holders
  · obtain ⟨i, inside⟩ := held
    obtain ⟨result, reading⟩ := (members i).mp inside
    have task := h.task i
    rw [reading] at task
    exact .inl ⟨i, .dropRead, _, trivial, .call task .dropRead⟩
  · cases writing : s.world.writing with
    | true =>
        obtain ⟨i, a, result, editing⟩ := h.writer writing
        have task := h.task i
        rw [editing] at task
        exact .inl ⟨i, .dropWrite a, _, trivial, .call task (.dropWrite a)⟩
    | false =>
        have none : s.world.readers = 0 := by
          rw [← count, Finset.card_eq_zero]
          exact Finset.eq_empty_of_forall_notMem fun i inside => held ⟨i, inside⟩
        refine .inr fun i unfinished => ?_
        have task := h.task i
        cases remains : rest i with
        | untouched job =>
            rw [remains] at task
            cases job with
            | modify f result => exact ⟨_, _, .call task (.write writing none)⟩
            | inspect result => exact ⟨_, _, .call task (.read writing)⟩
            | skip result => exact absurd ⟨result, task⟩ unfinished
        | reading result => exact absurd ⟨i, (members i).mpr ⟨result, remains⟩⟩ held
        | editing a result => exact absurd (writing.symm.trans (h.alone remains).1) nofun
        | ended result =>
            rw [remains] at task
            exact absurd ⟨result, task⟩ unfinished

variable [Fintype ι]

/-- Guards are in order, and `n` requests are left to all tasks together. -/
def Left (n : Nat) (s : Pool ι R (Lock α) (Sig α)) : Prop :=
  ∃ rest : ι → Remaining α R, Guarded rest s ∧ ∑ i, (rest i).left = n

theorem Left.step {n : Nat} {l : ι × Op α} {s' : Pool ι R (Lock α) (Sig α)} (h : Left n s)
    (moved : Pool.Step Grant s l s') : ∃ n' < n, Left n' s' := by
  obtain ⟨rest, guarded, rfl⟩ := h
  obtain ⟨r, guarded', used⟩ := guarded.step moved
  refine ⟨_, ?_, _, guarded', rfl⟩
  apply Finset.sum_lt_sum
  · intro j _
    by_cases same : j = l.1
    · subst same
      rw [Function.update_self]
      exact Nat.le_of_succ_le (Nat.le_of_eq used)
    · rw [Function.update_of_ne same]
  · refine ⟨l.1, Finset.mem_univ _, ?_⟩
    rw [Function.update_self]
    exact Nat.lt_of_succ_le (Nat.le_of_eq used)

theorem Left.unstuck {n : Nat} (h : Left n s) :
    (∀ i, (s.task i).Ended) ∨ ∃ l s', Pool.Step Grant s l s' := by
  obtain ⟨rest, guarded, -⟩ := h
  rcases guarded.unblocked with ⟨i, op, s', -, moved⟩ | served
  · exact .inr ⟨(i, op), s', moved⟩
  · by_cases all : ∀ i, (s.task i).Ended
    · exact .inl all
    · obtain ⟨i, unfinished⟩ := not_forall.mp all
      obtain ⟨op, s', moved⟩ := served i unfinished
      exact .inr ⟨(i, op), s', moved⟩

/-- Tasks that each have one job at a lock: nothing can keep them from their end. -/
structure Finishes (labels : List (ι × Op α)) (s : Pool ι R (Lock α) (Sig α)) : Prop where
  bounded : labels.length ≤ 2 * Fintype.card ι
  unblocked : Unblocked s
  completes : ∃ more s', Continues (Pool.Step Grant) s more s' ∧ ∀ i, (s'.task i).Ended
  maximal : (∀ l s', ¬ Pool.Step Grant s l s') → ∀ i, (s.task i).Ended

theorem finishes {job : ι → Job α R} {first : α} {labels : List (ι × Op α)}
    (run : Execution (· = start job first) (Pool.Step Grant) labels s) : Finishes labels s := by
  obtain ⟨m, bound, left⟩ := run.length_le (I := Left)
    (by rintro s rfl; exact ⟨_, guarded_start job first, rfl⟩) Left.step
  have most : ∑ i, (Remaining.untouched (job i)).left ≤ 2 * Fintype.card ι := by
    calc ∑ i, (Remaining.untouched (job i)).left ≤ ∑ _i : ι, 2 :=
          Finset.sum_le_sum fun i _ => Remaining.left_untouched_le (job i)
      _ = Fintype.card ι * 2 := Finset.sum_const 2
      _ = 2 * Fintype.card ι := Nat.mul_comm _ _
  refine ⟨by omega, ?_, Continues.reaches Left.step Left.unstuck left, ?_⟩
  · obtain ⟨rest, guarded, -⟩ := left
    exact guarded.unblocked
  · intro stuck
    rcases left.unstuck with all | ⟨l, s', moved⟩
    · exact all
    · exact absurd moved (stuck l s')

end Tasks

section Sequences
variable {α R ι : Type} {job : ι → Job α R} {first : α} {labels : List (ι × Op α)}
  {s : Pool ι R (Lock α) (Sig α)}

/-- How a task ends that finds what the write sections before its own have left. -/
inductive Ends (job : ι → Job α R) (first : α) (labels : List (ι × Op α)) (i : ι) : Outcome R → Prop
  | modified {f : α → α} {result : α → Outcome R} {before rest : List ι} :
      job i = .modify f result → writers labels = before ++ i :: rest →
      Ends job first labels i (result (after job first before))
  | inspected {result : α → Outcome R} {before rest : List (ι × Op α)} :
      job i = .inspect result → labels = before ++ (i, .read) :: rest →
      Ends job first labels i (result (after job first (writers before)))
  | skipped {result : Outcome R} : job i = .skip result → Ends job first labels i result

namespace Ends
variable {i : ι} {o : Outcome R}

theorem of_modify (h : Ends job first labels i o) {f : α → α} {result : α → Outcome R}
    (modifies : job i = .modify f result) : ∃ before rest, writers labels = before ++ i :: rest ∧
      o = result (after job first before) := by
  cases h with
  | modified same split =>
      cases modifies.symm.trans same
      exact ⟨_, _, split, rfl⟩
  | inspected inspects => cases modifies.symm.trans inspects
  | skipped skips => cases modifies.symm.trans skips

theorem of_inspect (h : Ends job first labels i o) {result : α → Outcome R}
    (inspects : job i = .inspect result) : ∃ before rest, labels = before ++ (i, .read) :: rest ∧
      o = result (after job first (writers before)) := by
  cases h with
  | modified modifies => cases inspects.symm.trans modifies
  | inspected same split =>
      cases inspects.symm.trans same
      exact ⟨_, _, split, rfl⟩
  | skipped skips => cases inspects.symm.trans skips

theorem of_skip (h : Ends job first labels i o) {result : Outcome R} (skips : job i = .skip result) :
    o = result := by
  cases h with
  | modified modifies => cases skips.symm.trans modifies
  | inspected inspects => cases skips.symm.trans inspects
  | skipped same =>
      cases skips.symm.trans same
      rfl

end Ends

theorem ofOutcome_inj {F : Signature} {o o' : Outcome R}
    (h : (.ofOutcome o : Prog F R) = .ofOutcome o') : o = o' := by
  cases o with
  | value a => exact (ofOutcome_eq_ret h.symm).symm
  | panicked message =>
      cases o' with
      | value a => cases h
      | panicked message' =>
          cases h
          rfl

theorem Serial.ends (h : Serial job first labels s) {i : ι} {o : Outcome R}
    (ended : s.task i = .ofOutcome o) : Ends job first labels i o := by
  have stage := h.stage i
  rw [ended] at stage
  generalize shape : Prog.ofOutcome o = p at stage
  cases stage with
  | idle =>
      cases kind : job i with
      | modify | inspect =>
          rw [kind] at shape
          exact absurd shape ofOutcome_ne_call
      | skip result =>
          rw [kind] at shape
          cases ofOutcome_inj shape
          exact .skipped kind
  | editing | reading => exact absurd shape ofOutcome_ne_call
  | edited modifies split =>
      cases ofOutcome_inj shape
      exact .modified modifies split
  | answered inspects split =>
      cases ofOutcome_inj shape
      exact .inspected inspects split

/-- A task that is still where it started has asked for nothing. -/
theorem Serial.untouched (h : Serial job first labels s) {i : ι} (begins : s.task i = (job i).prog) (op : Op α) :
    (i, op) ∉ labels := by
  have stage := h.stage i
  rw [begins] at stage
  generalize shape : (job i).prog = p at stage
  cases stage with
  | idle untouched => exact untouched op
  | editing modifies | reading modifies =>
      rw [modifies] at shape
      cases shape
  | edited modifies | answered modifies =>
      rw [modifies] at shape
      exact absurd shape.symm ofOutcome_ne_call

theorem prefix_of_notMem {β : Type} {l more before rest : List β} {x : β}
    (split : l ++ more = before ++ x :: rest) (outside : x ∉ l) : l <+: before := by
  rcases List.append_eq_append_iff.mp split with ⟨between, rfl, -⟩ | ⟨back, rfl, same⟩
  · exact List.prefix_append l between
  · cases back with
    | nil =>
        rw [List.append_nil]
    | cons y back =>
        cases same
        exact absurd (List.mem_append_right before List.mem_cons_self) outside

theorem writers_prefix {before after : List (ι × Op α)} (h : before <+: after) :
    writers before <+: writers after := by
  obtain ⟨more, rfl⟩ := h
  rw [writers_append]
  exact List.prefix_append _ _

variable [DecidableEq ι]

/-- Only a modification is granted the write lock. -/
theorem Serial.modifies {l : ι × (Sig α).Op} {s' : Pool ι R (Lock α) (Sig α)} (h : Serial job first labels s)
    (moved : Pool.Step Grant s l s') {i : ι} (member : i ∈ writers [l]) :
    ∃ f result, job i = .modify f result := by
  cases moved with
  | @call j _ _ _ _ task granted =>
      have stage := h.stage j
      rw [task] at stage
      cases granted with
      | write =>
          cases List.mem_singleton.mp member
          cases stage.waiting with
          | write _ modifies => exact ⟨_, _, modifies⟩
      | read | dropRead | dropWrite => exact absurd member List.not_mem_nil

theorem modifies_of_mem_writers (run : Execution (· = start job first) (Pool.Step Grant) labels s) {i : ι}
    (member : i ∈ writers labels) : ∃ f result, job i = .modify f result := by
  induction run with
  | start => exact absurd member List.not_mem_nil
  | snoc run moved ih =>
      rw [writers_append, List.mem_append] at member
      rcases member with earlier | last
      · exact ih earlier
      · exact (serial run).modifies moved last

/-- A reader that began later sees whatever was written earlier. -/
theorem inspected_later (run : Execution (· = start job first) (Pool.Step Grant) labels s)
    {more : List (ι × Op α)} {s' : Pool ι R (Lock α) (Sig α)} (later : Continues (Pool.Step Grant) s more s')
    {i : ι} {result : α → Outcome R} {r : R} (inspects : job i = .inspect result)
    (begins : s.task i = (job i).prog) (finished : s'.task i = .ret r) :
    ∃ before, labels <+: before ∧ before <+: labels ++ more ∧
      result (after job first (writers before)) = .value r := by
  obtain ⟨before, rest, split, -, -, found⟩ := (serial (run.continues later)).inspected inspects finished
  refine ⟨before, prefix_of_notMem split ((serial run).untouched begins .read), ?_, found⟩
  rw [split]
  exact List.prefix_append _ _

/-- All tasks have ended, and some order of the write sections explains how each of them ended. -/
structure Serialized (job : ι → Job α R) (first : α) (labels : List (ι × Op α))
    (s : Pool ι R (Lock α) (Sig α)) : Prop where
  once : (writers labels).Nodup
  modifies : ∀ i, i ∈ writers labels ↔ ∃ f result, job i = .modify f result
  value : s.world.value = after job first (writers labels)
  ends : ∀ i, ∃ o, s.task i = .ofOutcome o ∧ Ends job first labels i o

theorem guarded (run : Execution (· = start job first) (Pool.Step Grant) labels s) :
    ∃ rest, Guarded rest s := by
  induction run with
  | start same =>
      subst same
      exact ⟨_, guarded_start job first⟩
  | snoc _ moved ih =>
      obtain ⟨rest, holds⟩ := ih
      obtain ⟨r, holds', -⟩ := holds.step moved
      exact ⟨_, holds'⟩

theorem serialized (run : Execution (· = start job first) (Pool.Step Grant) labels s)
    (all : ∀ i, (s.task i).Ended) : Serialized job first labels s := by
  have serial := serial run
  have free : s.world.writing = false := by
    obtain ⟨rest, guarded⟩ := guarded run
    by_contra writing
    obtain ⟨i, a, result, editing⟩ := guarded.writer (Bool.eq_true_of_not_eq_false writing)
    obtain ⟨o, ended⟩ := all i
    rw [guarded.task, editing] at ended
    exact ofOutcome_ne_call ended.symm
  refine ⟨serial.once, fun i => ⟨modifies_of_mem_writers run, ?_⟩, serial.settled free, fun i => ?_⟩
  · rintro ⟨f, result, modifies⟩
    obtain ⟨o, ended⟩ := all i
    obtain ⟨before, rest, split, -⟩ := (serial.ends ended).of_modify modifies
    rw [split]
    exact List.mem_append_right before List.mem_cons_self
  · obtain ⟨o, ended⟩ := all i
    exact ⟨o, ended, serial.ends ended⟩

end Sequences
end RwLock
