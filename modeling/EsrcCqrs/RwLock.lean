import EsrcCqrs.Interaction
import Mathlib.Data.List.Nodup

/-! A value behind a reader-writer lock, shared by any number of tasks that each enter one
critical section. Every section sees the value that the write sections entered before it
leave behind, in the order of their entry. -/

namespace RwLock
open Interaction

/-- Requests for guards. A write guard is dropped together with the value it leaves. -/
inductive Op (α : Type) where
  | read
  | dropRead
  | write
  | dropWrite (a : α)

def Op.Ret {α : Type} : Op α → Type
  | .read => α
  | .dropRead => Unit
  | .write => α
  | .dropWrite _ => Unit

abbrev Sig (α : Type) : Signature := ⟨Op α, Op.Ret⟩

/-- Without contention a request is granted at once. -/
def Op.serve {α : Type} : (op : Op α) → α → op.Ret × α
  | .read, a => (a, a)
  | .dropRead, a => ((), a)
  | .write, a => (a, a)
  | .dropWrite b, _ => ((), b)

/-- The answers to a task that is alone with the value until it changes it. -/
def Op.answer {α : Type} (a : α) (op : Op α) : op.Ret := (op.serve a).1

structure Lock (α : Type) where
  value : α
  readers : Nat
  writing : Bool

inductive Grant {α : Type} : Interp (Sig α) (Lock α)
  | read {w : Lock α} : w.writing = false →
      Grant .read w w.value { w with readers := w.readers + 1 }
  | dropRead {w : Lock α} : Grant .dropRead w () { w with readers := w.readers - 1 }
  | write {w : Lock α} : w.writing = false → w.readers = 0 →
      Grant .write w w.value { w with writing := true }
  | dropWrite {w : Lock α} (a : α) :
      Grant (.dropWrite a) w () { w with value := a, writing := false }

/-- What a task does: one section under either guard, or no section at all. -/
inductive Job (α R : Type) where
  | modify (f : α → α) (result : α → Outcome R)
  | inspect (result : α → Outcome R)
  | skip (result : Outcome R)

section Jobs
variable {α R : Type}

def Job.prog : Job α R → Prog (Sig α) R
  | .modify f result => .call .write fun a => .call (.dropWrite (f a)) fun _ => .ofOutcome (result a)
  | .inspect result => .call .read fun a => .call .dropRead fun _ => .ofOutcome (result a)
  | .skip result => .ofOutcome result

def Job.edit : Job α R → α → α
  | .modify f _ => f
  | .inspect _ => id
  | .skip _ => id

variable {ι : Type}

/-- The tasks that took the write lock, in that order. -/
def writers (labels : List (ι × Op α)) : List ι :=
  labels.filterMap fun l =>
    match l.2 with
    | .write => some l.1
    | _ => none

@[simp] theorem writers_append (labels more : List (ι × Op α)) :
    writers (labels ++ more) = writers labels ++ writers more :=
  List.filterMap_append

@[simp] theorem writers_write (i : ι) : writers [(i, (.write : Op α))] = [i] := rfl

@[simp] theorem writers_read (i : ι) : writers [(i, (.read : Op α))] = [] := rfl

@[simp] theorem writers_dropRead (i : ι) : writers [(i, (.dropRead : Op α))] = [] := rfl

@[simp] theorem writers_dropWrite (i : ι) (a : α) : writers [(i, .dropWrite a)] = [] := rfl

variable (job : ι → Job α R) (first : α)

/-- The value after the sections of `is`. -/
def after (is : List ι) : α := is.foldl (fun a i => (job i).edit a) first

theorem after_snoc (is : List ι) (i : ι) :
    after job first (is ++ [i]) = (job i).edit (after job first is) := by
  simp only [after, List.foldl_append, List.foldl_cons, List.foldl_nil]

/-- Where task `i` stands after `labels`, with the lock as it is now. -/
inductive Stage (labels : List (ι × Op α)) (w : Lock α) (i : ι) : Prog (Sig α) R → Prop
  | idle : (∀ op, (i, op) ∉ labels) → Stage labels w i (job i).prog
  | editing {f : α → α} {result : α → Outcome R} {before : List ι} :
      job i = .modify f result → writers labels = before ++ [i] → w.writing = true →
      w.value = after job first before →
      Stage labels w i (.call (.dropWrite (f (after job first before))) fun _ =>
        .ofOutcome (result (after job first before)))
  | edited {f : α → α} {result : α → Outcome R} {before rest : List ι} :
      job i = .modify f result → writers labels = before ++ i :: rest →
      Stage labels w i (.ofOutcome (result (after job first before)))
  | reading {result : α → Outcome R} {before rest : List (ι × Op α)} :
      job i = .inspect result → labels = before ++ (i, .read) :: rest →
      (i, .read) ∉ before → (i, .read) ∉ rest →
      Stage labels w i (.call .dropRead fun _ =>
        .ofOutcome (result (after job first (writers before))))
  | answered {result : α → Outcome R} {before rest : List (ι × Op α)} :
      job i = .inspect result → labels = before ++ (i, .read) :: rest →
      (i, .read) ∉ before → (i, .read) ∉ rest →
      Stage labels w i (.ofOutcome (result (after job first (writers before))))

variable {job first}

/-- What another task does leaves a stage as it is, unless it touches a section in progress. -/
theorem Stage.later {labels : List (ι × Op α)} {w w' : Lock α} {i j : ι} {op : Op α}
    {p : Prog (Sig α) R} (h : Stage job first labels w i p) (other : j ≠ i)
    (kept : w.writing = true → (∃ before, writers labels = before ++ [i]) →
      w'.writing = true ∧ w'.value = w.value ∧ writers [(j, op)] = []) :
    Stage job first (labels ++ [(j, op)]) w' i p := by
  have apart : ∀ op', (i, op') ∉ [(j, op)] := by
    intro op' member
    rw [List.mem_singleton] at member
    exact other (congrArg Prod.fst member).symm
  cases h with
  | idle untouched =>
      refine .idle fun op' member => ?_
      rcases List.mem_append.mp member with member | member
      · exact untouched op' member
      · exact apart op' member
  | editing modifies last writing value =>
      obtain ⟨writing', value', quiet⟩ := kept writing ⟨_, last⟩
      refine .editing modifies ?_ writing' (value'.trans value)
      rw [writers_append, quiet, List.append_nil, last]
  | @edited f result before rest modifies split =>
      have longer : writers (labels ++ [(j, op)]) = before ++ i :: (rest ++ writers [(j, op)]) := by
        rw [writers_append, split, List.append_assoc, List.cons_append]
      exact .edited modifies longer
  | reading inspects split fresh once =>
      rw [split, List.append_assoc, List.cons_append]
      refine .reading inspects rfl fresh fun member => ?_
      exact (List.mem_append.mp member).elim once (apart _)
  | answered inspects split fresh once =>
      rw [split, List.append_assoc, List.cons_append]
      refine .answered inspects rfl fresh fun member => ?_
      exact (List.mem_append.mp member).elim once (apart _)

/-- What a task that waits for an answer is about. -/
inductive Waiting (job : ι → Job α R) (first : α) (labels : List (ι × Op α)) (i : ι) :
    (op : Op α) → (op.Ret → Prog (Sig α) R) → Prop
  | read {result : α → Outcome R} : (∀ op, (i, op) ∉ labels) → job i = .inspect result →
      Waiting job first labels i .read fun a => .call .dropRead fun _ => .ofOutcome (result a)
  | dropRead {result : α → Outcome R} {before rest : List (ι × Op α)} :
      job i = .inspect result → labels = before ++ (i, .read) :: rest →
      (i, .read) ∉ before → (i, .read) ∉ rest →
      Waiting job first labels i .dropRead fun _ =>
        .ofOutcome (result (after job first (writers before)))
  | write {f : α → α} {result : α → Outcome R} :
      (∀ op, (i, op) ∉ labels) → job i = .modify f result →
      Waiting job first labels i .write fun a =>
        .call (.dropWrite (f a)) fun _ => .ofOutcome (result a)
  | dropWrite {f : α → α} {result : α → Outcome R} {before : List ι} :
      job i = .modify f result → writers labels = before ++ [i] →
      Waiting job first labels i (.dropWrite (f (after job first before))) fun _ =>
        .ofOutcome (result (after job first before))

theorem Stage.waiting {labels : List (ι × Op α)} {w : Lock α} {i : ι} {op : (Sig α).Op}
    {next : (Sig α).Ret op → Prog (Sig α) R} (h : Stage job first labels w i (.call op next)) :
    Waiting job first labels i op next := by
  generalize shape : Prog.call op next = p at h
  cases h with
  | idle untouched =>
      cases kind : job i with
      | modify f result =>
          rw [kind] at shape
          cases shape
          exact .write untouched kind
      | inspect result =>
          rw [kind] at shape
          cases shape
          exact .read untouched kind
      | skip result =>
          rw [kind] at shape
          exact absurd shape.symm Prog.ofOutcome_ne_call
  | editing modifies last _ _ =>
      cases shape
      exact .dropWrite modifies last
  | edited => exact absurd shape.symm Prog.ofOutcome_ne_call
  | reading inspects split fresh once =>
      cases shape
      exact .dropRead inspects split fresh once
  | answered => exact absurd shape.symm Prog.ofOutcome_ne_call

theorem mem_writers {labels : List (ι × Op α)} {i : ι} (h : i ∈ writers labels) :
    (i, .write) ∈ labels := by
  obtain ⟨⟨j, op⟩, member, taken⟩ := List.mem_filterMap.mp h
  cases op with
  | write =>
      cases taken
      exact member
  | read | dropRead | dropWrite => cases taken

/-- The state of the lock is that of the sections entered so far, one after the other. -/
structure Serial (job : ι → Job α R) (first : α) (labels : List (ι × Op α))
    (s : Pool ι R (Lock α) (Sig α)) : Prop where
  stage : ∀ i, Stage job first labels s.world i (s.task i)
  settled : s.world.writing = false → s.world.value = after job first (writers labels)
  once : (writers labels).Nodup

/-- All tasks before their first step. -/
def start (job : ι → Job α R) (first : α) : Pool ι R (Lock α) (Sig α) :=
  ⟨fun i => (job i).prog, ⟨first, 0, false⟩⟩

theorem serial_start : Serial job first [] (start job first) :=
  ⟨fun _ => .idle fun _ => List.not_mem_nil, fun _ => rfl, List.nodup_nil⟩

/-- A finished reader saw exactly the write sections entered before its own. -/
theorem Serial.inspected {labels : List (ι × Op α)} {s : Pool ι R (Lock α) (Sig α)}
    (h : Serial job first labels s) {i : ι} {result : α → Outcome R} {r : R}
    (inspects : job i = .inspect result) (finished : s.task i = .ret r) :
    ∃ before rest, labels = before ++ (i, .read) :: rest ∧ (i, .read) ∉ before ∧
      (i, .read) ∉ rest ∧ result (after job first (writers before)) = .value r := by
  have stage := h.stage i
  generalize s.task i = p at finished stage
  cases stage with
  | idle =>
      rw [inspects] at finished
      cases finished
  | editing => cases finished
  | edited modifies => exact absurd (inspects.symm.trans modifies) nofun
  | reading => cases finished
  | answered same split fresh once =>
      cases inspects.symm.trans same
      exact ⟨_, _, split, fresh, once, Prog.ofOutcome_eq_ret finished⟩

variable [DecidableEq ι]

theorem stages_update {labels : List (ι × Op α)} {s : Pool ι R (Lock α) (Sig α)} {i : ι} {op : Op α}
    {p : Prog (Sig α) R} {w : Lock α} (h : ∀ j, Stage job first labels s.world j (s.task j))
    (own : Stage job first (labels ++ [(i, op)]) w i p)
    (kept : ∀ j, i ≠ j → s.world.writing = true → (∃ before, writers labels = before ++ [j]) →
      w.writing = true ∧ w.value = s.world.value ∧ writers [(i, op)] = []) :
    ∀ j, Stage job first (labels ++ [(i, op)]) w j (Function.update s.task i p j) := by
  apply (Function.forall_update_iff s.task fun j q => Stage job first (labels ++ [(i, op)]) w j q).mpr
  refine ⟨own, fun j other => ?_⟩
  exact (h j).later other.symm (kept j other.symm)

/-- Any grant of the lock keeps the sections serial. -/
theorem Serial.step {labels : List (ι × Op α)} {s s' : Pool ι R (Lock α) (Sig α)}
    {l : ι × (Sig α).Op} (h : Serial job first labels s) (moved : Pool.Step Grant s l s') :
    Serial job first (labels ++ [l]) s' := by
  cases moved with
  | @call i _ _ _ _ task granted =>
      have stage := h.stage i
      rw [task] at stage
      cases granted with
      | read free =>
          cases stage.waiting with
          | @read result untouched inspects =>
              have taken : writers (labels ++ [(i, .read)]) = writers labels := by
                rw [writers_append, writers_read, List.append_nil]
              refine ⟨stages_update h.stage ?_ ?_, ?_, taken.symm ▸ h.once⟩
              · rw [h.settled free]
                exact .reading inspects rfl (untouched _) List.not_mem_nil
              · intro j _ writing
                exact absurd (free.symm.trans writing) nofun
              · intro _
                rw [taken]
                exact h.settled free
      | dropRead =>
          cases stage.waiting with
          | @dropRead result before rest inspects split fresh once =>
              have taken : writers (labels ++ [(i, .dropRead)]) = writers labels := by
                rw [writers_append, writers_dropRead, List.append_nil]
              refine ⟨stages_update h.stage ?_ ?_, ?_, taken.symm ▸ h.once⟩
              · rw [split, List.append_assoc, List.cons_append]
                refine .answered inspects rfl fresh fun member => ?_
                exact (List.mem_append.mp member).elim once (fun last => nomatch last)
              · exact fun j _ writing _ => ⟨writing, rfl, rfl⟩
              · intro free
                rw [taken]
                exact h.settled free
      | write free _ =>
          cases stage.waiting with
          | write untouched modifies =>
              refine ⟨stages_update h.stage ?_ ?_, nofun, ?_⟩
              · rw [h.settled free]
                exact .editing modifies (writers_append _ _) rfl rfl
              · intro j _ writing
                exact absurd (free.symm.trans writing) nofun
              · rw [writers_append, writers_write, ← List.concat_eq_append]
                exact h.once.concat fun member => untouched _ (mem_writers member)
      | dropWrite a =>
          cases stage.waiting with
          | @dropWrite f result before modifies last =>
              have taken : writers (labels ++ [(i, .dropWrite (f (after job first before)))]) =
                  before ++ [i] := by
                rw [writers_append, writers_dropWrite, List.append_nil, last]
              refine ⟨stages_update h.stage (.edited modifies taken) ?_, ?_, ?_⟩
              · rintro j other _ ⟨before', last'⟩
                have same := (List.append_inj' (last.symm.trans last') rfl).2
                exact absurd (List.singleton_inj.mp same) other
              · intro _
                rw [taken, after_snoc, modifies]
                rfl
              · rw [taken, ← last]
                exact h.once

theorem serial {labels : List (ι × Op α)} {s : Pool ι R (Lock α) (Sig α)}
    (run : Execution (· = start job first) (Pool.Step Grant) labels s) :
    Serial job first labels s := by
  induction run with
  | start same =>
      subst same
      exact serial_start
  | snoc _ moved ih => exact ih.step moved

end Jobs
end RwLock
