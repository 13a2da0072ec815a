import EsrcCqrs.Interaction
import Mathlib.Logic.Function.Basic

/-! Tasks that are spawned into a set, and a loop that awaits them in whatever order they finish.
It goes on after some outcomes and ends at others; when it ends, the set is dropped with the tasks
that are left in it. -/

namespace Supervision
open Interaction

/-- A task of a set. The outcome of a joined task is kept for the record. -/
inductive Task (F : Signature) (R : Type) where
  | running (p : Prog F R)
  | finished (o : Outcome R)
  | joined (o : Outcome R)
  | aborted

/-- How the loop ended: at an outcome, or because no task was left. -/
inductive Ending (B : Type) where
  | judged (b : B)
  | drained

structure JoinSet (ι : Type) (F : Signature) (R B W : Type) where
  task : ι → Task F R
  ending : Option (Ending B)
  world : W

inductive Event (ι : Type) where
  | call (i : ι)
  | finish (i : ι)
  | join (i : ι)
  | judge (i : ι)
  | drain

section Sets
variable {ι R B W : Type} {F : Signature}

def Task.drop : Task F R → Task F R
  | .joined o => .joined o
  | _ => .aborted

/-- Some answers lead the program to this outcome. -/
inductive Comes : Prog F R → Outcome R → Prop
  | now (o : Outcome R) : Comes (.ofOutcome o) o
  | call {op : F.Op} {next : F.Ret op → Prog F R} {o : Outcome R} (r : F.Ret op) :
      Comes (next r) o → Comes (.call op next) o

/-- What a task can still come to is what its program can come to. -/
def Task.OfProg (p : Prog F R) : Task F R → Prop
  | .running q => ∀ o, Comes q o → Comes p o
  | .finished o => Comes p o
  | .joined o => Comes p o
  | .aborted => True

theorem Task.OfProg.drop {p : Prog F R} {t : Task F R} (h : t.OfProg p) : t.drop.OfProg p := by
  cases t with
  | joined o => exact h
  | running | finished | aborted => exact trivial

/-- How far a task can be, when the loop has ended so or not yet. -/
def Task.Fits (judge : Outcome R → Option B) : Option (Ending B) → Task F R → Prop
  | none, .joined o => judge o = none
  | none, .aborted => False
  | none, _ => True
  | some (.judged b), .joined o => judge o = none ∨ judge o = some b
  | some (.judged _), .aborted => True
  | some .drained, .joined o => judge o = none
  | some _, _ => False

theorem Task.Fits.drop {judge : Outcome R → Option B} {t : Task F R} (h : t.Fits judge none) (b : B) :
    t.drop.Fits judge (some (.judged b)) := by
  cases t with
  | joined o => exact .inl h
  | running | finished | aborted => exact trivial

/-- The set right after all programs were spawned into it. -/
def JoinSet.spawned (prog : ι → Prog F R) (w : W) : JoinSet ι F R B W :=
  ⟨fun i => .running (prog i), none, w⟩

/-- The tasks are those of the programs, and the loop ended, if it did, for a reason. -/
structure Awaited (judge : Outcome R → Option B) (prog : ι → Prog F R) (s : JoinSet ι F R B W) : Prop where
  own : ∀ i, (s.task i).OfProg (prog i)
  fits : ∀ i, (s.task i).Fits judge s.ending
  cause : ∀ b, s.ending = some (.judged b) → ∃ i o, s.task i = .joined o ∧ judge o = some b

theorem awaited_spawned (judge : Outcome R → Option B) (prog : ι → Prog F R) (w : W) :
    Awaited judge prog (.spawned prog w) where
  own _ := fun _ comes => comes
  fits _ := trivial
  cause _ := nofun

theorem Awaited.unended {judge : Outcome R → Option B} {prog : ι → Prog F R} {s : JoinSet ι F R B W}
    (h : Awaited judge prog s) {i : ι} {p : Prog F R} (task : s.task i = .running p) : s.ending = none := by
  have fits := h.fits i
  rw [task] at fits
  cases ended : s.ending with
  | none => rfl
  | some ending =>
      rw [ended] at fits
      cases ending <;> exact fits.elim

variable [DecidableEq ι]

/-- Steps of the tasks, and of the loop that ends at the outcomes for which `judge` has an answer. -/
inductive Step (judge : Outcome R → Option B) (exec : Interp F W) :
    JoinSet ι F R B W → Event ι → JoinSet ι F R B W → Prop
  | call {s : JoinSet ι F R B W} {i : ι} {op : F.Op} {next : F.Ret op → Prog F R} {r : F.Ret op} {w : W} :
      s.task i = .running (.call op next) → exec op s.world r w →
      Step judge exec s (.call i) { s with task := Function.update s.task i (.running (next r)), world := w }
  | finish {s : JoinSet ι F R B W} {i : ι} {o : Outcome R} :
      s.task i = .running (.ofOutcome o) →
      Step judge exec s (.finish i) { s with task := Function.update s.task i (.finished o) }
  | join {s : JoinSet ι F R B W} {i : ι} {o : Outcome R} :
      s.ending = none → s.task i = .finished o → judge o = none →
      Step judge exec s (.join i) { s with task := Function.update s.task i (.joined o) }
  | judge {s : JoinSet ι F R B W} {i : ι} {o : Outcome R} {b : B} :
      s.ending = none → s.task i = .finished o → judge o = some b →
      Step judge exec s (.judge i) { s with
        task := Function.update (fun j => (s.task j).drop) i (.joined o)
        ending := some (.judged b) }
  | drain {s : JoinSet ι F R B W} :
      s.ending = none → (∀ i, ∃ o, s.task i = .joined o) →
      Step judge exec s .drain { s with ending := some .drained }

abbrev Run (judge : Outcome R → Option B) (exec : Interp F W) (prog : ι → Prog F R) (w : W) :
    List (Event ι) → JoinSet ι F R B W → Prop :=
  Execution (· = .spawned prog w) (Step judge exec)

variable {judge : Outcome R → Option B} {exec : Interp F W} {prog : ι → Prog F R} {w : W}
  {trace : List (Event ι)} {s s' : JoinSet ι F R B W} {e : Event ι}

theorem forall_update {P : ι → Task F R → Prop} {task : ι → Task F R} {i : ι} {t : Task F R}
    (h : ∀ j, P j (task j)) (own : P i t) (j : ι) : P j (Function.update task i t j) :=
  (Function.forall_update_iff task P).mpr ⟨own, fun j _ => h j⟩ j

/-- One task changes while the loop goes on. -/
theorem Awaited.update (h : Awaited judge prog s) (free : s.ending = none) (i : ι) (t : Task F R) (w : W)
    (own : t.OfProg (prog i)) (fits : t.Fits judge none) :
    Awaited judge prog { s with task := Function.update s.task i t, world := w } := by
  refine ⟨forall_update h.own own, ?_, ?_⟩
  · refine forall_update (P := fun _ t => t.Fits judge s.ending) h.fits ?_
    rw [free]
    exact fits
  · intro b ended
    cases free.symm.trans ended

theorem Awaited.step (h : Awaited judge prog s) (moved : Step judge exec s e s') : Awaited judge prog s' := by
  cases moved with
  | @call i op next r w task answered =>
      have own := h.own i
      rw [task] at own
      exact h.update (h.unended task) i (.running (next r)) w (fun o comes => own o (.call r comes)) trivial
  | @finish i o task =>
      have own := h.own i
      rw [task] at own
      exact h.update (h.unended task) i (.finished o) s.world (own o (.now o)) trivial
  | @join i o free task goes =>
      have own := h.own i
      rw [task] at own
      exact h.update free i (.joined o) s.world own goes
  | @judge i o b free task ends =>
      have own := h.own i
      rw [task] at own
      refine ⟨?_, ?_, ?_⟩
      · exact forall_update (P := fun j t => t.OfProg (prog j)) (fun j => (h.own j).drop) own
      · refine forall_update (P := fun _ t => t.Fits judge (.some (.judged b))) (fun j => ?_) (.inr ends)
        have fits := h.fits j
        rw [free] at fits
        exact fits.drop b
      · intro b' ended
        cases ended
        have joined : Function.update (fun j => (s.task j).drop) i (.joined o) i = .joined o :=
          Function.update_self ..
        exact ⟨i, o, joined, ends⟩
  | drain free all =>
      refine ⟨h.own, fun i => ?_, nofun⟩
      obtain ⟨o, joined⟩ := all i
      have fits := h.fits i
      rw [joined, free] at fits
      rw [joined]
      exact fits

theorem awaited (run : Run judge exec prog w trace s) : Awaited judge prog s :=
  run.invariant (I := fun _ s => Awaited judge prog s) (by rintro s rfl; exact awaited_spawned judge prog w)
    fun _ _ _ _ holds moved => holds.step moved

/-- Once the loop has ended nothing moves any more. -/
theorem Awaited.silent (h : Awaited judge prog s) (ended : s.ending ≠ none) : ¬ Step judge exec s e s' := by
  intro moved
  cases moved with
  | call task | finish task => exact ended (h.unended task)
  | join free | judge free | drain free => exact ended free

/-- An outcome at which the loop ends is there to be joined, or the loop has ended at one. -/
def Pending (judge : Outcome R → Option B) (i : ι) (s : JoinSet ι F R B W) : Prop :=
  (s.ending = none ∧ ∃ o b, s.task i = .finished o ∧ judge o = some b) ∨
    ∃ b, s.ending = some (.judged b)

theorem Pending.step {i : ι} (h : Pending judge i s) (holds : Awaited judge prog s)
    (moved : Step judge exec s e s') : Pending judge i s' := by
  rcases h with ⟨free, o, b, task, ends⟩ | ⟨b, ended⟩
  · have kept {j : ι} {t t' : Task F R} (task' : s.task j = t) (apart : t ≠ .finished o) :
        Function.update s.task j t' i = .finished o := by
      rw [Function.update_of_ne, task]
      rintro rfl
      exact apart (task'.symm.trans task)
    cases moved with
    | call task' | finish task' => exact .inl ⟨free, o, b, kept task' nofun, ends⟩
    | join _ task' goes =>
        refine .inl ⟨free, o, b, kept task' ?_, ends⟩
        intro same
        cases same
        cases goes.symm.trans ends
    | judge => exact .inr ⟨_, rfl⟩
    | drain _ all =>
        obtain ⟨o', joined⟩ := all i
        cases task.symm.trans joined
  · have done : s.ending ≠ none := by
      rw [ended]
      exact nofun
    exact absurd moved (holds.silent done)

theorem Pending.continues {i : ι} {more : List (Event ι)} (h : Pending judge i s)
    (holds : Awaited judge prog s) (later : Continues (Step judge exec) s more s') : Pending judge i s' := by
  induction later with
  | done s => exact h
  | cons moved _ ih => exact ih (h.step holds moved) (holds.step moved)

/-- What the awaiting loop makes of its tasks. -/
structure Supervised (judge : Outcome R → Option B) (exec : Interp F W) (prog : ι → Prog F R)
    (s : JoinSet ι F R B W) : Prop where
  judged : ∀ b, s.ending = some (.judged b) → ∃ i o, Comes (prog i) o ∧ judge o = some b
  drained : s.ending = some .drained → ∀ i, ∃ o, Comes (prog i) o ∧ judge o = none ∧ s.task i = .joined o
  alive : s.ending = none → ∀ i, s.task i ≠ .aborted
  silent : s.ending ≠ none → ∀ e s', ¬ Step judge exec s e s'
  surfaces : ∀ i o b, s.ending = none → s.task i = .finished o → judge o = some b →
    (∃ s', Step judge exec s (.judge i) s') ∧
    ∀ {more s'}, Continues (Step judge exec) s more s' → s'.ending ≠ some .drained

theorem supervised (run : Run judge exec prog w trace s) : Supervised judge exec prog s := by
  have holds := awaited run
  refine ⟨?_, ?_, ?_, fun ended _ _ => holds.silent ended, ?_⟩
  · intro b ended
    obtain ⟨i, o, joined, ends⟩ := holds.cause b ended
    have own := holds.own i
    rw [joined] at own
    exact ⟨i, o, own, ends⟩
  · intro ended i
    have own := holds.own i
    have fits := holds.fits i
    rw [ended] at fits
    cases task : s.task i with
    | joined o =>
        rw [task] at own fits
        exact ⟨o, own, fits, rfl⟩
    | running | finished | aborted =>
        rw [task] at fits
        exact fits.elim
  · intro free i gone
    have fits := holds.fits i
    rw [free, gone] at fits
    exact fits
  · intro i o b free task ends
    refine ⟨⟨_, .judge free task ends⟩, ?_⟩
    intro more s' later drained
    have pending : Pending judge i s := .inl ⟨free, o, b, task, ends⟩
    rcases pending.continues holds later with ⟨free', -⟩ | ⟨b', judged⟩
    · cases free'.symm.trans drained
    · cases judged.symm.trans drained

end Sets
end Supervision
