import EsrcCqrs.Registry
import EsrcCqrs.Supervision

/-! The projectors of a registry. Each runs as a task of its own, and who awaits them is told of the
first failure that is joined. -/

namespace EsrcCqrs
open Interaction Supervision

/-- `ProjectorHandler<S>`: a name, and a program that is to run until it fails. -/
structure ProjectorHandler (F : Signature) (S E : Type) where
  name : String
  run : S → Prog F (Except E Unit)

/-- `NatsProjectorRunner<H>`. -/
structure NatsProjectorRunner (F : Signature) (S E : Type) where
  handler : ProjectorHandler F S E

def NatsProjectorRunner.run {F : Signature} {S E : Type} (runner : NatsProjectorRunner F S E) (store : S) :
    Prog F (Except E Unit) :=
  runner.handler.run store

/-- `DurableProjectorHandler<P>`, over the store's `durable_observe`. -/
structure DurableProjectorHandler (P : Type) where
  durableName : String
  projector : P

def DurableProjectorHandler.toHandler {F : Signature} {S E P : Type}
    (durableObserve : S → P → String → Prog F (Except E Unit)) (h : DurableProjectorHandler P) :
    ProjectorHandler F S E :=
  ⟨h.durableName, fun store => durableObserve store h.projector h.durableName⟩

/-- `CqrsRegistry<S>` with its projectors. -/
structure ProjectorRegistry (F G H : Signature) (S E : Type) extends CqrsRegistry F G S E where
  projectorHandlers : List (ProjectorHandler H S E)

namespace ProjectorRegistry
variable {F G H : Signature} {S E : Type}

def new (store : S) : ProjectorRegistry F G H S E := ⟨.new store, []⟩

def registerProjector (reg : ProjectorRegistry F G H S E) (handler : ProjectorHandler H S E) :
    ProjectorRegistry F G H S E :=
  { reg with projectorHandlers := reg.projectorHandlers ++ [handler] }

inductive Registration (F G H : Signature) (S E : Type) where
  | request (call : CqrsRegistry.Registration F G S E)
  | projector (handler : ProjectorHandler H S E)

def register (reg : ProjectorRegistry F G H S E) : Registration F G H S E → ProjectorRegistry F G H S E
  | .request call => { reg with toCqrsRegistry := reg.toCqrsRegistry.register call }
  | .projector handler => reg.registerProjector handler

/-- A chain of builder calls. -/
def build (store : S) (calls : List (Registration F G H S E)) : ProjectorRegistry F G H S E :=
  calls.foldl register (new store)

/-- `run_projectors`: one task for each, on a clone of the store. -/
def runProjectors (reg : ProjectorRegistry F G H S E) :
    Fin reg.projectorHandlers.length → Prog H (Except E Unit) :=
  fun i => reg.projectorHandlers[i].run reg.store

end ProjectorRegistry

/-- What `main` returns with, when a projector is joined that did not end well. -/
inductive MainError (E : Type) where
  | projector (e : E)
  | join (message : String)

/-- `result??` -/
def propagate {E : Type} : Outcome (Except E Unit) → Option (MainError E)
  | .value (.ok ()) => none
  | .value (.error e) => some (.projector e)
  | .panicked message => some (.join message)

theorem propagate_eq_none {E : Type} {o : Outcome (Except E Unit)} (h : propagate o = none) :
    o = .value (.ok ()) := by
  cases o with
  | value r =>
      cases r with
      | ok u => rfl
      | error e => cases h
  | panicked message => cases h

/-- What the loop of `main` ended with. -/
def returned {E : Type} : Ending (MainError E) → Except (MainError E) Unit
  | .judged e => .error e
  | .drained => .ok ()

section Main
variable {F G H : Signature} {S E W : Type} {reg : ProjectorRegistry F G H S E} {exec : Interp H W} {w : W}

/-- What comes of the projectors of a registry, and of `main` that awaits them. -/
structure ProjectorsAwaited (reg : ProjectorRegistry F G H S E) (exec : Interp H W)
    (s : JoinSet (Fin reg.projectorHandlers.length) H (Except E Unit) (MainError E) W) : Prop where
  failed : ∀ e, s.ending.map returned = some (.error e) → ∃ handler ∈ reg.projectorHandlers, ∃ o,
    Comes (handler.run reg.store) o ∧ propagate o = some e
  succeeded : s.ending.map returned = some (.ok ()) → ∀ i : Fin reg.projectorHandlers.length,
    s.task i = .joined (.value (.ok ())) ∧
      Comes (reg.projectorHandlers[i].run reg.store) (.value (.ok ()))
  -- a failure that nobody has joined yet stops no other projector
  apart : s.ending = none → ∀ i, s.task i ≠ .aborted
  stopped : s.ending ≠ none → ∀ e s', ¬ Step propagate exec s e s'
  surfaces : ∀ i o e, s.ending = none → s.task i = .finished o → propagate o = some e →
    (∃ s', Step propagate exec s (.judge i) s' ∧ s'.ending.map returned = some (.error e)) ∧
    ∀ {more s'}, Continues (Step propagate exec) s more s' → s'.ending.map returned ≠ some (.ok ())

/-- No failure of a projector is swallowed, and nothing else ends `main`. -/
theorem projector_errors_surface {trace : List (Event (Fin reg.projectorHandlers.length))}
    {s : JoinSet (Fin reg.projectorHandlers.length) H (Except E Unit) (MainError E) W}
    (run : Run propagate exec reg.runProjectors w trace s) : ProjectorsAwaited reg exec s := by
  have supervised := supervised run
  refine ⟨?_, ?_, supervised.alive, supervised.silent, ?_⟩
  · intro e failed
    obtain ⟨ending, ended, same⟩ := Option.map_eq_some_iff.mp failed
    cases ending with
    | judged e' =>
        cases same
        obtain ⟨i, o, comes, judged⟩ := supervised.judged e ended
        exact ⟨_, List.getElem_mem i.isLt, o, comes, judged⟩
    | drained => cases same
  · intro succeeded i
    obtain ⟨ending, ended, same⟩ := Option.map_eq_some_iff.mp succeeded
    cases ending with
    | judged e => cases same
    | drained =>
        obtain ⟨o, comes, goes, joined⟩ := supervised.drained ended i
        cases propagate_eq_none goes
        exact ⟨joined, comes⟩
  · intro i o e free task fails
    obtain ⟨-, never⟩ := supervised.surfaces i o e free task fails
    refine ⟨⟨_, .judge free task fails, rfl⟩, ?_⟩
    intro more s' later succeeded
    obtain ⟨ending, ended, same⟩ := Option.map_eq_some_iff.mp succeeded
    cases ending with
    | judged e => cases same
    | drained => exact never later ended

/-- The forced error of the tests, beside a projector that goes on. -/
def forcedError : ProjectorRegistry .none .none (RwLock.Sig Nat) Unit String :=
  .build () [.projector ⟨"proj-ok", fun _ => .call .read fun _ => .ret (.ok ())⟩,
    .projector ⟨"proj-err", fun _ => .ret (.error "projector forced error")⟩]

theorem projector_errors_surface_forced : ∃ handler ∈ forcedError.projectorHandlers, ∃ o,
    Comes (handler.run ()) o ∧ propagate o = some (.projector "projector forced error") := by
  have run := (Execution.start rfl : Run propagate RwLock.Grant forcedError.runProjectors ⟨0, 0, false⟩ [] _)
    |>.snoc (.finish (i := ⟨1, Nat.one_lt_two⟩) (o := .value (.error "projector forced error")) rfl)
    |>.snoc (.judge (i := ⟨1, Nat.one_lt_two⟩) rfl rfl rfl)
  exact (projector_errors_surface run).failed _ rfl

end Main
end EsrcCqrs
