import EsrcCqrs.Dispatchers
import EsrcCqrs.DurableFold
import EsrcCqrs.CounterDomain

/-! Instances of one application, each with a fresh memory view, that share a durable
consumer: the views live as long as their processes, the consumer's position longer. -/

namespace EsrcCqrs
open Json Interaction KeyedLog

section Deployments
variable {U : ErrorTypes} {E S R ι : Type} {V : View E}

/-- What `durable_observe` does with a message: it awaits `project` on its clone of the view. -/
def DurableProjectorHandler.observe (map : Views V.toPartial) (entry : Uuid × E) : Views V.toPartial :=
  ((MemoryView.project entry.1 entry.2).runOn RwLock.Op.serve map).2

theorem DurableProjectorHandler.observe_eq :
    (DurableProjectorHandler.observe : Views V.toPartial → Uuid × E → Views V.toPartial) =
      MemoryView.projected := by
  funext map entry
  simp only [DurableProjectorHandler.observe, MemoryView.project, Prog.runOn]
  rfl

/-- The stream with its durable consumer, and the view of each running instance. -/
abbrev Deployment (V : View E) (ι : Type) := DurableFold.Group (Uuid × E) (Views V.toPartial) ι

inductive DeploymentEvent (U : ErrorTypes) (E ι : Type) where
  | durable (e : DurableFold.Event (Uuid × E) ι)
  | query (i : ι) (payload : ByteArray) (result : HandlerResult U)

variable [TextFormat] [Uuid.Text] [Serialize R] [DecidableEq ι]

/-- An instance starts with `MemoryView::new()` and registers a clone of it with the durable
consumer, and another one with its query handler. -/
inductive DeploymentStep (q : MemoryViewQuery V.toPartial R) (store : S) :
    Deployment V ι → DeploymentEvent U E ι → Deployment V ι → Prop
  | durable {s s' : Deployment V ι} {e : DurableFold.Event (Uuid × E) ι} :
      DurableFold.Step MemoryView.new DurableProjectorHandler.observe s e s' →
      DeploymentStep q store s (.durable e) s'
  | query {s : Deployment V ι} {i : ι} {map : Views V.toPartial} {payload : ByteArray}
      {result : HandlerResult U} :
      s.held i = some map →
      (q.handle store payload).eval (RwLock.Op.answer map) = .value result →
      DeploymentStep q store s (.query i payload result) s

abbrev DeploymentRun (q : MemoryViewQuery V.toPartial R) (store : S) :
    List (DeploymentEvent U E ι) → Deployment V ι → Prop :=
  Execution (· = .empty) (DeploymentStep q store)

/-- A query on any running instance answers what a live query over the log does. -/
def AnswersAsReplay (U : ErrorTypes) (q : MemoryViewQuery V.toPartial R) (store : S)
    (s : Deployment V ι) : Prop :=
  ∀ i, (s.held i).isSome →
    ∀ (payload : ByteArray) (id : Uuid) (answer : (op : ReplayOp) → (ReplaySig U E).Ret op),
    fromSlice QueryEnvelope payload = .ok ⟨id⟩ →
    answer (.replayOne id 0) = .ok ((entriesOf id s.log).map fun e => .ok (.ok e)) →
    ∀ result, DeploymentStep q store s (.query i payload result) s ↔
      ((⟨q.handlerName, q.projection⟩ : LiveViewQuery V.toPartial R).handle store payload).eval answer =
        .value result

/-- What a query step answers is decided by the view of its instance. -/
theorem query_step_iff {q : MemoryViewQuery V.toPartial R} {store : S} {s : Deployment V ι} {i : ι}
    {map : Views V.toPartial} (held : s.held i = some map) {payload : ByteArray}
    {envelope : QueryEnvelope} (decoded : fromSlice QueryEnvelope payload = .ok envelope)
    {result : HandlerResult U} :
    DeploymentStep q store s (.query i payload result) s ↔ q.reply U map envelope.id = result := by
  rw [← Outcome.value.injEq, ← q.eval_handle store map decoded]
  constructor
  · intro moved
    cases moved with
    | query held' replied =>
        cases held.symm.trans held'
        exact replied
  · exact .query held

/-- A step that keeps the views together with the consumer's position. -/
def DeploymentEvent.Harmless (s : Deployment V ι) : DeploymentEvent U E ι → Prop
  | .durable e => DurableFold.Harmless s e
  | .query .. => True

/-- When no step is harmful, the views survive: nothing is published to several instances,
no instance joins another one with events, and none restarts once an event is acknowledged. -/
theorem memory_view_survives (q : MemoryViewQuery V.toPartial R) (store : S)
    {labels : List (DeploymentEvent U E ι)} {s : Deployment V ι}
    (run : Execution (· = .empty) (fun s e s' => DeploymentStep q store s e s' ∧ e.Harmless s) labels s)
    (quiet : s.Quiet) : AnswersAsReplay U q store s := by
  have caught : ∃ n, DurableFold.Caught MemoryView.new DurableProjectorHandler.observe s n := by
    clear quiet
    induction run with
    | start empty =>
        subst empty
        exact ⟨0, DurableFold.caught_empty⟩
    | snoc _ moved ih =>
        obtain ⟨n, caught⟩ := ih
        obtain ⟨moved, harmless⟩ := moved
        cases moved with
        | durable moved => exact caught.step harmless moved
        | query => exact ⟨n, caught⟩
  obtain ⟨n, caught⟩ := caught
  intro i running payload id answer decoded stream result
  obtain ⟨map, held⟩ := Option.isSome_iff_exists.mp running
  have all := caught.folded_all quiet held
  rw [DurableProjectorHandler.observe_eq] at all
  rw [query_step_iff held decoded, LiveViewQuery.eval_handle _ store decoded answer _ stream,
    MemoryViewQuery.reply, all, MemoryView.getD_foldl_projected, Outcome.value.injEq]

end Deployments

section Counters
open Counter

/-- The query of the counter's value. -/
abbrev getState : MemoryViewQuery view.toPartial Int := ⟨"Counter.GetState", id⟩

/-- An empty view does not answer for a log with an event in it. -/
theorem empty_view_differs {s : Deployment view Unit} (log : s.log = [(Uuid.nil, .incremented 5)])
    (held : s.held () = some MemoryView.new) : ¬ AnswersAsReplay errors getState () s := by
  intro survives
  obtain ⟨payload, written, decoded⟩ := QueryEnvelope.readsBack ⟨Uuid.nil⟩
  let answer : (op : ReplayOp) → (ReplaySig errors CounterEvent).Ret op :=
    fun _ => .ok [.ok (.ok (.incremented 5))]
  have stream : answer (.replayOne Uuid.nil 0) =
      .ok ((entriesOf Uuid.nil s.log).map fun e => .ok (.ok e)) := by
    rw [log]
    rfl
  have zero : getState.reply errors MemoryView.new Uuid.nil = encodeReply errors (0 : Int) := rfl
  have stale := (survives () (Option.isSome_of_eq_some held) payload Uuid.nil answer decoded stream
    (encodeReply errors (0 : Int))).mp ((query_step_iff held decoded).mpr zero)
  rw [LiveViewQuery.eval_handle _ () decoded answer [.incremented 5] rfl] at stale
  change Outcome.value (encodeReply errors (5 : Int)) = _ at stale
  have five_written : toValue (5 : Int) = .ok (.number ⟨5, 0⟩) := rfl
  have zero_written : toValue (0 : Int) = .ok (.number ⟨0, 0⟩) := rfl
  have same := encodeReply_injective five_written zero_written (Outcome.value.inj stale)
  cases same

/-- A restart after the acknowledgement: the view is empty and the event does not come again. -/
theorem memory_view_lost :
    ∃ (labels : List (DeploymentEvent errors CounterEvent Unit)) (s : Deployment view Unit),
      DeploymentRun getState () labels s ∧ s.Quiet ∧ ¬ AnswersAsReplay errors getState () s := by
  have run := (Execution.start rfl : DeploymentRun (U := errors) (ι := Unit) getState () [] _)
    |>.snoc (.durable (.publish (Uuid.nil, .incremented 5)))
    |>.snoc (.durable (.start (i := ()) rfl))
    |>.snoc (.durable (.deliver (i := ()) (k := 0) rfl rfl rfl nofun))
    |>.snoc (.durable (.acknowledge (k := 0) (i := ()) rfl))
    |>.snoc (.durable (.restart (i := ()) rfl))
  refine ⟨_, _, run, ?_, empty_view_differs rfl rfl⟩
  intro k inside
  cases Nat.lt_one_iff.mp inside
  rfl

/-- One instance that takes an event and stays. -/
theorem memory_view_survives_counter :
    ∃ (labels : List (DeploymentEvent errors CounterEvent Unit)) (s : Deployment view Unit),
      Execution (· = .empty) (fun s e s' => DeploymentStep getState () s e s' ∧ e.Harmless s) labels s ∧
      s.log = [(Uuid.nil, .incremented 5)] ∧ s.Quiet ∧ AnswersAsReplay errors getState () s := by
  have run := (Execution.start rfl : Execution (· = .empty) (fun s e s' =>
      DeploymentStep (U := errors) (ι := Unit) getState () s e s' ∧ e.Harmless s) [] _)
    |>.snoc ⟨.durable (.start (i := ()) rfl), .inl rfl⟩
    |>.snoc ⟨.durable (.publish (Uuid.nil, .incremented 5)), fun _ _ _ _ => rfl⟩
    |>.snoc ⟨.durable (.deliver (i := ()) (k := 0) rfl rfl rfl nofun), trivial⟩
    |>.snoc ⟨.durable (.acknowledge (k := 0) (i := ()) rfl), trivial⟩
  have quiet : ∀ k < 1, (Function.update (Function.update (fun _ => .undelivered) 0
      (.pending ())) 0 .acknowledged : Nat → DurableFold.Delivery Unit) k = .acknowledged := by
    intro k inside
    cases Nat.lt_one_iff.mp inside
    rfl
  exact ⟨_, _, run, rfl, quiet, memory_view_survives getState () run quiet⟩

end Counters
end EsrcCqrs
