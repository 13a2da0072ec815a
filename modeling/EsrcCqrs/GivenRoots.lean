import EsrcCqrs.RelyGuarantee
import EsrcCqrs.SingleWriter

/-! Handlers of any kind that offer commands only to roots which the store gave them. Whatever
else they do, every event they store was decided on the state it is applied to, so that an
invariant of the aggregate's own operations is one of the stored logs. -/

namespace EsrcCqrs
open Json Interaction KeyedLog RequestLoop

section Entries
variable {K E : Type} [DecidableEq K] (key : K)

theorem entriesOf_map_pair (events : List E) : entriesOf key (events.map fun e => (key, e)) = events := by
  induction events with
  | nil => rfl
  | cons e events ih =>
      simp only [List.map_cons, entriesOf, List.filterMap_cons, if_true]
      exact congrArg (e :: ·) ih

/-- A log was once without the last entry of a key. -/
theorem entriesOf_take_of_snoc {log : List (K × E)} {events : List E} {e : E}
    (h : entriesOf key log = events ++ [e]) :
    ∃ n < log.length, entriesOf key (log.take n) = events := by
  induction log using List.reverseRecOn with
  | nil =>
      have lengths := congrArg List.length h
      simp only [entriesOf, List.filterMap_nil, List.length_nil, List.length_append,
        List.length_singleton] at lengths
      omega
  | append_singleton log entry ih =>
      obtain ⟨k, x⟩ := entry
      have longer : log.length < (log ++ [(k, x)]).length := by
        rw [List.length_append, List.length_singleton]
        omega
      by_cases same : k = key
      · subst same
        rw [entriesOf_snoc_self] at h
        refine ⟨log.length, longer, ?_⟩
        rw [List.take_left]
        exact (List.append_inj' h rfl).1
      · rw [entriesOf_snoc_ne same] at h
        obtain ⟨n, early, before⟩ := ih h
        refine ⟨n, early.trans longer, ?_⟩
        rw [List.take_append_of_le_length (Nat.le_of_lt early)]
        exact before

end Entries

section Logs
variable {U : ErrorTypes} {A : Aggregate U}

/-- Each event of a log was decided, by some command, on the earlier events of its id. -/
inductive DecidedLog {U : ErrorTypes} {A : Aggregate U} : EventLog A → Prop
  | nil : DecidedLog []
  | snoc {log : EventLog A} {id : Uuid} {command : A.Command} {e : A.Event} :
      DecidedLog log → A.process (A.fold (entriesOf id log)) command = .ok e →
      DecidedLog (log ++ [(id, e)])

theorem DecidedLog.take {log : EventLog A} (h : DecidedLog log) (n : Nat) : DecidedLog (log.take n) := by
  induction h with
  | nil =>
      rw [List.take_nil]
      exact .nil
  | @snoc log id command e decided processed ih =>
      by_cases early : n ≤ log.length
      · rw [List.take_append_of_le_length early]
        exact ih
      · rw [List.take_of_length_le (by rw [List.length_append, List.length_singleton]; omega)]
        exact decided.snoc processed

/-- The events of one id, each decided on the earlier ones. -/
inductive DecidedStream {U : ErrorTypes} {A : Aggregate U} : List A.Event → Prop
  | nil : DecidedStream []
  | snoc {events : List A.Event} {command : A.Command} {e : A.Event} :
      DecidedStream events → A.process (A.fold events) command = .ok e → DecidedStream (events ++ [e])

theorem DecidedLog.stream {log : EventLog A} (h : DecidedLog log) (id : Uuid) :
    DecidedStream (entriesOf id log) := by
  induction h with
  | nil => exact .nil
  | @snoc log id' command e _ processed ih =>
      by_cases same : id' = id
      · subst same
        rw [entriesOf_snoc_self]
        exact ih.snoc processed
      · rw [entriesOf_snoc_ne same]
        exact ih

/-- A decided stream is a decided log of its own. -/
theorem DecidedStream.log {events : List A.Event} (h : DecidedStream events) (id : Uuid) :
    DecidedLog (events.map fun e => (id, e)) := by
  induction h with
  | nil => exact .nil
  | @snoc events command e _ processed ih =>
      rw [← entriesOf_map_pair id events] at processed
      rw [List.map_append]
      exact ih.snoc processed

/-- What holds of the default state and survives every accepted command holds of every state. -/
theorem DecidedStream.invariant {I : A.State → Prop} (first : I A.default)
    (next : ∀ {state command e}, I state → A.process state command = .ok e → I (A.apply state e))
    {events : List A.Event} (h : DecidedStream events) : I (A.fold events) := by
  induction h with
  | nil => exact first
  | snoc _ processed ih =>
      rw [Aggregate.fold_snoc]
      exact next ih processed

/-- Without faults every call of the store has its answer. -/
theorem faultyStep_answer (op : StoreOp A) (log : EventLog A) :
    FaultyStep A op log (op.answer log).1 (op.answer log).2 :=
  .works (storeStep_iff.mpr rfl)

/-- A root as the log had it at some time. -/
def Root.Known (log : EventLog A) (root : Root A) : Prop :=
  ∃ earlier, earlier <+: log ∧ root = Root.ofLog earlier root.id

theorem Root.known_ofLog (log : EventLog A) (id : Uuid) : (Root.ofLog log id).Known log :=
  ⟨log, List.prefix_refl log, rfl⟩

theorem Root.Known.mono {log log' : EventLog A} {root : Root A} (h : root.Known log)
    (longer : log <+: log') : root.Known log' := by
  obtain ⟨earlier, before, same⟩ := h
  exact ⟨earlier, before.trans longer, same⟩

/-- A known root whose last number is still the stream's is that of the log as it is now. -/
theorem Root.Known.current {log : EventLog A} {root : Root A} (h : root.Known log)
    (current : KeyedLog.lastSequence root.id log = root.lastSequence) :
    root.aggregate = A.fold (entriesOf root.id log) := by
  obtain ⟨earlier, ⟨more, rfl⟩, same⟩ := h
  have number : root.lastSequence = KeyedLog.lastSequence root.id earlier := by
    rw [same]
    rfl
  have fresh : entriesOf root.id (earlier ++ more) = entriesOf root.id earlier :=
    entriesOf_of_lastSequence (current.trans number)
  rw [fresh, same]
  rfl

/-- The root that a write returns is that of the log which the write leaves. -/
theorem Root.Known.written {log : EventLog A} {root : Root A} (h : root.Known log)
    (current : KeyedLog.lastSequence root.id log = root.lastSequence) (e : A.Event) :
    (root.written log e).Known (log ++ [(root.id, e)]) := by
  refine ⟨log ++ [(root.id, e)], List.prefix_refl _, ?_⟩
  simp only [Root.written, Root.ofLog, lastSequence_snoc, if_true, entriesOf_snoc_self,
    Aggregate.fold_snoc, h.current current]

end Logs

section Programs
variable {U : ErrorTypes} {A : Aggregate U} {α : Type}

/-- A program that offers commands to the given roots only, and to those that it gets. -/
inductive OffersTo : List (Root A) → Prog (StoreSig A) α → Prop
  | ret {given : List (Root A)} (a : α) : OffersTo given (.ret a)
  | panic {given : List (Root A)} (message : String) : OffersTo given (.panic message)
  | call {given : List (Root A)} {op : StoreOp A}
      {next : Except (Esrc.Error U) (Root A) → Prog (StoreSig A) α} :
      (∀ root command, op = .tryWrite root command → root ∈ given) →
      (∀ r : Except (Esrc.Error U) (Root A), OffersTo (r.toOption.toList ++ given) (next r)) →
      OffersTo given (.call op next)

theorem OffersTo.ofOutcome (given : List (Root A)) (o : Outcome α) :
    OffersTo given (Prog.ofOutcome o) := by
  cases o with
  | value a => exact .ret a
  | panicked message => exact .panic message

/-- A read comes with a root, or ends the program. -/
theorem OffersTo.read {given : List (Root A)} {id : Uuid}
    {next : Except (Esrc.Error U) (Root A) → Prog (StoreSig A) α}
    (failed : ∀ e, OffersTo given (next (.error e)))
    (found : ∀ root, OffersTo (root :: given) (next (.ok root))) :
    OffersTo given (.call (.read id) next) := by
  refine .call nofun fun r => ?_
  cases r with
  | error e => exact failed e
  | ok root => exact found root

variable {S R : Type}

/-- All programs of a service start without a root. -/
def OffersGiven (svc : Service (StoreSig A) S R) : Prop :=
  ∀ store payload, OffersTo [] (svc.handle store payload)

/-- The program in hand offers commands to roots of this log. -/
def Offering (log : EventLog A) (p : Prog (StoreSig A) α) : Prop :=
  ∃ given, OffersTo given p ∧ ∀ root ∈ given, root.Known log

theorem Offering.mono {log log' : EventLog A} {p : Prog (StoreSig A) α} (h : Offering log p)
    (longer : log <+: log') : Offering log' p := by
  obtain ⟨given, offers, known⟩ := h
  exact ⟨given, offers, fun root member => (known root member).mono longer⟩

/-- One call of the store, faulty or not: what it appends was decided on the log as it is now,
and the root it returns is one of the log that it leaves. -/
theorem Offering.call {log log' : EventLog A} {op : StoreOp A}
    {next : Except (Esrc.Error U) (Root A) → Prog (StoreSig A) α} {r : Except (Esrc.Error U) (Root A)}
    (h : Offering log (.call op next)) (decided : DecidedLog log)
    (returned : FaultyStep A op log r log') :
    DecidedLog log' ∧ Offering log' (next r) := by
  obtain ⟨given, offers, known⟩ := h
  have longer := returned.log_extends
  cases offers with
  | call own further =>
      have rest : (∀ root ∈ r.toOption, root.Known log') → Offering log' (next r) := by
        intro returnedKnown
        refine ⟨_, further r, fun root member => ?_⟩
        rcases List.mem_append.mp member with new | old
        · exact returnedKnown root (Option.mem_toList.mp new)
        · exact (known root old).mono longer
      cases returned with
      | fails => exact ⟨decided, rest nofun⟩
      | works returned =>
          cases returned with
          | read id =>
              refine ⟨decided, rest fun root member => ?_⟩
              cases member
              exact Root.known_ofLog log id
          | @append root command e _ processed current =>
              have offered := known _ (own _ _ rfl)
              rw [offered.current current] at processed
              refine ⟨decided.snoc processed, rest fun root' member => ?_⟩
              cases member
              exact offered.written current _
          | conflict | reject => exact ⟨decided, rest nofun⟩

theorem offering_guarantees :
    Guarantees (S := S) (R := R) (FaultyStep A) DecidedLog (· <+: ·) Offering where
  refl := List.prefix_refl
  call decided offering returned :=
    have kept := offering.call decided returned
    ⟨kept.1, returned.log_extends, kept.2⟩
  stable longer offering := offering.mono longer

end Programs

section Handlers
variable {U : ErrorTypes} [TextFormat] [Uuid.Text] [ToString (Esrc.Error U)] {S : Type}

theorem aggregateService_offersGiven (A : Aggregate U) [Deserialize A.Command] [Serialize A.Error]
    (handlerName : String) : OffersGiven (aggregateService A S handlerName) := by
  intro store payload
  change OffersTo [] (AggregateCommandHandler.handle (A := A) store payload)
  cases decoded : fromSlice (CommandEnvelope A.Command) payload with
  | error e =>
      rw [AggregateCommandHandler.handle_malformed store decoded]
      exact .ret _
  | ok envelope =>
      rw [AggregateCommandHandler.handle_decoded store decoded]
      refine .read (fun e => .ret _) fun root => ?_
      refine .call ?_ fun r => .ofOutcome _ _
      rintro root' command ⟨⟩
      exact List.mem_singleton_self root

/-- A service handler adds nothing to what its application's part does. -/
theorem serviceHandler_offersGiven {A : Aggregate U} {C : Type} [Deserialize C]
    (h : ServiceCommandHandler U (StoreSig A) S C)
    (offers : ∀ store command, OffersTo [] (h.handler store command)) :
    OffersGiven (NatsCommandDispatcher.service h.toHandler) := by
  intro store payload
  change OffersTo [] (h.handle store payload)
  unfold ServiceCommandHandler.handle
  split
  · exact .ret _
  · exact offers store _

end Handlers

section Runs
variable {U : ErrorTypes} {A : Aggregate U} {ι S R : Type} [DecidableEq ι]
  {svc : ι → Service (StoreSig A) S R} {store : ι → S} {log : EventLog A} {trace : List (Label ι R)}
  {s : Cluster ι (StoreSig A) S R (EventLog A)}

theorem run_decided (h : Cluster.Run svc (FaultyStep A) store log trace s) (decided : DecidedLog log)
    (offers : ∀ i, OffersGiven (svc i)) : DecidedLog s.world := by
  refine (h.knows offering_guarantees decided fun i w store payload => ?_).1
  exact ⟨[], offers i store payload, nofun⟩

/-- Any number of handlers on one log, aggregate and service handlers alike, in any interleaving
and whichever calls of the store fail: an invariant of the aggregate's own operations holds of
every id, and held at every earlier length of the log. -/
theorem stored_states_keep_invariants (h : Cluster.Run svc (FaultyStep A) store log trace s)
    (decided : DecidedLog log) (offers : ∀ i, OffersGiven (svc i)) {I : A.State → Prop}
    (first : I A.default)
    (next : ∀ {state command e}, I state → A.process state command = .ok e → I (A.apply state e))
    (id : Uuid) (n : Nat) : I (A.fold (entriesOf id (s.world.take n))) :=
  (((run_decided h decided offers).take n).stream id).invariant first next

end Runs

section Reachability
variable {U : ErrorTypes} [TextFormat] [Uuid.Text] [ToString (Esrc.Error U)] {A : Aggregate U}
  [Serialize A.Command] [Deserialize A.Command] [Serialize A.Error]
  {ι S : Type} [DecidableEq ι] {svc : ι → Service (StoreSig A) S (HandlerResult U)} {store : ι → S}
  {i : ι} {handlerName : String}

/-- An aggregate endpoint that reads all commands brings about every log that can be decided at all. -/
theorem decided_reached {exec : Interp (StoreSig A) (EventLog A)}
    (given : ∀ op log, exec op log (op.answer log).1 (op.answer log).2)
    (own : svc i = aggregateService A S handlerName)
    (asked : ∀ id (command : A.Command), ReadsBack (CommandEnvelope.mk id command)) {log : EventLog A}
    (h : DecidedLog log) :
    ∃ trace s, Cluster.Run svc exec store [] trace s ∧ s.world = log ∧ (s.endpoint i).Idle := by
  induction h with
  | nil => exact ⟨[], .fresh store [], .start rfl, rfl, Endpoint.idle_fresh _⟩
  | @snoc log id command e _ processed ih =>
      obtain ⟨trace, s, run, rfl, idle⟩ := ih
      obtain ⟨payload, -, decoded⟩ := asked id command
      have ran := runOn_handle (A := A) (s.endpoint i).store payload s.world
      simp only [referenceStep, decoded, processed, Answer.result, Outcome.map_value] at ran
      have handled : ((svc i).handle (s.endpoint i).store payload).runOn StoreOp.answer s.world =
          (.value ((s.endpoint i).store,
            .ok (TextFormat.print (CommandReply.encode ⟨id, true, none⟩))), s.world ++ [(id, e)]) := by
        rw [own]
        exact ran
      obtain ⟨acts, e', served, idle', -⟩ := serves_next given idle handled
      obtain ⟨trace', run'⟩ := run.alongside served
      refine ⟨trace', _, run', rfl, ?_⟩
      simp only [Function.update_self]
      exact idle'

/-- The logs that are reached are the decided ones, whatever handlers share the store with an
aggregate's own. -/
theorem reached_logs_iff (own : svc i = aggregateService A S handlerName)
    (offers : ∀ j, OffersGiven (svc j))
    (asked : ∀ id (command : A.Command), ReadsBack (CommandEnvelope.mk id command)) (log : EventLog A) :
    (∃ trace s, Cluster.Run svc (FaultyStep A) store [] trace s ∧ s.world = log) ↔ DecidedLog log := by
  constructor
  · rintro ⟨trace, s, run, rfl⟩
    exact run_decided run .nil offers
  · intro decided
    obtain ⟨trace, s, run, world, -⟩ := decided_reached faultyStep_answer own asked decided
    exact ⟨trace, s, run, world⟩

end Reachability
end EsrcCqrs
