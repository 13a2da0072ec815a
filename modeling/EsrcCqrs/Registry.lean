import EsrcCqrs.Client
import EsrcCqrs.CounterDomain
import Mathlib.Data.List.Nodup

/-! The registry, and who can take a request when both dispatchers serve one registry under
one service name. -/

namespace EsrcCqrs
open Json Interaction CqrsClient

/-- `CqrsRegistry<S>`, as far as the two dispatchers are handed its parts. -/
structure CqrsRegistry (F G : Signature) (S E : Type) where
  store : S
  commandHandlers : List (CommandHandler F S E)
  queryHandlers : List (QueryHandler G S E)

namespace CqrsRegistry
variable {F G : Signature} {S E : Type}

def new (store : S) : CqrsRegistry F G S E := ⟨store, [], []⟩

def registerCommand (reg : CqrsRegistry F G S E) (handler : CommandHandler F S E) :
    CqrsRegistry F G S E :=
  { reg with commandHandlers := reg.commandHandlers ++ [handler] }

def registerQuery (reg : CqrsRegistry F G S E) (handler : QueryHandler G S E) :
    CqrsRegistry F G S E :=
  { reg with queryHandlers := reg.queryHandlers ++ [handler] }

inductive Registration (F G : Signature) (S E : Type) where
  | command (handler : CommandHandler F S E)
  | query (handler : QueryHandler G S E)

def register (reg : CqrsRegistry F G S E) : Registration F G S E → CqrsRegistry F G S E
  | .command handler => reg.registerCommand handler
  | .query handler => reg.registerQuery handler

/-- A chain of builder calls. -/
def build (store : S) (calls : List (Registration F G S E)) : CqrsRegistry F G S E :=
  calls.foldl register (new store)

theorem mem_commandHandlers_foldl (reg : CqrsRegistry F G S E) (calls : List (Registration F G S E))
    (handler : CommandHandler F S E) : handler ∈ (calls.foldl register reg).commandHandlers ↔
      handler ∈ reg.commandHandlers ∨ .command handler ∈ calls := by
  induction calls generalizing reg with
  | nil => simp only [List.foldl_nil, List.not_mem_nil, or_false]
  | cons call calls ih =>
      rw [List.foldl_cons, ih, List.mem_cons]
      cases call with
      | command first =>
          simp only [register, registerCommand, List.mem_append, List.mem_singleton, or_assoc,
            Registration.command.injEq]
      | query first => simp only [register, registerQuery, reduceCtorEq, false_or]

theorem mem_queryHandlers_foldl (reg : CqrsRegistry F G S E) (calls : List (Registration F G S E))
    (handler : QueryHandler G S E) : handler ∈ (calls.foldl register reg).queryHandlers ↔
      handler ∈ reg.queryHandlers ∨ .query handler ∈ calls := by
  induction calls generalizing reg with
  | nil => simp only [List.foldl_nil, List.not_mem_nil, or_false]
  | cons call calls ih =>
      rw [List.foldl_cons, ih, List.mem_cons]
      cases call with
      | command first => simp only [register, registerCommand, reduceCtorEq, false_or]
      | query first =>
          simp only [register, registerQuery, List.mem_append, List.mem_singleton, or_assoc,
            Registration.query.injEq]

/-- A registry holds what was registered. -/
theorem mem_commandHandlers_build {store : S} {calls : List (Registration F G S E)}
    {handler : CommandHandler F S E} :
    handler ∈ (build store calls).commandHandlers ↔ .command handler ∈ calls := by
  rw [build, mem_commandHandlers_foldl]
  exact or_iff_right (List.not_mem_nil)

theorem mem_queryHandlers_build {store : S} {calls : List (Registration F G S E)}
    {handler : QueryHandler G S E} :
    handler ∈ (build store calls).queryHandlers ↔ .query handler ∈ calls := by
  rw [build, mem_queryHandlers_foldl]
  exact or_iff_right (List.not_mem_nil)

/-- Names are unique within each kind. -/
structure UniqueNames (reg : CqrsRegistry F G S E) : Prop where
  commands : (reg.commandHandlers.map CommandHandler.name).Nodup
  queries : (reg.queryHandlers.map QueryHandler.name).Nodup

/-- An endpoint that one of the dispatchers registers. -/
inductive Taker (reg : CqrsRegistry F G S E) where
  | command (i : Fin reg.commandHandlers.length)
  | query (i : Fin reg.queryHandlers.length)

def Taker.name {reg : CqrsRegistry F G S E} : Taker reg → String
  | .command i => reg.commandHandlers[i].name
  | .query i => reg.queryHandlers[i].name

/-- Both services put their endpoints into a group of the service's name; a request goes to
one of the endpoints on its subject, and names hold no wildcards. -/
def CanTake {reg : CqrsRegistry F G S E} (serviceName : String) (m : Message) (t : Taker reg) : Prop :=
  endpointSubject serviceName t.name = m.subject

/-- Whoever can take the message is the command handler of that name. -/
def OnlyCommand (reg : CqrsRegistry F G S E) (serviceName : String) (m : Message) (n : String) : Prop :=
  ∀ t : Taker reg, CanTake serviceName m t →
    ∃ i, t = .command i ∧ ∀ j : Fin reg.commandHandlers.length, reg.commandHandlers[j].name = n ↔ j = i

def OnlyQuery (reg : CqrsRegistry F G S E) (serviceName : String) (m : Message) (n : String) : Prop :=
  ∀ t : Taker reg, CanTake serviceName m t →
    ∃ i, t = .query i ∧ ∀ j : Fin reg.queryHandlers.length, reg.queryHandlers[j].name = n ↔ j = i

/-- The client's subjects and the endpoints' agree: it is the name that decides. -/
theorem canTake_iff {reg : CqrsRegistry F G S E} {serviceName n : String} {m : Message}
    (sent : m.subject = endpointSubject serviceName n) (t : Taker reg) :
    CanTake serviceName m t ↔ t.name = n := by
  unfold CanTake
  rw [sent, endpointSubject, endpointSubject]
  exact String.append_right_inj _

theorem named_iff {α : Type} {name : α → String} {handlers : List α}
    (unique : (handlers.map name).Nodup) {n : String} {i : Fin handlers.length}
    (named : name handlers[i] = n) (j : Fin handlers.length) : name handlers[j] = n ↔ j = i := by
  constructor
  · intro same
    have injective := List.inj_on_of_nodup_map unique (List.getElem_mem j.isLt)
      (List.getElem_mem i.isLt) (same.trans named.symm)
    exact Fin.ext ((List.Nodup.getElem_inj_iff unique.of_map).mp injective)
  · rintro rfl
    exact named

variable {reg : CqrsRegistry F G S E} {serviceName n : String} {m : Message}

theorem onlyCommand_iff (unique : reg.UniqueNames) (sent : m.subject = endpointSubject serviceName n) :
    reg.OnlyCommand serviceName m n ↔ ∀ handler ∈ reg.queryHandlers, handler.name ≠ n := by
  constructor
  · rintro only handler member rfl
    obtain ⟨k, there⟩ := List.mem_iff_get.mp member
    obtain ⟨i, same, -⟩ := only (.query k) ((canTake_iff sent _).mpr (congrArg QueryHandler.name there))
    cases same
  · intro other t taken
    have named := (canTake_iff sent t).mp taken
    cases t with
    | command i => exact ⟨i, rfl, named_iff unique.commands named⟩
    | query i => exact absurd named (other _ (List.getElem_mem i.isLt))

theorem onlyQuery_iff (unique : reg.UniqueNames) (sent : m.subject = endpointSubject serviceName n) :
    reg.OnlyQuery serviceName m n ↔ ∀ handler ∈ reg.commandHandlers, handler.name ≠ n := by
  constructor
  · rintro only handler member rfl
    obtain ⟨k, there⟩ := List.mem_iff_get.mp member
    obtain ⟨i, same, -⟩ :=
      only (.command k) ((canTake_iff sent _).mpr (congrArg CommandHandler.name there))
    cases same
  · intro other t taken
    have named := (canTake_iff sent t).mp taken
    cases t with
    | command i => exact absurd named (other _ (List.getElem_mem i.isLt))
    | query i => exact ⟨i, rfl, named_iff unique.queries named⟩

end CqrsRegistry

section Routing
variable [TextFormat] [Uuid.Text] {F G : Signature} {S E : Type}
open CqrsRegistry

/-- A command can be taken by its own handler only exactly when no query handler has its
name, and a query exactly when no command handler has. -/
theorem requests_reach_their_handler (store : S) (calls : List (Registration F G S E))
    (unique : (build store calls).UniqueNames) (serviceName n : String) (m : Message) :
    (∀ {C : Type} [Serialize C] (id : Uuid) (command : C),
      Sends (fun request => sendCommand request serviceName n id command) m →
      ((build store calls).OnlyCommand serviceName m n ↔
        ∀ handler, .query handler ∈ calls → handler.name ≠ n)) ∧
    (∀ {C R : Type} [Serialize C] [Deserialize R] (command : C),
      Sends (fun request => sendServiceCommand R request serviceName n command) m →
      ((build store calls).OnlyCommand serviceName m n ↔
        ∀ handler, .query handler ∈ calls → handler.name ≠ n)) ∧
    (∀ id : Uuid, Sends (fun request => sendQuery request serviceName n id) m →
      ((build store calls).OnlyQuery serviceName m n ↔
        ∀ handler, .command handler ∈ calls → handler.name ≠ n)) := by
  have commands (sent : m.subject = endpointSubject serviceName n) :
      (build store calls).OnlyCommand serviceName m n ↔
        ∀ handler, .query handler ∈ calls → handler.name ≠ n := by
    simp only [onlyCommand_iff unique sent, mem_queryHandlers_build]
  have queries (sent : m.subject = endpointSubject serviceName n) :
      (build store calls).OnlyQuery serviceName m n ↔
        ∀ handler, .command handler ∈ calls → handler.name ≠ n := by
    simp only [onlyQuery_iff unique sent, mem_commandHandlers_build]
  refine ⟨?_, ?_, ?_⟩
  · intro C _ id command sent
    exact commands (exchange_subject sent)
  · intro C R _ _ command sent
    exact commands (exchange_subject sent)
  · intro id sent
    exact queries (exchange_subject sent)

end Routing

section Counters
open Counter CqrsRegistry

/-- The counter's command handler, and a live query over it under the given name. -/
def counterCalls (queryName : String) :
    List (Registration (StoreSig aggregate) (ReplaySig errors CounterEvent) Unit (Esrc.Error errors)) :=
  [.command ((AggregateCommandHandler.new "Counter" : AggregateCommandHandler aggregate).toHandler Unit),
    .query ((LiveViewQuery.newForSerializableView view.toPartial queryName).toHandler Unit)]

theorem counterCalls_unique (queryName : String) :
    (build () (counterCalls queryName)).UniqueNames :=
  ⟨List.nodup_singleton _, List.nodup_singleton _⟩

/-- A command to the counter, as it is on the wire. -/
theorem counter_command_sent : ∃ bytes, Sends
    (fun request => sendCommand request "svc" "Counter" Uuid.nil CounterCommand.alwaysFail)
    ⟨commandSubject "svc" "Counter", bytes⟩ := by
  obtain ⟨bytes, written, -⟩ := envelope_readsBack Uuid.nil .alwaysFail
  exact ⟨bytes, exchange_sends written⟩

/-- With a query of the same name, a query endpoint can take the command. -/
theorem command_taken_by_query :
    (build () (counterCalls "Counter")).UniqueNames ∧
    ∃ (m : Message) (t : Taker (build () (counterCalls "Counter"))),
      Sends (fun request => sendCommand request "svc" "Counter" Uuid.nil CounterCommand.alwaysFail) m ∧
      CanTake "svc" m t ∧ ∀ i, t ≠ .command i := by
  obtain ⟨bytes, sent⟩ := counter_command_sent
  let last : Fin (build () (counterCalls "Counter")).queryHandlers.length := ⟨0, Nat.one_pos⟩
  exact ⟨counterCalls_unique "Counter", _, .query last, sent, rfl, nofun⟩

/-- The names of the tests differ. -/
theorem requests_reach_their_handler_counter : ∃ m : Message,
    Sends (fun request => sendCommand request "svc" "Counter" Uuid.nil CounterCommand.alwaysFail) m ∧
    (build () (counterCalls "Counter.GetState")).OnlyCommand "svc" m "Counter" := by
  obtain ⟨bytes, sent⟩ := counter_command_sent
  refine ⟨_, sent, ((requests_reach_their_handler () (counterCalls "Counter.GetState")
    (counterCalls_unique "Counter.GetState") "svc" "Counter" _).1 Uuid.nil
    CounterCommand.alwaysFail sent).mpr ?_⟩
  intro handler registered
  cases registered with
  | tail _ registered =>
      cases registered with
      | head =>
          change "Counter.GetState" ≠ "Counter"
          decide
      | tail _ registered => cases registered

end Counters
end EsrcCqrs
