import EsrcCqrs.AggregateHistory
import EsrcCqrs.DispatcherReplies

/-! Rejected commands, on a dispatcher for any number of aggregates. A rejection whose error
has an encoding is a reply like any other; one without an encoding ends `run`. -/

namespace EsrcCqrs
open Json Interaction RequestLoop

section Families
variable {U : ErrorTypes} {κ : Type} (A : κ → Aggregate U)

/-- The stores of a family of aggregates. -/
abbrev StoresSig : Signature := .family fun c => StoreSig (A c)

/-- The event logs of a family, one for each aggregate. -/
abbrev EventLogs := ∀ c, EventLog (A c)

def storesStep : Interp (StoresSig A) (EventLogs A) := .family fun c => FaultyStep (A c)

/-- No store accepts a command that the aggregate rejects. -/
theorem rejected_write {B : Aggregate U} {root : Root B} {command : B.Command} {x : B.Error}
    (rejected : B.process root.aggregate command = .error x) {log log' : EventLog B}
    {r : Except (Esrc.Error U) (Root B)} (returned : FaultyStep B (.tryWrite root command) log r log') :
    ∃ e, r = .error e := by
  cases returned with
  | fails => exact ⟨_, rfl⟩
  | works returned =>
      cases returned with
      | append processed => cases rejected.symm.trans processed
      | conflict | reject => exact ⟨_, rfl⟩

/-- The answer is no domain error, or one that has an encoding. -/
def Encodable [∀ c, Serialize (A c).Error] (op : (StoresSig A).Op) (r : (StoresSig A).Ret op) : Prop :=
  ∀ x, r = .error (.external (.typed (A op.1).errorId x)) → ∃ v, toValue x = .ok v

/-- Any call of any store may fail, so that some answer is always there. -/
theorem storesStep_total [∀ c, Serialize (A c).Error] (op : (StoresSig A).Op)
    (logs : EventLogs A) :
    ∃ r logs', ((storesStep A).only (Encodable A)) op logs r logs' :=
  ⟨.error .conflict, logs, ⟨.fails op.2 .conflict (logs op.1), fun _ _ => rfl⟩, nofun⟩

variable [TextFormat] [Uuid.Text] [∀ c, Deserialize (A c).Command] [∀ c, Serialize (A c).Error]

/-- A handler of one aggregate next to those of other aggregates. -/
def CommandHandler.member {F : κ → Signature} {S E : Type} (c : κ) (h : CommandHandler (F c) S E) :
    CommandHandler (.family F) S E :=
  ⟨h.name, fun store payload => (h.handle store payload).member c⟩

/-- `AggregateCommandHandler::<A>::new(name)` for the aggregate `A` of a family. -/
def aggregateHandler (S : Type) (handler : κ × String) : CommandHandler (StoresSig A) S (Esrc.Error U) :=
  ((AggregateCommandHandler.new handler.2 : AggregateCommandHandler (A handler.1)).toHandler S).member
    handler.1

theorem handle_aggregateHandler {S : Type} (handler : κ × String) (store : S) {payload : ByteArray}
    {envelope : CommandEnvelope (A handler.1).Command}
    (decoded : fromSlice (CommandEnvelope (A handler.1).Command) payload = .ok envelope) :
    (aggregateHandler A S handler).handle store payload = .call ⟨handler.1, .read envelope.id⟩ fun r =>
      (AggregateCommandHandler.afterRead store envelope r).member handler.1 := by
  change Prog.member (F := fun c => StoreSig (A c)) handler.1
    (AggregateCommandHandler.handle store payload) = _
  rw [AggregateCommandHandler.handle_decoded store decoded]
  rfl

def aggregateHandlers (S : Type) (handlers : List (κ × String)) :
    List (CommandHandler (StoresSig A) S (Esrc.Error U)) := handlers.map (aggregateHandler A S)

end Families

section Stages
variable {U : ErrorTypes} {κ : Type} {A : κ → Aggregate U} [TextFormat] [Uuid.Text]
  [∀ c, Serialize (A c).Error] {S : Type}

/-- Where the program of an aggregate handler can stand, whatever the store has answered. -/
inductive InHand : Prog (StoresSig A) (S × HandlerResult U) → Prop
  | reading {c : κ} (store : S) (envelope : CommandEnvelope (A c).Command) :
      InHand (.call ⟨c, .read envelope.id⟩ fun r =>
        (AggregateCommandHandler.afterRead store envelope r).member c)
  | writing {c : κ} (store : S) (aggId : Uuid) (root : Root (A c)) (command : (A c).Command) :
      InHand (.call ⟨c, .tryWrite root command⟩ fun r =>
        (AggregateCommandHandler.afterWrite store aggId r).member c)
  | returned (a : S × HandlerResult U) : InHand (.ret a)

theorem inHand_handle [∀ c, Deserialize (A c).Command] (c : κ) (store : S) (payload : ByteArray) :
    InHand ((AggregateCommandHandler.handle (A := A c) store payload).member c) := by
  cases decoded : fromSlice (CommandEnvelope (A c).Command) payload with
  | error e =>
      rw [AggregateCommandHandler.handle_malformed store decoded]
      exact .returned _
  | ok envelope =>
      rw [AggregateCommandHandler.handle_decoded store decoded]
      exact .reading store envelope

/-- A failed write whose error can be encoded comes to a refusal. -/
theorem afterWrite_refuses [ToString (Esrc.Error U)] {c : κ} {op : StoreOp (A c)} {e : Esrc.Error U}
    (encodable : Encodable A ⟨c, op⟩ (.error e)) (store : S) (aggId : Uuid) :
    ∃ r, AggregateCommandHandler.afterWrite (A := A c) store aggId (.error e) = .ret (store, r) ∧
      Refusal (NatsCommandDispatcher.body r) := by
  rw [AggregateCommandHandler.afterWrite_error]
  cases converted : convertEsrcError (A c) e with
  | value err => exact ⟨_, rfl, ⟨aggId, false, some err⟩, rfl, rfl⟩
  | panicked message =>
      obtain ⟨x, je, rfl, failed⟩ := convertEsrcError_panicked converted
      obtain ⟨v, written⟩ := encodable x rfl
      cases failed.symm.trans written

/-- With such answers a handler goes on to its reply. -/
theorem InHand.call [ToString (Esrc.Error U)] {op : (StoresSig A).Op}
    {next : (StoresSig A).Ret op → Prog (StoresSig A) (S × HandlerResult U)}
    {r : (StoresSig A).Ret op} (h : InHand (.call op next)) (encodable : Encodable A op r) :
    InHand (next r) := by
  cases h with
  | reading store envelope =>
      cases r with
      | error e => exact .returned _
      | ok root => exact .writing store envelope.id root envelope.command
  | writing store aggId root command =>
      cases r with
      | ok written => exact .returned _
      | error e =>
          obtain ⟨r, replied, -⟩ := afterWrite_refuses encodable store aggId
          simp only [replied]
          exact .returned _

theorem InHand.safeUnder [ToString (Esrc.Error U)] {exec : Interp (StoresSig A) (EventLogs A)}
    {p : Prog (StoresSig A) (S × HandlerResult U)} (h : InHand p) :
    p.SafeUnder (exec.only (Encodable A)) := by
  induction p with
  | ret a => trivial
  | panic message => cases h
  | call op next ih => exact fun _ r _ returned => ih r (h.call returned.2)

/-- Nothing in an endpoint unwinds, and its handler is that of an aggregate. -/
structure Calm (e : Endpoint (StoresSig A) S (HandlerResult U)) : Prop where
  inHand : ∀ k payload p, e.phase = .handling k payload p → InHand p
  unbroken : ∀ message, e.phase ≠ .panicked message

theorem Calm.stop {e : Endpoint (StoresSig A) S (HandlerResult U)} (h : Calm e) : Calm e.stop := by
  refine ⟨fun k payload p phase => absurd phase (e.stop_phase_ne k payload p), ?_⟩
  intro message
  have unbroken := h.unbroken message
  unfold Endpoint.stop
  cases phase : e.phase with
  | panicked message' => exact absurd phase (h.unbroken message')
  | _ => exact nofun

end Stages

section Rejections
variable {U : ErrorTypes} {κ : Type} {A : κ → Aggregate U} [TextFormat] [Uuid.Text]
  [ToString (Esrc.Error U)] [∀ c, Serialize (A c).Error] {S : Type}

/-- A program that can only refuse its request. -/
inductive Losing : Prog (StoresSig A) (S × HandlerResult U) → Prop
  | writing {c : κ} {root : Root (A c)} {command : (A c).Command} {x : (A c).Error} (store : S)
      (aggId : Uuid) :
      (A c).process root.aggregate command = .error x →
      Losing (.call ⟨c, .tryWrite root command⟩ fun r =>
        (AggregateCommandHandler.afterWrite store aggId r).member c)
  | refused {r : HandlerResult U} (store : S) :
      Refusal (NatsCommandDispatcher.body r) → Losing (.ret (store, r))

theorem InHand.losing {c : κ} {root : Root (A c)} {command : (A c).Command} {x : (A c).Error}
    {next : Except (Esrc.Error U) (Root (A c)) → Prog (StoresSig A) (S × HandlerResult U)}
    (h : InHand (.call ⟨c, .tryWrite root command⟩ next))
    (rejected : (A c).process root.aggregate command = .error x) :
    Losing (.call ⟨c, .tryWrite root command⟩ next) := by
  cases h with
  | writing store aggId => exact .writing store aggId rejected

theorem Losing.call {op : (StoresSig A).Op}
    {next : (StoresSig A).Ret op → Prog (StoresSig A) (S × HandlerResult U)}
    {r : (StoresSig A).Ret op} {w w' : EventLogs A} (h : Losing (.call op next))
    (returned : ((storesStep A).only (Encodable A)) op w r w') : Losing (next r) := by
  cases h with
  | writing store aggId rejected =>
      obtain ⟨⟨wrote, -⟩, encodable⟩ := returned
      obtain ⟨e, rfl⟩ := rejected_write rejected wrote
      obtain ⟨r, replied, refusal⟩ := afterWrite_refuses encodable store aggId
      simp only [replied]
      exact .refused store refusal

/-- Whatever is replied to request `k` is a refusal, now and later. -/
structure Refused (e : Endpoint (StoresSig A) S (HandlerResult U)) (k : Nat) : Prop where
  taken : k < e.taken
  replies : ∀ body, (k, body) ∈ e.attempts → Refusal body
  inHand : ∀ payload p, e.phase = .handling k payload p → Losing p

theorem Refused.step {handler : CommandHandler (StoresSig A) S (Esrc.Error U)}
    {e e' : Endpoint (StoresSig A) S (HandlerResult U)} {w w' : EventLogs A} {a : Act (HandlerResult U)}
    {k : Nat} (h : Refused e k)
    (moved : RequestLoop.Step (NatsCommandDispatcher.service handler) ((storesStep A).only (Encodable A))
      e w a e' w') : Refused e' k := by
  obtain ⟨taken, replies, inHand⟩ := h
  cases moved with
  | arrive | close => exact ⟨taken, replies, inHand⟩
  | take =>
      refine ⟨Nat.lt_succ_of_lt taken, replies, ?_⟩
      intro payload p handling
      cases handling
      exact absurd taken (Nat.lt_irrefl _)
  | call phase returned =>
      refine ⟨taken, replies, ?_⟩
      intro payload p handling
      cases handling
      exact (inHand _ _ phase).call returned
  | finish phase =>
      refine ⟨taken, ?_, nofun⟩
      intro body member
      rcases List.mem_append.mp member with earlier | last
      · exact replies body earlier
      · rw [List.mem_singleton] at last
        cases last
        cases inHand _ _ phase with
        | refused _ refusal => exact refusal
  | unwind | responded | leave => exact ⟨taken, replies, nofun⟩

theorem Refused.stop {e : Endpoint (StoresSig A) S (HandlerResult U)} {k : Nat} (h : Refused e k) :
    Refused e.stop k :=
  ⟨h.taken, h.replies, fun payload p phase => absurd phase (e.stop_phase_ne k payload p)⟩

theorem Refused.continues {handlers : List (CommandHandler (StoresSig A) S (Esrc.Error U))}
    {i : Fin handlers.length} {k : Nat}
    {s s' : DispatcherState handlers.length U (StoresSig A) S (EventLogs A)}
    {events : List (DispatcherEvent handlers.length U)}
    (later : Continues (DispatcherState.Step (NatsCommandDispatcher.services handlers)
      ((storesStep A).only (Encodable A))) s events s')
    (h : Refused (s.cluster.endpoint i) k) : Refused (s'.cluster.endpoint i) k := by
  induction later with
  | done => exact h
  | @cons s event s' _ _ moved _ ih =>
      refine ih ?_
      cases moved with
      | started | spawned | joined | finished => exact h
      | startFailed | spawnFailed | joinFailed => exact h.stop
      | @act _ j _ e w _ _ moved =>
          refine (Function.forall_update_iff s.cluster.endpoint fun j e => j = i → Refused e k).mpr
            ⟨?_, ?_⟩ i rfl
          · rintro rfl
            exact h.step moved
          · rintro _ _ rfl
            exact h

end Rejections

section Dispatching
variable {U : ErrorTypes} {κ : Type} {A : κ → Aggregate U} [TextFormat] [Uuid.Text]
  [ToString (Esrc.Error U)] [∀ c, Serialize (A c).Error] [∀ c, Deserialize (A c).Command] {S : Type}

theorem services_aggregateHandlers (handlers : List (κ × String))
    (i : Fin (aggregateHandlers A S handlers).length) : ∃ handler : κ × String,
    NatsCommandDispatcher.services (aggregateHandlers A S handlers) i =
      NatsCommandDispatcher.service (aggregateHandler A S handler) := by
  obtain ⟨handler, -, same⟩ := List.mem_map.mp (List.getElem_mem i.isLt)
  exact ⟨handler, congrArg NatsCommandDispatcher.service same.symm⟩

theorem Calm.step {handler : κ × String} {exec : Interp (StoresSig A) (EventLogs A)}
    {e e' : Endpoint (StoresSig A) S (HandlerResult U)} {w w' : EventLogs A} {a : Act (HandlerResult U)}
    (h : Calm e) (moved : RequestLoop.Step (NatsCommandDispatcher.service (aggregateHandler A S handler))
      (exec.only (Encodable A)) e w a e' w') : Calm e' := by
  cases moved with
  | arrive | close => exact ⟨h.inHand, h.unbroken⟩
  | take =>
      refine ⟨?_, nofun⟩
      intro k payload p handling
      cases handling
      exact inHand_handle handler.1 _ _
  | call phase returned =>
      refine ⟨?_, nofun⟩
      intro k payload p handling
      cases handling
      exact (h.inHand _ _ _ phase).call returned.2
  | unwind phase => cases h.inHand _ _ _ phase
  | finish | responded | leave => exact ⟨nofun, nofun⟩

theorem calm {handlers : List (κ × String)} {exec : Interp (StoresSig A) (EventLogs A)} {store : S}
    {logs : EventLogs A} {trace : List (DispatcherEvent (aggregateHandlers A S handlers).length U)}
    {s : DispatcherState (aggregateHandlers A S handlers).length U (StoresSig A) S (EventLogs A)}
    (h : DispatcherState.Run (NatsCommandDispatcher.services (aggregateHandlers A S handlers))
      (exec.only (Encodable A)) store logs trace s) (i : Fin (aggregateHandlers A S handlers).length) :
    Calm (s.cluster.endpoint i) := by
  obtain ⟨labels, run⟩ := h.cluster
  refine run.endpoints (I := fun _ e => Calm e) (fun _ => ⟨nofun, nofun⟩) Calm.stop ?_ i
  intro i e w a e' w' _ holds moved
  obtain ⟨handler, own⟩ := services_aggregateHandlers handlers i
  rw [own] at moved
  exact holds.step moved

/-- What a dispatcher for aggregates owes in a state that it has reached. -/
structure KeepsServing (handlers : List (CommandHandler (StoresSig A) S (Esrc.Error U)))
    (exec : Interp (StoresSig A) (EventLogs A)) (trace : List (DispatcherEvent handlers.length U))
    (s : DispatcherState handlers.length U (StoresSig A) S (EventLogs A)) : Prop where
  rejected : ∀ i (k : Nat) payload c root command x next,
    (s.cluster.endpoint i).phase = .handling k payload (.call ⟨c, .tryWrite root command⟩ next) →
    (A c).process root.aggregate command = .error x →
    ∀ events s', Continues (DispatcherState.Step (NatsCommandDispatcher.services handlers) exec)
      s events s' →
    ∀ body, (k, body) ∈ (s'.cluster.endpoint i).attempts →
      ∃ reply : CommandReply, body = TextFormat.print reply.encode ∧ reply.success = false
  serves : ∀ m i, s.status = .running m → i.val < m →
    ∃ (acts : List (Act (HandlerResult U))) (s' : DispatcherState handlers.length U (StoresSig A) S (EventLogs A)),
      Continues (DispatcherState.Step (NatsCommandDispatcher.services handlers) exec) s
        (acts.map (.act i)) s' ∧
      (s'.cluster.endpoint i).stream = (s.cluster.endpoint i).stream ∧
      (s'.cluster.endpoint i).attempts.length = (s.cluster.endpoint i).stream.length
  failed : ∀ e, s.status = .returned (.error e) →
    ∃ text, .startFailed text ∈ trace ∨ .spawnFailed text ∈ trace

/-- As long as every domain error that a store returns has an encoding, rejections are
answered, no endpoint stops serving, and `run` fails at its start only. -/
theorem rejections_keep_serving {handlers : List (κ × String)} {store : S} {logs : EventLogs A}
    {trace : List (DispatcherEvent (aggregateHandlers A S handlers).length U)}
    {s : DispatcherState (aggregateHandlers A S handlers).length U (StoresSig A) S (EventLogs A)}
    (h : DispatcherState.Run (NatsCommandDispatcher.services (aggregateHandlers A S handlers))
      ((storesStep A).only (Encodable A)) store logs trace s) :
    KeepsServing (aggregateHandlers A S handlers) ((storesStep A).only (Encodable A)) trace s := by
  refine ⟨?_, ?_, ?_⟩
  · intro i k payload c root command x next phase rejected events s' later body member
    have position := (h.ordered i).position
    unfold Endpoint.Position at position
    rw [phase] at position
    obtain ⟨here, taken, -⟩ := position
    have refused : Refused (s.cluster.endpoint i) k := by
      refine ⟨by omega, ?_, ?_⟩
      · intro body' earlier
        have bound := (h.ordered i).attempt_lt earlier
        omega
      · intro payload' p handling
        rw [phase] at handling
        cases handling
        exact ((calm h i).inHand _ _ _ phase).losing rejected
    exact (refused.continues later).replies body member
  · intro m i running spawned
    obtain ⟨handler, own⟩ := services_aggregateHandlers handlers i
    have safe : (NatsCommandDispatcher.services (aggregateHandlers A S handlers) i).SafeUnder
        ((storesStep A).only (Encodable A)) := by
      rw [own]
      exact fun store payload => (inHand_handle handler.1 store payload).safeUnder
    exact serves_stream running spawned (storesStep_total A) safe (h.ordered i)
      (fun k payload p phase => ((calm h i).inHand k payload p phase).safeUnder)
      ⟨h.not_aborted (by rw [running]; exact nofun) i, (calm h i).unbroken⟩
  · exact fun e => h.failed_early fun run i => (calm run i).unbroken

end Dispatching

section Shops
open Counter

/-- A domain error with a table keyed by pairs, for which JSON objects have no keys. -/
structure Shortage where
  missing : List ((Int × Int) × Int)

instance : Serialize Shortage where
  toValue e := if e.missing = [] then .ok (.object []) else .error (.custom "key must be a string")

abbrev shopErrors : ErrorTypes where
  Id := Bool
  decEq := inferInstance
  El counts := cond counts CounterError Shortage
  text
    | true, _ => "forced failure for testing"
    | false, _ => "out of stock"

/-- A counter, and a stock that is short of something whenever it rejects. -/
def shop : Bool → Aggregate shopErrors
  | true => ⟨Int, CounterCommand, CounterEvent, true, 0, Counter.process, Counter.apply⟩
  | false => ⟨Int, CounterCommand, CounterEvent, false, 0,
      fun value command => (Counter.process value command).mapError fun _ => ⟨[((1, 2), 3)]⟩,
      Counter.apply⟩

instance : ∀ c, Deserialize (shop c).Command
  | true => inferInstanceAs (Deserialize CounterCommand)
  | false => inferInstanceAs (Deserialize CounterCommand)

instance : ∀ c, Serialize (shop c).Error
  | true => inferInstanceAs (Serialize CounterError)
  | false => inferInstanceAs (Serialize Shortage)

instance : ToString (Esrc.Error shopErrors) := ⟨Esrc.Error.toText⟩

def shopHandlers : List (CommandHandler (StoresSig shop) Unit (Esrc.Error shopErrors)) :=
  aggregateHandlers shop Unit [(false, "Stock"), (true, "Counter")]

def stockAt : Fin shopHandlers.length := ⟨0, Nat.two_pos⟩

def shopCounterAt : Fin shopHandlers.length := ⟨1, Nat.one_lt_two⟩

def shortage : (shop false).Error := Shortage.mk [((1, 2), 3)]

/-- The stock's handler, once the store has rejected its command. -/
theorem stock_unwinds (id : Uuid) :
    AggregateCommandHandler.afterWrite (A := shop false) () id
      (.error (.external (.typed false shortage))) = .panic serializableMessage := by
  rw [AggregateCommandHandler.afterWrite_error (A := shop false)]
  have unwound : convertEsrcError (shop false) (.external (.typed false shortage)) =
      .panicked serializableMessage := rfl
  rw [unwound]
  rfl

/-- One rejection without an encoding: no reply, `run` returns an error, and the counter's
endpoint is gone with a request in its stream. -/
theorem unencodable_rejection_stops_dispatcher :
    ∃ (trace : List (DispatcherEvent shopHandlers.length shopErrors))
      (s : DispatcherState shopHandlers.length shopErrors (StoresSig shop) Unit (EventLogs shop)),
      DispatcherState.Run (NatsCommandDispatcher.services shopHandlers) (storesStep shop) ()
        (fun _ => []) trace s ∧
      (∃ request, (s.cluster.endpoint stockAt).stream = [request] ∧
        fromSlice (CommandEnvelope (shop false).Command) request = .ok ⟨Uuid.nil, .alwaysFail⟩) ∧
      (shop false).process (shop false).default .alwaysFail = .error shortage ∧
      (∀ text, .startFailed text ∉ trace ∧ .spawnFailed text ∉ trace) ∧
      (∃ e, s.status = .returned (.error e)) ∧
      (s.cluster.endpoint stockAt).taken = 1 ∧ (s.cluster.endpoint stockAt).attempts = [] ∧
      (s.cluster.endpoint shopCounterAt).stream.length = 1 ∧
      (s.cluster.endpoint shopCounterAt).attempts = [] ∧
      ∀ event s', ¬ DispatcherState.Step (NatsCommandDispatcher.services shopHandlers)
        (storesStep shop) s event s' := by
  have decoded : fromSlice (CommandEnvelope (shop false).Command) (payload Uuid.nil .alwaysFail) =
      .ok ⟨Uuid.nil, .alwaysFail⟩ := fromSlice_payload Uuid.nil .alwaysFail
  generalize payload Uuid.nil .alwaysFail = request at decoded
  have reads : FaultyStep (shop false) (.read Uuid.nil) [] (.ok (Root.ofLog [] Uuid.nil)) [] :=
    .works (.read Uuid.nil [])
  have rejects : FaultyStep (shop false) (.tryWrite (Root.ofLog [] Uuid.nil) .alwaysFail) []
      (.error (.external (.typed false shortage))) [] := .works (.reject rfl)
  have panics : (Phase.handling 0 request ((AggregateCommandHandler.afterWrite (A := shop false) ()
      Uuid.nil (.error (.external (.typed false shortage)))).member false) :
      Phase (StoresSig shop) Unit (HandlerResult shopErrors)) =
      .handling 0 request (.panic serializableMessage) := by
    rw [stock_unwinds]
    rfl
  have start : DispatcherState.Run (NatsCommandDispatcher.services shopHandlers) (storesStep shop) ()
      (fun _ => []) [] _ := .start rfl
  have spawned := ((start.snoc (.started rfl)).snoc (.spawned rfl Nat.two_pos)).snoc
    (.spawned rfl Nat.one_lt_two)
  have taken := ((spawned.snoc
    (DispatcherState.Step.act (i := stockAt) rfl Nat.two_pos (.arrive request rfl))).snoc
    (DispatcherState.Step.act (i := shopCounterAt) rfl Nat.one_lt_two (.arrive request rfl))).snoc
    (DispatcherState.Step.act (i := stockAt) rfl Nat.two_pos (.take rfl rfl))
  have read := taken.snoc (DispatcherState.Step.act (i := stockAt) rfl Nat.two_pos (w := fun _ => [])
    (.call (congrArg (Phase.handling 0 request)
      (handle_aggregateHandler shop (false, "Stock") () decoded)) ⟨reads, fun _ _ => rfl⟩))
  have rejected := read.snoc (DispatcherState.Step.act (i := stockAt) rfl Nat.two_pos (w := fun _ => [])
    (.call rfl ⟨rejects, fun _ _ => rfl⟩))
  have unwound := rejected.snoc (DispatcherState.Step.act (i := stockAt) rfl Nat.two_pos
    (.unwind panics))
  refine ⟨_, _, unwound.snoc (.joinFailed (i := stockAt) "task panicked" rfl rfl), ⟨request, rfl, decoded⟩,
    rfl, ?_, ⟨_, rfl⟩, rfl, rfl, rfl, rfl, ?_⟩
  · intro text
    simp
  · intro event s' moved
    cases moved with
    | started status | startFailed _ status | spawned status | spawnFailed _ status | act status
    | joined status | joinFailed _ status | finished status => cases status

/-- A rejection by the counter, in a shop whose stock is left alone. -/
theorem rejections_keep_serving_shop :
    ∃ (trace : List (DispatcherEvent shopHandlers.length shopErrors))
      (s : DispatcherState shopHandlers.length shopErrors (StoresSig shop) Unit (EventLogs shop))
      (request : ByteArray)
      (next : Except (Esrc.Error shopErrors) (Root (shop true)) →
        Prog (StoresSig shop) (Unit × HandlerResult shopErrors)),
      (s.cluster.endpoint shopCounterAt).phase = .handling 0 request
        (.call ⟨true, .tryWrite (Root.ofLog [] Uuid.nil) .alwaysFail⟩ next) ∧
      (shop true).process (Root.ofLog [] Uuid.nil).aggregate .alwaysFail =
        .error CounterError.forcedFailure ∧
      KeepsServing shopHandlers ((storesStep shop).only (Encodable shop)) trace s := by
  have decoded : fromSlice (CommandEnvelope (shop true).Command) (payload Uuid.nil .alwaysFail) =
      .ok ⟨Uuid.nil, .alwaysFail⟩ := fromSlice_payload Uuid.nil .alwaysFail
  generalize payload Uuid.nil .alwaysFail = request at decoded
  have reads : FaultyStep (shop true) (.read Uuid.nil) [] (.ok (Root.ofLog [] Uuid.nil)) [] :=
    .works (.read Uuid.nil [])
  have start : DispatcherState.Run (NatsCommandDispatcher.services shopHandlers)
      ((storesStep shop).only (Encodable shop)) () (fun _ => []) [] _ := .start rfl
  have spawned := ((start.snoc (.started rfl)).snoc (.spawned rfl Nat.two_pos)).snoc
    (.spawned rfl Nat.one_lt_two)
  have taken := (spawned.snoc
    (DispatcherState.Step.act (i := shopCounterAt) rfl Nat.one_lt_two (.arrive request rfl))).snoc
    (DispatcherState.Step.act (i := shopCounterAt) rfl Nat.one_lt_two (.take rfl rfl))
  have read := taken.snoc (DispatcherState.Step.act (i := shopCounterAt) rfl Nat.one_lt_two
    (w := fun _ => []) (.call (congrArg (Phase.handling 0 request)
      (handle_aggregateHandler shop (true, "Counter") () decoded)) ⟨⟨reads, fun _ _ => rfl⟩, nofun⟩))
  exact ⟨_, _, request, _, rfl, rfl, rejections_keep_serving read⟩

end Shops
end EsrcCqrs
