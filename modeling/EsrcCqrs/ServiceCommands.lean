import EsrcCqrs.CafeOrders
import EsrcCqrs.CallerErrors
import EsrcCqrs.CallerResults
import EsrcCqrs.ErrorConversions

/-! Service handlers that put each command through to the aggregate whose stream it names: those of
the tests and of the example, and how far they agree with the endpoint of the aggregate itself. -/

namespace EsrcCqrs
open Json Interaction RequestLoop CqrsClient

section WriteThroughs
variable {U : ErrorTypes} [TextFormat] [Uuid.Text] {A : Aggregate U} {S C : Type}

/-- A service handler that reads the stream a command names, writes to it, and replies with the id
or with the error that it makes of the store's. -/
structure WriteThrough {U : ErrorTypes} (A : Aggregate U) (C : Type) where
  route : C → Uuid × A.Command
  convert : Esrc.Error U → Error

namespace WriteThrough

def reply (t : WriteThrough A C) : Except (Esrc.Error U) (Root A) → ServiceCommandReply Uuid
  | .ok written => .okWith written.id
  | .error e => .err (t.convert e)

def afterWrite (t : WriteThrough A C) (store : S) (result : Except (Esrc.Error U) (Root A)) :
    Prog (StoreSig A) (S × Except (Esrc.Error U) ByteArray) :=
  .ret (store, (toVec (t.reply result)).mapError fun e => .format (.json e))

def afterRead (t : WriteThrough A C) (store : S) (command : A.Command) :
    Except (Esrc.Error U) (Root A) → Prog (StoreSig A) (S × Except (Esrc.Error U) ByteArray)
  | .error e => .ret (store, .error e)
  | .ok root => .call (.tryWrite root command) (t.afterWrite store)

def handle (t : WriteThrough A C) : EsrcCommandHandler U (StoreSig A) S C := fun store command =>
  .call (.read (t.route command).1) (t.afterRead store (t.route command).2)

/-- What follows the read in a handler that is written out. -/
theorem eq_afterRead (t : WriteThrough A C) {store : S} {command : A.Command}
    {next : Except (Esrc.Error U) (Root A) → Prog (StoreSig A) (S × Except (Esrc.Error U) ByteArray)}
    (unread : ∀ e, next (.error e) = .ret (store, .error e))
    (written : ∀ root, next (.ok root) = .call (.tryWrite root command) (t.afterWrite store)) :
    next = t.afterRead store command := by
  funext r
  cases r with
  | error e => exact unread e
  | ok root => exact written root

/-- The bytes of a reply with an id. -/
def success (id : Uuid) : ByteArray :=
  TextFormat.print (.object [("success", .bool true), ("data", .string (Uuid.Text.write id)), ("error", .null)])

/-- The bytes of a reply with an error. -/
def failure (e : Error) : ByteArray :=
  TextFormat.print (.object [("success", .bool false), ("data", .null), ("error", e.encode)])

theorem toVec_okWith (id : Uuid) : toVec (ServiceCommandReply.okWith id) = .ok (success id) := rfl

theorem toVec_err (e : Error) : toVec (ServiceCommandReply.err e : ServiceCommandReply Uuid) =
    .ok (failure e) := rfl

theorem afterWrite_ok (t : WriteThrough A C) (store : S) (written : Root A) :
    t.afterWrite store (.ok written) = .ret (store, .ok (success written.id)) := rfl

theorem afterWrite_error (t : WriteThrough A C) (store : S) (e : Esrc.Error U) :
    t.afterWrite store (.error e) = .ret (store, .ok (failure (t.convert e))) := rfl

theorem dispatchServiceCommand_success [Serialize C] {request : Transport} {serviceName name : String}
    {command : C} {payload : ByteArray} {id : Uuid} (written : toVec command = .ok payload)
    (delivered : request (commandSubject serviceName name) payload = .ok (success id)) :
    dispatchServiceCommand Uuid request serviceName name command = .ok id := by
  rw [dispatchServiceCommand_okWith written (toVec_okWith id) delivered rfl (Uuid.fromValue_uuid id)
    (ServiceCommandReply.legible_okWith rfl (by decide : 0 < 127))]
  exact if_neg nofun

variable [ToString (Esrc.Error U)]

/-- What the store's answers make of a command, for its caller. -/
def outcome (t : WriteThrough A C) (answer : StoreOp A → Except (Esrc.Error U) (Root A)) (command : C) :
    Except Error Uuid :=
  match answer (.read (t.route command).1) with
  | .error e => .error (.internal (toString e))
  | .ok root =>
      match answer (.tryWrite root (t.route command).2) with
      | .ok written => .ok written.id
      | .error e => .error (t.convert e)

variable [Serialize C] [Deserialize C]

/-- The endpoint of such a handler. -/
def service (t : WriteThrough A C) (S : Type) (name : String) : Service (StoreSig A) S (HandlerResult U) :=
  NatsCommandDispatcher.service (ServiceCommandHandler.new t.handle name).toHandler

variable {request : Transport} {serviceName name : String} {store : S}
  {answer : (op : StoreOp A) → Except (Esrc.Error U) (Root A)}

/-- The caller of a service command gets what the store made of it. -/
theorem dispatched (t : WriteThrough A C)
    (delivers : AnsweredBy request (commandSubject serviceName name) (t.service S name) store answer)
    {command : C} (asked : ReadsBack command)
    (told : ∀ root e, answer (.read (t.route command).1) = .ok root →
      answer (.tryWrite root (t.route command).2) = .error e →
      Legible (ServiceCommandReply Uuid) (ServiceCommandReply.err (t.convert e) : ServiceCommandReply Uuid)) :
    dispatchServiceCommand Uuid request serviceName name command = t.outcome answer command := by
  obtain ⟨payload, written, decoded⟩ := asked
  have handled : ((t.service S name).handle store payload).eval answer =
      (t.afterRead store (t.route command).2 (answer (.read (t.route command).1))).eval answer := by
    change ((ServiceCommandHandler.new t.handle name).handle store payload).eval answer = _
    rw [ServiceCommandHandler.handle_decoded _ store decoded]
    rfl
  unfold outcome
  cases read : answer (.read (t.route command).1) with
  | error e =>
      rw [read] at handled
      exact dispatchServiceCommand_err written (delivers _ _ _ handled)
        (NatsCommandDispatcher.fromSlice_body_as_service e)
  | ok root =>
      simp only [read, afterRead, Prog.eval] at handled
      simp only []
      cases result : answer (.tryWrite root (t.route command).2) with
      | ok root' =>
          rw [result, afterWrite_ok] at handled
          exact dispatchServiceCommand_success written (delivers _ _ _ handled)
      | error e =>
          rw [result, afterWrite_error] at handled
          exact dispatchServiceCommand_err written (delivers _ _ _ handled)
            (ServiceCommandReply.fromSlice_err (toVec_err (t.convert e)) (told root e read result))

end WriteThrough

section Comparison
variable [ToString (Esrc.Error U)] [Serialize A.Command] [Deserialize A.Command] [Serialize A.Error]
  {request : Transport} {serviceName name : String} {store : S}
  {answer : (op : StoreOp A) → Except (Esrc.Error U) (Root A)}

/-- What the same answers make of a command to the aggregate's own endpoint. -/
def AggregateCommandHandler.outcome (answer : StoreOp A → Except (Esrc.Error U) (Root A)) (id : Uuid)
    (command : A.Command) : Outcome (Except Error Uuid) :=
  match answer (.read id) with
  | .error e => .value (.error (.internal (toString e)))
  | .ok root =>
      match answer (.tryWrite root command) with
      | .ok written => .value (.ok written.id)
      | .error e => (convertEsrcError A e).map .error

theorem AggregateCommandHandler.dispatched
    (delivers : AnsweredBy request (commandSubject serviceName name) (aggregateService A S name) store answer)
    {id : Uuid} {command : A.Command} (asked : ReadsBack (CommandEnvelope.mk id command))
    (told : ∀ root e, answer (.read id) = .ok root → answer (.tryWrite root command) = .error e →
      LegibleError A id e)
    {result : Except Error Uuid} (came : AggregateCommandHandler.outcome answer id command = .value result) :
    dispatchCommand request serviceName name id command = result := by
  obtain ⟨payload, written, decoded⟩ := asked
  have handled : ((aggregateService A S name).handle store payload).eval answer =
      (AggregateCommandHandler.afterRead store ⟨id, command⟩ (answer (.read id))).eval answer := by
    change (AggregateCommandHandler.handle store payload).eval answer = _
    rw [AggregateCommandHandler.handle_decoded store decoded]
    rfl
  unfold AggregateCommandHandler.outcome at came
  cases read : answer (.read id) with
  | error e =>
      rw [read] at handled came
      cases came
      exact dispatchCommand_of_reply
        (sendCommand_delivered (NatsCommandDispatcher.failure e)
          (CommandReply.legible (by decide : 1 < 127)) written (delivers _ _ _ handled))
  | ok root =>
      simp only [read, AggregateCommandHandler.afterRead, Prog.eval] at handled came
      cases wrote : answer (.tryWrite root command) with
      | ok root' =>
          rw [wrote, AggregateCommandHandler.afterWrite_ok] at handled
          rw [wrote] at came
          cases came
          exact dispatchCommand_of_reply
            (sendCommand_delivered ⟨root'.id, true, none⟩
              (CommandReply.legible (by decide : 0 < 127)) written (delivers _ _ _ handled))
      | error e =>
          rw [wrote, AggregateCommandHandler.afterWrite_error] at handled
          simp only [wrote] at came
          cases converted : convertEsrcError A e with
          | value err =>
              rw [converted] at handled came
              cases came
              exact dispatchCommand_of_reply
                (sendCommand_delivered _ ((told root e read wrote).reply converted) written
                  (delivers _ _ _ handled))
          | panicked message =>
              rw [converted] at came
              cases came

variable {C : Type} [Serialize C] [Deserialize C] {request' : Transport} {serviceName' name' : String}

/-- A command gets its caller the same over a service as over the aggregate's own endpoint, exactly
when the service converts an error of the write as the aggregate's handler does; as long as the text
format carries the commands and the replies. -/
theorem service_agrees_with_aggregate_iff (t : WriteThrough A C)
    (delivers : AnsweredBy request (commandSubject serviceName name) (t.service S name) store answer)
    (delivers' : AnsweredBy request' (commandSubject serviceName' name') (aggregateService A S name')
      store answer)
    {command : C} (asked : ReadsBack command)
    (asked' : ReadsBack (CommandEnvelope.mk (t.route command).1 (t.route command).2))
    (told : ∀ root e, answer (.read (t.route command).1) = .ok root →
      answer (.tryWrite root (t.route command).2) = .error e →
      Legible (ServiceCommandReply Uuid) (ServiceCommandReply.err (t.convert e) : ServiceCommandReply Uuid) ∧
        LegibleError A (t.route command).1 e)
    {result : Except Error Uuid}
    (came : AggregateCommandHandler.outcome answer (t.route command).1 (t.route command).2 = .value result) :
    dispatchServiceCommand Uuid request serviceName name command =
        dispatchCommand request' serviceName' name' (t.route command).1 (t.route command).2 ↔
      ∀ root e, answer (.read (t.route command).1) = .ok root →
        answer (.tryWrite root (t.route command).2) = .error e →
        convertEsrcError A e = .value (t.convert e) := by
  rw [t.dispatched delivers asked fun root e found failed => (told root e found failed).1,
    AggregateCommandHandler.dispatched delivers' asked' (fun root e found failed =>
      (told root e found failed).2) came]
  unfold WriteThrough.outcome
  unfold AggregateCommandHandler.outcome at came
  cases read : answer (.read (t.route command).1) with
  | error e =>
      rw [read] at came
      cases came
      exact iff_of_true rfl nofun
  | ok root =>
      simp only [read] at came
      simp only []
      cases wrote : answer (.tryWrite root (t.route command).2) with
      | ok root' =>
          rw [wrote] at came
          cases came
          refine iff_of_true rfl fun root'' e same failed => ?_
          cases same
          cases wrote.symm.trans failed
      | error e =>
          simp only [wrote] at came
          cases converted : convertEsrcError A e with
          | panicked message =>
              rw [converted] at came
              cases came
          | value err =>
              rw [converted] at came
              cases came
              constructor
              · intro same root' e' found failed
                cases found
                cases wrote.symm.trans failed
                rw [converted, Except.error.inj same]
              · intro same
                have equal := converted.symm.trans (same root e rfl wrote)
                rw [Outcome.value.inj equal]

end Comparison

section Endpoints
variable [Deserialize A.Command] [Serialize A.Error]

/-- An endpoint that takes commands for the streams of an aggregate. -/
inductive CommandEndpoint {U : ErrorTypes} (A : Aggregate U) where
  | aggregate (name : String)
  | service (C : Type) (decode : Deserialize C) (through : WriteThrough A C) (name : String)

namespace CommandEndpoint

def toHandler (S : Type) : CommandEndpoint A → CommandHandler (StoreSig A) S (Esrc.Error U)
  | .aggregate name => (AggregateCommandHandler.new name : AggregateCommandHandler A).toHandler S
  | .service _ _ through name => (ServiceCommandHandler.new through.handle name).toHandler

variable [ToString (Esrc.Error U)]

def serve (S : Type) : CommandEndpoint A → Service (StoreSig A) S (HandlerResult U)
  | .aggregate name => aggregateService A S name
  | .service _ _ through name => through.service S name

theorem serve_eq (k : CommandEndpoint A) : k.serve S = NatsCommandDispatcher.service (k.toHandler S) := by
  cases k <;> rfl

end CommandEndpoint
end Endpoints
end WriteThroughs

namespace Cafe
variable [TextFormat] [Uuid.Text]

/-- The arms of the service's match. -/
def route : CafeCommands → Uuid × OrderCommand
  | .placeOrder id item quantity => (id, .placeOrder item quantity)
  | .completeOrder id => (id, .completeOrder)

def through : WriteThrough order CafeCommands := ⟨route, fromEsrcError⟩

theorem write_eq_through {S : Type} (store : S) (id : Uuid) (command : OrderCommand) :
    CafeServiceHandler.write store id command = .call (.read id) (through.afterRead store command) := by
  refine congrArg (Prog.call (F := StoreSig order) (.read id)) (through.eq_afterRead (fun e => rfl) ?_)
  refine fun root => congrArg (Prog.call (F := StoreSig order) (.tryWrite root command)) (funext fun result => ?_)
  cases result <;> rfl

theorem handle_eq_through {S : Type} : CafeServiceHandler.handle (S := S) = through.handle := by
  funext store command
  cases command with
  | placeOrder id item quantity => exact write_eq_through store id _
  | completeOrder id => exact write_eq_through store id _

end Cafe

namespace Counter

section Commands
variable [Uuid.Text]

inductive CounterServiceCommand where
  | increment (id : Uuid) (amount : Int)
  | decrement (id : Uuid) (amount : Int)
  | alwaysFail (id : Uuid)

instance : Serialize CounterServiceCommand where
  toValue
    | .increment id n => do
        return .object [("Increment", .object [("id", ← toValue id), ("by", ← toValue n)])]
    | .decrement id n => do
        return .object [("Decrement", .object [("id", ← toValue id), ("by", ← toValue n)])]
    | .alwaysFail id => do return .object [("AlwaysFail", .object [("id", ← toValue id)])]

/-- The fields of a variant that moves the counter. -/
def readMove (v : Value) : Except Json.Error (Uuid × Int) := do
  let id ← required Uuid ["id", "by"] "id" v
  let by' ← required Int ["id", "by"] "by" v
  return (id, by')

instance : Deserialize CounterServiceCommand where
  fromValue
    | .object [("Increment", v)] => (readMove v).map fun (id, n) => .increment id n
    | .object [("Decrement", v)] => (readMove v).map fun (id, n) => .decrement id n
    | .object [("AlwaysFail", v)] => do return .alwaysFail (← required Uuid ["id"] "id" v)
    | .string other => .error (.unknownVariant other)
    | .object [(other, _)] => .error (.unknownVariant other)
    | _ => .error .invalidType

theorem readMove_written (id : Uuid) (n : Int) :
    readMove (.object [("id", .string (Uuid.Text.write id)), ("by", .number ⟨n, 0⟩)]) = .ok (id, n) := by
  change (fromValue (.string (Uuid.Text.write id)) >>= fun i => Except.ok (i, n)) = _
  rw [Uuid.fromValue_uuid]
  rfl

theorem serviceCommand_roundTrips (c : CounterServiceCommand) : RoundTrips c := by
  cases c with
  | increment id n =>
      refine ⟨.object [("Increment", .object [("id", .string (Uuid.Text.write id)), ("by", .number ⟨n, 0⟩)])],
        rfl, ?_⟩
      change (readMove _).map _ = _
      rw [readMove_written]
      rfl
  | decrement id n =>
      refine ⟨.object [("Decrement", .object [("id", .string (Uuid.Text.write id)), ("by", .number ⟨n, 0⟩)])],
        rfl, ?_⟩
      change (readMove _).map _ = _
      rw [readMove_written]
      rfl
  | alwaysFail id =>
      refine ⟨.object [("AlwaysFail", .object [("id", .string (Uuid.Text.write id))])], rfl, ?_⟩
      change (fromValue (.string (Uuid.Text.write id)) >>= fun i =>
        Except.ok (CounterServiceCommand.alwaysFail i)) = _
      rw [Uuid.fromValue_uuid]
      rfl

theorem serviceCommand_readsBack [TextFormat] (c : CounterServiceCommand) : ReadsBack c := by
  refine (serviceCommand_roundTrips c).readsBack ?_
  cases c with
  | increment id n => exact legible_of_depth rfl (by decide : 2 < 128)
  | decrement id n => exact legible_of_depth rfl (by decide : 2 < 128)
  | alwaysFail id => exact legible_of_depth rfl (by decide : 2 < 128)

end Commands

section Handlers
variable [TextFormat]

/-- `esrc_to_cqrs` of the tests: a domain error crosses as its own encoding. -/
def esrcToCqrs : Esrc.Error errors → Error
  | .internal e => .internal e.toText
  | .external e =>
      match e.downcast aggregate.errorId with
      | some x => .external ((toValue x).toOption.getD (.string "serialization failed"))
      | none => .external (.string e.toText)
  | .format e => .format e.toText
  | .invalid => .invalid
  | .conflict => .conflict

/-- The conversion of the tests is that of the aggregate's handler, which never unwinds on a counter. -/
theorem convertEsrcError_eq_esrcToCqrs (e : Esrc.Error errors) :
    convertEsrcError aggregate e = .value (esrcToCqrs e) := by
  cases e with
  | external b =>
      simp only [convertEsrcError, esrcToCqrs]
      cases b.downcast aggregate.errorId with
      | none => rfl
      | some x => rfl
  | internal | format | invalid | conflict => rfl

variable [Uuid.Text]

namespace CounterServiceHandler

/-- What each arm of `handle` makes of the outcome of its write. -/
def reply : Except (Esrc.Error errors) (Root aggregate) → ServiceCommandReply Uuid
  | .ok written => .okWith written.id
  | .error e => .err (esrcToCqrs e)

/-- Each arm of `handle`: a read, which may end it, and a write. -/
def write {S : Type} (store : S) (id : Uuid) (command : CounterCommand) :
    Prog (StoreSig aggregate) (S × Except (Esrc.Error errors) ByteArray) :=
  .call (.read id) fun
    | .error e => .ret (store, .error e)
    | .ok root => .call (.tryWrite root command) fun result =>
        .ret (store, (toVec (reply result)).mapError fun e => .format (.json e))

def handle {S : Type} : EsrcCommandHandler errors (StoreSig aggregate) S CounterServiceCommand
  | store, .increment id n => write store id (.increment n)
  | store, .decrement id n => write store id (.decrement n)
  | store, .alwaysFail id => write store id .alwaysFail

/-- The arms of its match. -/
def route : CounterServiceCommand → Uuid × CounterCommand
  | .increment id n => (id, .increment n)
  | .decrement id n => (id, .decrement n)
  | .alwaysFail id => (id, .alwaysFail)

def through : WriteThrough aggregate CounterServiceCommand := ⟨route, esrcToCqrs⟩

theorem write_eq_through {S : Type} (store : S) (id : Uuid) (command : CounterCommand) :
    write store id command = .call (.read id) (through.afterRead store command) := by
  refine congrArg (Prog.call (F := StoreSig aggregate) (.read id)) (through.eq_afterRead (fun e => rfl) ?_)
  refine fun root => congrArg (Prog.call (F := StoreSig aggregate) (.tryWrite root command))
    (funext fun result => ?_)
  cases result <;> rfl

theorem handle_eq_through {S : Type} : handle (S := S) = through.handle := by
  funext store command
  cases command with
  | increment id n => exact write_eq_through store id _
  | decrement id n => exact write_eq_through store id _
  | alwaysFail id => exact write_eq_through store id _

end CounterServiceHandler
end Handlers
end Counter

section Counters
open Counter

/-- A domain error of the counter is told alike over both. -/
theorem service_agrees_with_aggregate_iff_counter : ∃ request request' : Transport,
    dispatchServiceCommand Uuid request "svc" "CounterService" (CounterServiceCommand.alwaysFail Uuid.nil) =
      dispatchCommand request' "svc" "Counter" Uuid.nil CounterCommand.alwaysFail := by
  let answer : StoreOp aggregate → Except (Esrc.Error errors) (Root aggregate) :=
    fun op => (StoreOp.answer op []).1
  have delivers := answeredBy_loopback (commandSubject "svc" "CounterService")
    (CounterServiceHandler.through.service Unit "CounterService") () answer
  have delivers' := answeredBy_loopback (commandSubject "svc" "Counter")
    (aggregateService aggregate Unit "Counter") () answer
  have came : AggregateCommandHandler.outcome answer Uuid.nil CounterCommand.alwaysFail =
      .value (.error (.external (.string "ForcedFailure"))) := rfl
  have told : ∀ root e, answer (.read Uuid.nil) = .ok root →
      answer (.tryWrite root .alwaysFail) = .error e →
      Legible (ServiceCommandReply Uuid) (ServiceCommandReply.err (esrcToCqrs e) : ServiceCommandReply Uuid) ∧
        LegibleError aggregate Uuid.nil e := by
    intro root e _ failed
    cases failed
    refine ⟨ServiceCommandReply.legible_err (by decide : 1 < 127), ?_⟩
    rintro x v - encoded
    cases encoded
    exact CommandReply.legible (by decide : 1 < 127)
  exact ⟨_, _, (service_agrees_with_aggregate_iff CounterServiceHandler.through delivers delivers'
    (serviceCommand_readsBack (.alwaysFail Uuid.nil)) (envelope_readsBack Uuid.nil .alwaysFail) told came).mpr
    fun _ e _ _ => convertEsrcError_eq_esrcToCqrs e⟩

end Counters
end EsrcCqrs
