import EsrcCqrs.Client
import EsrcCqrs.CounterDomain

/-! Failures on their way to the caller: those of `try_write`, which the aggregate handler
converts itself, and those of a handler's future, which the dispatchers convert. -/

namespace EsrcCqrs
open Json Interaction RequestLoop CqrsClient

section Replies
variable [TextFormat] {C : Type} [Serialize C] {request : Transport} {serviceName handlerName : String}
  {command : C} {payload : ByteArray}

/-- A failure that the caller of a service command reads is the error it gets. -/
theorem dispatchServiceCommand_err {R : Type} [Deserialize R] {x : Error}
    {bytes : ByteArray} (written : toVec command = .ok payload)
    (delivered : request (commandSubject serviceName handlerName) payload = .ok bytes)
    (read : fromSlice (ServiceCommandReply R) bytes = .ok (.err x)) :
    dispatchServiceCommand R request serviceName handlerName command = .error x := by
  unfold dispatchServiceCommand sendServiceCommand
  rw [exchange_delivered written delivered, read]
  rfl

/-- A reply that is not read is a format error of the caller's own. -/
theorem dispatchServiceCommand_unread {R : Type} [Deserialize R] {e : Json.Error} {bytes : ByteArray}
    (written : toVec command = .ok payload)
    (delivered : request (commandSubject serviceName handlerName) payload = .ok bytes)
    (unread : fromSlice (ServiceCommandReply R) bytes = .error e) :
    dispatchServiceCommand R request serviceName handlerName command = .error (formatError e) := by
  unfold dispatchServiceCommand sendServiceCommand
  rw [exchange_delivered written delivered, unread]
  rfl

variable [Uuid.Text] {id : Uuid}

theorem sendCommand_delivered (reply : CommandReply)
    (legible : TextFormat.tooDeep CommandReply reply.encode = false)
    (written : toVec (CommandEnvelope.mk id command) = .ok payload)
    (delivered : request (commandSubject serviceName handlerName) payload =
      .ok (TextFormat.print reply.encode)) :
    sendCommand request serviceName handlerName id command = .ok reply := by
  rw [sendCommand, exchange_delivered written delivered, CommandReply.fromSlice_encode legible]
  rfl

theorem dispatchCommand_of_reply {reply : CommandReply}
    (sent : sendCommand request serviceName handlerName id command = .ok reply) :
    dispatchCommand request serviceName handlerName id command =
      if reply.success then .ok reply.id
      else .error (reply.error.getD (.internal "command failed but no error present")) := by
  rw [dispatchCommand, sent]
  rfl

end Replies

section Outcomes
variable {U : ErrorTypes} [TextFormat] {A : Aggregate U} [Deserialize A.Error]

/-- The caller's error for an error of `try_write`: the same variant, the same text, and a
domain error that comes back as itself. -/
def Mirrors : Esrc.Error U → Error → Prop
  | .internal b, err => err = .internal b.toText
  | .external b, err => ∃ x : A.Error, b = .typed A.errorId x ∧ err.kind = .external ∧
      err.downcastExternal A.Error = .value (some x)
  | .format b, err => err = .format b.toText
  | .invalid, err => err = .invalid
  | .conflict, err => err = .conflict

/-- The conversion of an error that `try_write` can return. -/
theorem convertEsrcError_mirrors [Serialize A.Error] (errors : ∀ x : A.Error, RoundTrips x)
    {e : Esrc.Error U}
    (boxed : ∀ b, e = .external b → ∃ x : A.Error, b = .typed A.errorId x) :
    ∃ err, convertEsrcError A e = .value err ∧ Mirrors (A := A) e err ∧
      (err.kind ≠ .external → err.downcastExternal A.Error = .value none) := by
  cases e with
  | internal b => exact ⟨_, rfl, rfl, Error.downcastExternal_other A.Error⟩
  | external b =>
      obtain ⟨x, rfl⟩ := boxed b rfl
      obtain ⟨v, written, back⟩ := errors x
      exact ⟨_, convertEsrcError_typed written, ⟨x, rfl, rfl, Error.downcastExternal_external back⟩,
        Error.downcastExternal_other A.Error⟩
  | format b => exact ⟨_, rfl, rfl, Error.downcastExternal_other A.Error⟩
  | invalid => exact ⟨_, rfl, rfl, Error.downcastExternal_other A.Error⟩
  | conflict => exact ⟨_, rfl, rfl, Error.downcastExternal_other A.Error⟩

variable [Uuid.Text] [Serialize A.Command]

/-- What a caller of an aggregate command learns of the outcome of `try_write`. -/
structure OutcomeReaches (request : Transport) (serviceName handlerName : String) (id : Uuid)
    (command : A.Command) (result : Except (Esrc.Error U) (Root A)) : Prop where
  replied : ∃ reply, sendCommand request serviceName handlerName id command = .ok reply ∧
    (reply.success = false → reply.error.isSome)
  success : dispatchCommand request serviceName handlerName id command = .ok id ↔
    ∃ written, result = .ok written
  failure : ∀ e, result = .error e →
    ∃ err, dispatchCommand request serviceName handlerName id command = .error err ∧
      Mirrors (A := A) e err ∧ (err.kind ≠ .external → err.downcastExternal A.Error = .value none)

/-- A stored command, once its reply has arrived. -/
theorem OutcomeReaches.of_ok {request : Transport} {serviceName handlerName : String} {id : Uuid}
    {command : A.Command} {root : Root A}
    (sent : sendCommand request serviceName handlerName id command = .ok ⟨id, true, none⟩) :
    OutcomeReaches request serviceName handlerName id command (.ok root) := by
  refine ⟨⟨_, sent, nofun⟩, ?_, nofun⟩
  rw [dispatchCommand_of_reply sent]
  exact iff_of_true rfl ⟨root, rfl⟩

/-- A refused one. -/
theorem OutcomeReaches.of_error {request : Transport} {serviceName handlerName : String} {id : Uuid}
    {command : A.Command} {e : Esrc.Error U} {err : Error}
    (sent : sendCommand request serviceName handlerName id command = .ok ⟨id, false, some err⟩)
    (mirrors : Mirrors (A := A) e err)
    (other : err.kind ≠ .external → err.downcastExternal A.Error = .value none) :
    OutcomeReaches request serviceName handlerName id command (.error e) := by
  refine ⟨⟨_, sent, fun _ => rfl⟩, ?_, ?_⟩
  · rw [dispatchCommand_of_reply sent]
    exact iff_of_false nofun nofun
  · intro e' same
    cases same
    exact ⟨err, dispatchCommand_of_reply sent, mirrors, other⟩

variable [ToString (Esrc.Error U)] [Serialize A.Error] [Deserialize A.Command] {S : Type}

/-- The outcome of `try_write`, whatever it is, reaches the caller of an aggregate command, as long
as the text format carries the command and the domain error. -/
theorem command_outcome_reaches_caller (commands : ∀ c : A.Command, RoundTrips c)
    (errors : ∀ x : A.Error, RoundTrips x) {request : Transport} {serviceName handlerName : String}
    {store : S} {answer : (op : StoreOp A) → Except (Esrc.Error U) (Root A)}
    (delivers : AnsweredBy request (commandSubject serviceName handlerName)
      (aggregateService A S handlerName) store answer)
    {id : Uuid} {command : A.Command} {root : Root A} (read : answer (.read id) = .ok root)
    (keepsId : ∀ written, answer (.tryWrite root command) = .ok written → written.id = id)
    (boxed : ∀ b, answer (.tryWrite root command) = .error (.external b) →
      ∃ x : A.Error, b = .typed A.errorId x)
    (asked : Legible (CommandEnvelope A.Command) (CommandEnvelope.mk id command))
    (told : ∀ e, answer (.tryWrite root command) = .error e → LegibleError A id e) :
    OutcomeReaches request serviceName handlerName id command (answer (.tryWrite root command)) := by
  obtain ⟨payload, written, decoded⟩ :=
    (CommandEnvelope.roundTrips id (commands command)).readsBack asked
  have handled : ((aggregateService A S handlerName).handle store payload).eval answer =
      (AggregateCommandHandler.afterWrite store id (answer (.tryWrite root command))).eval answer := by
    change (AggregateCommandHandler.handle store payload).eval answer = _
    rw [AggregateCommandHandler.handle_decoded store decoded]
    simp only [Prog.eval, read, AggregateCommandHandler.afterRead]
  cases result : answer (.tryWrite root command) with
  | ok root' =>
      rw [result, AggregateCommandHandler.afterWrite_ok, keepsId root' result] at handled
      exact .of_ok (sendCommand_delivered ⟨id, true, none⟩ (CommandReply.legible (by decide : 0 < 127)) written
        (delivers _ _ _ handled))
  | error e =>
      obtain ⟨err, converted, mirrors, other⟩ := convertEsrcError_mirrors errors
        fun b external => boxed b (result.trans (congrArg _ external))
      rw [result, AggregateCommandHandler.afterWrite_error, converted] at handled
      exact .of_error (sendCommand_delivered _ ((told e result).reply converted) written
        (delivers _ _ _ handled)) mirrors other

end Outcomes

open Counter in
/-- A rejected command comes back as the counter's own error. -/
theorem command_outcome_reaches_caller_counter : ∃ request : Transport,
    OutcomeReaches (A := aggregate) request "svc" "Counter" Uuid.nil .alwaysFail
      (.error (.external (.typed () .forcedFailure))) := by
  have delivers := answeredBy_loopback (commandSubject "svc" "Counter")
    (aggregateService aggregate Unit "Counter") () (fun op => (StoreOp.answer op []).1)
  have read : (StoreOp.answer (A := aggregate) (.read Uuid.nil) []).1 =
      .ok (Root.ofLog [] Uuid.nil) := rfl
  refine ⟨_, command_outcome_reaches_caller command_roundTrips error_roundTrips delivers read
    nofun ?_ (CommandEnvelope.legible Uuid.nil rfl (by decide : 0 < 127)) ?_⟩
  · intro b boxed
    cases boxed
    exact ⟨.forcedFailure, rfl⟩
  · intro e refused
    cases refused
    rintro x v - encoded
    cases encoded
    exact CommandReply.legible (by decide : 1 < 127)

theorem kind_survives_iff {T : Type} {result : Except Error T} {text : String}
    (h : result = .error (.internal text)) (kind : ErrorKind) :
    (∃ err, result = .error err ∧ err.kind = kind) ↔ kind = .internal := by
  subst h
  constructor
  · rintro ⟨err, same, rfl⟩
    cases same
    rfl
  · rintro rfl
    exact ⟨_, rfl, rfl⟩

section Dispatched
variable {U : ErrorTypes} [TextFormat] [Uuid.Text] [ToString (Esrc.Error U)] {F : Signature} {S : Type}
  {request : Transport} {serviceName : String} {store store' : S} {answer : (op : F.Op) → F.Ret op}
  {payload : ByteArray} {e : Esrc.Error U}

/-- An error of a command handler's future, seen by the caller of an aggregate command. -/
theorem dispatchCommand_failed {C : Type} [Serialize C] {handler : CommandHandler F S (Esrc.Error U)}
    (delivers : AnsweredBy request (commandSubject serviceName handler.name)
      (NatsCommandDispatcher.service handler) store answer) {id : Uuid} {command : C}
    (written : toVec (CommandEnvelope.mk id command) = .ok payload)
    (failed : (handler.handle store payload).eval answer = .value (store', .error e)) :
    dispatchCommand request serviceName handler.name id command = .error (.internal (toString e)) :=
  dispatchCommand_of_reply
    (sendCommand_delivered (NatsCommandDispatcher.failure e)
      (CommandReply.legible (by decide : 1 < 127)) written (delivers _ _ _ failed))

/-- The same, seen by the caller of a service command, whatever it expects. -/
theorem dispatchServiceCommand_failed {C R : Type} [Serialize C] [Deserialize R]
    {handler : CommandHandler F S (Esrc.Error U)}
    (delivers : AnsweredBy request (commandSubject serviceName handler.name)
      (NatsCommandDispatcher.service handler) store answer) {command : C}
    (written : toVec command = .ok payload)
    (failed : (handler.handle store payload).eval answer = .value (store', .error e)) :
    dispatchServiceCommand R request serviceName handler.name command =
      .error (.internal (toString e)) :=
  dispatchServiceCommand_err written (delivers _ _ _ failed)
    (NatsCommandDispatcher.fromSlice_body_as_service e)

/-- An error of a query handler's future. -/
theorem dispatchQuery_failed {R : Type} [Deserialize R] {handler : QueryHandler F S (Esrc.Error U)}
    (delivers : AnsweredBy request (querySubject serviceName handler.name)
      (NatsQueryDispatcher.service handler) store answer) {id : Uuid}
    (written : toVec (QueryEnvelope.mk id) = .ok payload)
    (failed : (handler.handle store payload).eval answer = .value (.error e)) :
    dispatchQuery R request serviceName handler.name id = .error (.internal (toString e)) := by
  have delivered := delivers _ _ _ (NatsQueryDispatcher.eval_service handler failed)
  change request _ _ = .ok (NatsQueryDispatcher.body (.error e)) at delivered
  unfold dispatchQuery sendQuery
  rw [exchange_delivered written delivered, NatsQueryDispatcher.fromSlice_body_error]
  rfl

/-- An error of a handler's future keeps its kind through a dispatcher exactly when it is
internal; and exactly then does it agree with the conversion of `try_write`'s errors. -/
theorem error_kind_survives_dispatch (e : Esrc.Error U) :
    (∀ {C : Type} [Serialize C] (handler : CommandHandler F S (Esrc.Error U)) (id : Uuid) (command : C),
      AnsweredBy request (commandSubject serviceName handler.name)
        (NatsCommandDispatcher.service handler) store answer →
      toVec (CommandEnvelope.mk id command) = .ok payload →
      (handler.handle store payload).eval answer = .value (store', .error e) →
      ((∃ err, dispatchCommand request serviceName handler.name id command = .error err ∧
        err.kind = e.kind) ↔ e.kind = .internal)) ∧
    (∀ {C R : Type} [Serialize C] [Deserialize R] (handler : CommandHandler F S (Esrc.Error U))
      (command : C),
      AnsweredBy request (commandSubject serviceName handler.name)
        (NatsCommandDispatcher.service handler) store answer →
      toVec command = .ok payload →
      (handler.handle store payload).eval answer = .value (store', .error e) →
      ((∃ err, dispatchServiceCommand R request serviceName handler.name command = .error err ∧
        err.kind = e.kind) ↔ e.kind = .internal)) ∧
    (∀ {R : Type} [Deserialize R] (handler : QueryHandler F S (Esrc.Error U)) (id : Uuid),
      AnsweredBy request (querySubject serviceName handler.name)
        (NatsQueryDispatcher.service handler) store answer →
      toVec (QueryEnvelope.mk id) = .ok payload →
      (handler.handle store payload).eval answer = .value (.error e) →
      ((∃ err, dispatchQuery R request serviceName handler.name id = .error err ∧
        err.kind = e.kind) ↔ e.kind = .internal)) ∧
    (∀ (A : Aggregate U) [Serialize A.Error] (err : Error), convertEsrcError A e = .value err →
      ((NatsCommandDispatcher.failure e).error.map Error.kind = some err.kind ↔ e.kind = .internal)) := by
  refine ⟨?_, ?_, ?_, ?_⟩
  · intro C _ handler id command delivers written failed
    exact kind_survives_iff (dispatchCommand_failed delivers written failed) e.kind
  · intro C R _ _ handler command delivers written failed
    exact kind_survives_iff (dispatchServiceCommand_failed delivers written failed) e.kind
  · intro R _ handler id delivers written failed
    exact kind_survives_iff (dispatchQuery_failed delivers written failed) e.kind
  · intro A _ err converted
    rw [convertEsrcError_kind converted]
    constructor
    · intro same
      exact (Option.some.inj same).symm
    · intro internal
      rw [internal]
      rfl

end Dispatched

section Counters
open Counter

/-- A request to the counter with a command that it cannot read. -/
theorem unreadable_command : ∃ payload place,
    toVec (CommandEnvelope.mk Uuid.nil "Reset") = .ok payload ∧
    (((AggregateCommandHandler.new "Counter" : AggregateCommandHandler aggregate).toHandler Unit).handle
      () payload).eval (fun op => (StoreOp.answer op []).1) =
        .value ((), .error (.format (.json (.located (.unknownVariant "Reset") place)))) := by
  have written : toValue "Reset" = .ok (.string "Reset") := rfl
  have unknown : fromValue (α := aggregate.Command) (.string "Reset") =
      .error (.unknownVariant "Reset") := rfl
  obtain ⟨payload, written, failed⟩ :=
    CommandEnvelope.fromSlice_mismatch Uuid.nil written unknown (by decide : 0 < 127)
  refine ⟨payload, TextFormat.place (CommandEnvelope aggregate.Command) payload, written, ?_⟩
  change (AggregateCommandHandler.handle (A := aggregate) () payload).eval _ = _
  rw [AggregateCommandHandler.handle_malformed () failed]
  rfl

/-- The handler returns a format error and its caller is told of an internal one. -/
theorem unreadable_command_reported_internal :
    ∃ (handler : CommandHandler (StoreSig aggregate) Unit (Esrc.Error errors)) (request : Transport)
      (payload : ByteArray) (answer : StoreOp aggregate → Except (Esrc.Error errors) (Root aggregate))
      (e : Esrc.Error errors) (err : Error),
      AnsweredBy request (commandSubject "svc" handler.name) (NatsCommandDispatcher.service handler) ()
        answer ∧
      toVec (CommandEnvelope.mk Uuid.nil "Reset") = .ok payload ∧
      (handler.handle () payload).eval answer = .value ((), .error e) ∧
      dispatchCommand request "svc" handler.name Uuid.nil "Reset" = .error err ∧
      e.kind = .format ∧ err.kind = .internal := by
  obtain ⟨payload, place, written, failed⟩ := unreadable_command
  have delivers := answeredBy_loopback (commandSubject "svc" "Counter")
    (NatsCommandDispatcher.service
      ((AggregateCommandHandler.new "Counter" : AggregateCommandHandler aggregate).toHandler Unit)) ()
    (fun op => (StoreOp.answer op []).1)
  exact ⟨_, _, payload, _, _, _, delivers, written, failed,
    dispatchCommand_failed delivers written failed, rfl, rfl⟩

theorem error_kind_survives_dispatch_counter :
    ∃ (request : Transport) (e : Esrc.Error errors),
      ¬ ∃ err, dispatchCommand request "svc" "Counter" Uuid.nil "Reset" = .error err ∧
        err.kind = e.kind := by
  obtain ⟨payload, place, written, failed⟩ := unreadable_command
  have delivers := answeredBy_loopback (commandSubject "svc" "Counter")
    (NatsCommandDispatcher.service
      ((AggregateCommandHandler.new "Counter" : AggregateCommandHandler aggregate).toHandler Unit)) ()
    (fun op => (StoreOp.answer op []).1)
  have kept_iff := (error_kind_survives_dispatch
    (.format (.json (.located (.unknownVariant "Reset") place)))).1
    ((AggregateCommandHandler.new "Counter" : AggregateCommandHandler aggregate).toHandler Unit)
    Uuid.nil "Reset" delivers written failed
  exact ⟨_, _, fun kept => nomatch kept_iff.mp kept⟩

end Counters
end EsrcCqrs
