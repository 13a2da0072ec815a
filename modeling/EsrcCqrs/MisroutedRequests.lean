import EsrcCqrs.CallerErrors
import EsrcCqrs.CallerResults
import EsrcCqrs.CafeDomain
import EsrcCqrs.Isolation
import EsrcCqrs.Sessions

/-! What a caller sees when an endpoint of the other dispatcher takes its request, as it can when
both serve one service name and the handlers share a name. -/

namespace EsrcCqrs
open Json Interaction RequestLoop CqrsClient

section Programs
variable {F : Signature} {α β : Type}

theorem returns_map {p : Prog F α} {f : α → β} {b : β} (h : (p.map f).Returns b) :
    ∃ a, p.Returns a ∧ b = f a := by
  induction p with
  | ret a =>
      cases h
      exact ⟨a, .ret a, rfl⟩
  | panic message => cases h
  | call op next ih =>
      cases h with
      | call r further =>
          obtain ⟨a, returned, same⟩ := ih r further
          exact ⟨a, .call r returned, same⟩

theorem returns_inl {G : Signature} {p : Prog F α} {a : α} (h : (p.inl (G := G)).Returns a) : p.Returns a := by
  induction p with
  | ret b =>
      cases h
      exact .ret a
  | panic message => cases h
  | call op next ih =>
      cases h with
      | call r further => exact .call r (ih r further)

theorem returns_inr {G : Signature} {p : Prog G α} {a : α} (h : (p.inr (F := F)).Returns a) : p.Returns a := by
  induction p with
  | ret b =>
      cases h
      exact .ret a
  | panic message => cases h
  | call op next ih =>
      cases h with
      | call r further => exact .call r (ih r further)

theorem returns_ofOutcome {o : Outcome α} {a : α} (h : (Prog.ofOutcome o : Prog F α).Returns a) :
    o = .value a := by
  cases o with
  | value b =>
      cases h
      rfl
  | panicked message => cases h

end Programs

section Readings

/-- The fields of a query's reply are those of a service command's. -/
theorem QueryReply.fromValue_as_service {R : Type} [Deserialize R] (r : QueryReply) :
    fromValue (α := ServiceCommandReply R) r.encode =
      (fromValue (α := Option R) (r.data.getD .null)).map fun data => ⟨r.success, data, r.error⟩ := by
  change (fromValue (α := Option R) (r.data.getD .null) >>= fun d =>
    fromValue (encodeError r.error) >>= fun e =>
      Except.ok (ServiceCommandReply.mk r.success d e)) = _
  rw [fromValue_encodeError]
  cases fromValue (α := Option R) (r.data.getD .null) <;> rfl

variable [Uuid.Text]

/-- A query's reply has no id to be read as a command's. -/
theorem QueryReply.fromValue_as_command (r : QueryReply) :
    fromValue (α := CommandReply) r.encode = .error (.missingField "id") := rfl

theorem CommandReply.fromValue_as_query (r : CommandReply) :
    fromValue (α := QueryReply) r.encode = .ok ⟨r.success, none, r.error⟩ := by
  change (fromValue (encodeError r.error) >>= fun e => Except.ok (QueryReply.mk r.success none e)) = _
  rw [fromValue_encodeError]
  rfl

end Readings

section Views
variable {U : ErrorTypes} [TextFormat] [Uuid.Text]

/-- A result that is a view's data in a reply to a query, or an error. -/
inductive ShowsView (payload : ByteArray) : HandlerResult U → Prop
  | view {envelope : QueryEnvelope} (data : Value) :
      fromSlice QueryEnvelope payload = .ok envelope →
      ShowsView payload (.ok (TextFormat.print (QueryReply.encode ⟨true, some data, none⟩)))
  | error (e : Esrc.Error U) : ShowsView payload (.error e)

theorem encodeReply_showsView {T : Type} [Serialize T] {payload : ByteArray} {envelope : QueryEnvelope}
    (decoded : fromSlice QueryEnvelope payload = .ok envelope) (response : T) :
    ShowsView payload (encodeReply U response) := by
  cases written : toValue response with
  | ok data =>
      rw [encodeReply_ok written]
      exact .view data decoded
  | error e =>
      rw [encodeReply_error written]
      exact .error _

/-- A query handler of either kind, over views of one type. -/
inductive ViewQuery {E : Type} (V : PartialView E) (T : Type) where
  | live (q : LiveViewQuery V T)
  | memory (q : MemoryViewQuery V T)

/-- The log that the one kind replays, beside the map that the other reads behind its lock. -/
def logAndMap (U : ErrorTypes) {E : Type} (V : PartialView E) :
    Interp ((ReplaySig U E).sum (MemorySig V)) (List (Uuid × E) × RwLock.Lock (Views V)) :=
  .sum (fun op w r w' => ReplayStep U E op w.1 r w'.1 ∧ w'.2 = w.2)
    (fun op w r w' => RwLock.Grant op w.2 r w'.2 ∧ w'.1 = w.1)

/-- Neither an event was stored nor a view changed. -/
def Unwritten {E : Type} {V : PartialView E} (w w' : List (Uuid × E) × RwLock.Lock (Views V)) : Prop :=
  w'.1 = w.1 ∧ w'.2.value = w.2.value

variable {E T S : Type} [Serialize T] {V : PartialView E}

theorem liveViewQuery_showsView (q : LiveViewQuery V T) (store : S) {payload : ByteArray}
    {r : HandlerResult U} (returned : (q.handle store payload).Returns r) : ShowsView payload r := by
  unfold LiveViewQuery.handle at returned
  split at returned
  · cases returned
    exact .error _
  · next envelope decoded =>
      cases returned with
      | call answer returned =>
          unfold LiveViewQuery.afterReplay at returned
          split at returned
          · cases returned
            exact .error _
          · next items =>
              have value := returns_ofOutcome returned
              cases replayed : LiveViewQuery.replay V V.default items with
              | panicked message =>
                  rw [replayed] at value
                  cases value
              | value result =>
                  rw [replayed] at value
                  cases result with
                  | error e =>
                      cases value
                      exact .error e
                  | ok view =>
                      cases value
                      exact encodeReply_showsView decoded _

theorem memoryViewQuery_showsView (q : MemoryViewQuery V T) (store : S) {payload : ByteArray}
    {r : HandlerResult U} (returned : (q.handle store payload).Returns r) : ShowsView payload r := by
  unfold MemoryViewQuery.handle at returned
  split at returned
  · cases returned
    exact .error _
  · next envelope decoded =>
      cases returned with
      | call map returned =>
          cases returned with
          | call _ returned =>
              cases returned
              exact encodeReply_showsView decoded _

variable [ToString (Esrc.Error U)]

/-- A replay and what follows it write nothing. -/
theorem liveViewQuery_unwritten (q : LiveViewQuery V T) (store : S) (payload : ByteArray) :
    (((NatsQueryDispatcher.service (q.toHandler S)).handle store payload).inl).Keeps
      (logAndMap U V) Unwritten := by
  refine Prog.Keeps.inl ?_
  change ((q.handle store payload).map _).Keeps _ _
  unfold LiveViewQuery.handle
  split
  · trivial
  · rintro w r w' ⟨replayed, same⟩
    refine ⟨⟨replayed.log_eq, congrArg RwLock.Lock.value same⟩, ?_⟩
    cases r with
    | error e => trivial
    | ok items =>
        change (Prog.map _ (.ofOutcome _)).Keeps _ _
        rw [Prog.map_ofOutcome]
        exact Prog.Keeps.ofOutcome _

theorem memoryViewQuery_unwritten (q : MemoryViewQuery V T) (store : S) (payload : ByteArray) :
    (((NatsQueryDispatcher.service (U := U) (q.toHandler S)).handle store payload).inr).Keeps
      (logAndMap U V) Unwritten := by
  refine Prog.Keeps.inr ?_
  change ((q.handle store payload).map _).Keeps _ _
  unfold MemoryViewQuery.handle
  split
  · trivial
  · rintro ⟨log, lock⟩ map ⟨log', lock'⟩ ⟨read, same⟩
    refine ⟨⟨same, ?_⟩, ?_⟩
    · cases read
      rfl
    · rintro ⟨log, lock⟩ u ⟨log', lock'⟩ ⟨dropped, same⟩
      refine ⟨⟨same, ?_⟩, trivial⟩
      cases dropped
      rfl

namespace ViewQuery

def service (U : ErrorTypes) [ToString (Esrc.Error U)] (q : ViewQuery V T) (S : Type) :
    Service ((ReplaySig U E).sum (MemorySig V)) S (HandlerResult U) :=
  match q with
  | .live q => (NatsQueryDispatcher.service (q.toHandler S)).inl
  | .memory q => (NatsQueryDispatcher.service (q.toHandler S)).inr

variable {request : Transport} {subject : String} {payload : ByteArray} {r : HandlerResult U}

theorem shows {q : ViewQuery V T} (h : RepliedWith request subject (q.service U S) payload r) :
    ShowsView payload r := by
  obtain ⟨⟨store, store', returned⟩, -⟩ := h
  cases q with
  | live q =>
      obtain ⟨r', returned', same⟩ := returns_map (returns_inl returned)
      cases same
      exact liveViewQuery_showsView q store returned'
  | memory q =>
      obtain ⟨r', returned', same⟩ := returns_map (returns_inr returned)
      cases same
      exact memoryViewQuery_showsView q store returned'

theorem delivered {q : ViewQuery V T} (h : RepliedWith request subject (q.service U S) payload r) :
    request subject payload = .ok (NatsQueryDispatcher.body r) := by
  cases q with
  | live q => exact h.carried
  | memory q => exact h.carried

theorem unwritten (q : ViewQuery V T) (store : S) (payload : ByteArray) :
    ((q.service U S).handle store payload).Keeps (logAndMap U V) Unwritten := by
  cases q with
  | live q => exact liveViewQuery_unwritten q store payload
  | memory q => exact memoryViewQuery_unwritten q store payload

end ViewQuery
end Views

section Callers
variable [TextFormat] {request : Transport} {serviceName handlerName : String} {payload : ByteArray}

/-- The data of a query's reply, seen by the caller of a service command. -/
theorem dispatchServiceCommand_data {C R : Type} [Serialize C] [Deserialize R] {command : C}
    {data : Value} (written : toVec command = .ok payload)
    (delivered : request (commandSubject serviceName handlerName) payload =
      .ok (TextFormat.print (QueryReply.encode ⟨true, some data, none⟩))) (d : R) :
    dispatchServiceCommand R request serviceName handlerName command = .ok d ↔
      Legible (ServiceCommandReply R) (QueryReply.mk true (some data) none) ∧
        data ≠ .null ∧ fromValue data = .ok d := by
  by_cases legible : Legible (ServiceCommandReply R) (QueryReply.mk true (some data) none)
  · unfold dispatchServiceCommand sendServiceCommand
    rw [exchange_delivered written delivered, fromSlice_print (legible _ rfl),
      QueryReply.fromValue_as_service, Option.getD_some]
    by_cases null : data = .null
    · subst null
      exact iff_of_false nofun fun h => h.2.1 rfl
    · rw [fromValue_option null]
      cases read : fromValue (α := R) data with
      | ok d' =>
          constructor
          · intro same
            cases same
            exact ⟨legible, null, rfl⟩
          · rintro ⟨-, -, same⟩
            cases same
            rfl
      | error e => exact iff_of_false nofun fun h => nomatch h.2.2
  · rw [dispatchServiceCommand_unread written delivered (fromSlice_of_not_legible rfl legible)]
    exact iff_of_false nofun fun h => legible h.1

end Callers

section Misrouted
variable {U : ErrorTypes} [TextFormat] [Uuid.Text] [ToString (Esrc.Error U)] {E T S : Type} [Serialize T]
  {V : PartialView E} {q : ViewQuery V T} {request : Transport} {serviceName handlerName : String}
  {payload : ByteArray} {r : HandlerResult U}

/-- What a command's reader makes of a query's reply: it misses the id, unless the data of the reply
is nested too deep for it. -/
theorem ShowsView.as_command (h : ShowsView payload r) :
    ∃ e, fromSlice CommandReply (NatsQueryDispatcher.body r) =
        .error (.located e (TextFormat.place CommandReply (NatsQueryDispatcher.body r))) ∧
      (e = .missingField "id" ∨ e = .recursionLimit ∧
        ∃ data, r = .ok (TextFormat.print (QueryReply.encode ⟨true, some data, none⟩)) ∧
          ¬ Legible CommandReply (QueryReply.mk true (some data) none)) := by
  cases h with
  | view data _ =>
      by_cases legible : Legible CommandReply (QueryReply.mk true (some data) none)
      · refine ⟨.missingField "id", ?_, .inl rfl⟩
        change fromSlice CommandReply (TextFormat.print _) = _
        rw [fromSlice_print (legible _ rfl), QueryReply.fromValue_as_command]
        rfl
      · exact ⟨.recursionLimit, fromSlice_of_not_legible rfl legible, .inr ⟨rfl, data, rfl, legible⟩⟩
  | error e =>
      refine ⟨.missingField "id", ?_, .inl rfl⟩
      have shallow : TextFormat.tooDeep CommandReply (NatsQueryDispatcher.failure e).encode = false :=
        TextFormat.shallow _ _ (by decide : 2 < 128)
      rw [NatsQueryDispatcher.body_error, fromSlice_print shallow, QueryReply.fromValue_as_command]
      rfl

/-- An aggregate command that a query endpoint takes: its caller gets an error, whatever the
handler did, and never an id. -/
theorem misrouted_command_fails {C : Type} [Serialize C] {id : Uuid} {command : C}
    (written : toVec (CommandEnvelope.mk id command) = .ok payload)
    (replied : RepliedWith request (commandSubject serviceName handlerName) (q.service U S) payload r) :
    ∃ e, dispatchCommand request serviceName handlerName id command =
        .error (formatError (.located e (TextFormat.place CommandReply (NatsQueryDispatcher.body r)))) ∧
      (e = .missingField "id" ∨ e = .recursionLimit ∧
        ∃ data, r = .ok (TextFormat.print (QueryReply.encode ⟨true, some data, none⟩)) ∧
          ¬ Legible CommandReply (QueryReply.mk true (some data) none)) := by
  obtain ⟨e, read, which⟩ := (ViewQuery.shows replied).as_command
  refine ⟨e, ?_, which⟩
  have sent : sendCommand request serviceName handlerName id command =
      .error (formatError (.located e (TextFormat.place CommandReply (NatsQueryDispatcher.body r)))) := by
    rw [sendCommand, exchange_delivered written (ViewQuery.delivered replied), read]
    rfl
  rw [dispatchCommand, sent]
  rfl

/-- A service command that a query endpoint takes writes nothing; and it is answered with a value
exactly when the endpoint shows a view's data that reads as one. -/
theorem misrouted_service_command_iff {C R : Type} [Serialize C] [Deserialize R] {command : C}
    (written : toVec command = .ok payload)
    (replied : RepliedWith request (commandSubject serviceName handlerName) (q.service U S) payload r) :
    (∀ store : S, ((q.service U S).handle store payload).Keeps (logAndMap U V) Unwritten) ∧
    ∀ d : R, dispatchServiceCommand R request serviceName handlerName command = .ok d ↔
      (∃ envelope, fromSlice QueryEnvelope payload = .ok envelope) ∧
      ∃ data, r = .ok (TextFormat.print (QueryReply.encode ⟨true, some data, none⟩)) ∧
        Legible (ServiceCommandReply R) (QueryReply.mk true (some data) none) ∧
        data ≠ .null ∧ fromValue data = .ok d := by
  refine ⟨fun store => q.unwritten store payload, fun d => ?_⟩
  have delivered := ViewQuery.delivered replied
  cases ViewQuery.shows replied with
  | @view envelope data decoded =>
      rw [dispatchServiceCommand_data written delivered]
      constructor
      · exact fun read => ⟨⟨envelope, decoded⟩, data, rfl, read⟩
      · rintro ⟨-, data', same, read⟩
        have encoded := print_injective (Except.ok.inj same)
        simp only [QueryReply.encode, Option.getD_some, Value.object.injEq, List.cons.injEq,
          Prod.mk.injEq] at encoded
        rw [encoded.2.1.2]
        exact read
  | error e =>
      have failed : dispatchServiceCommand R request serviceName handlerName command =
          .error (.internal (toString e)) := by
        refine dispatchServiceCommand_err written delivered ?_
        rw [NatsQueryDispatcher.body_error]
        exact fromSlice_print_ok (TextFormat.shallow _ _ (by decide : 2 < 128))
          (QueryReply.fromValue_as_service (NatsQueryDispatcher.failure e))
      rw [failed]
      constructor
      · intro same
        cases same
      · rintro ⟨-, data, same, -⟩
        cases same

end Misrouted

section Queries
variable {U : ErrorTypes} [TextFormat] [Uuid.Text] [ToString (Esrc.Error U)]
  {request : Transport} {serviceName handlerName : String} {id : Uuid}

/-- What the caller of a query makes of a command's reply, if it can be read at all. -/
theorem dispatchQuery_command {R : Type} [Deserialize R] {payload : ByteArray} (reply : CommandReply)
    (written : toVec (QueryEnvelope.mk id) = .ok payload)
    (delivered : request (querySubject serviceName handlerName) payload =
      .ok (TextFormat.print reply.encode))
    (legible : TextFormat.tooDeep QueryReply reply.encode = false) :
    dispatchQuery R request serviceName handlerName id =
      if reply.success then .error (.internal "query succeeded but returned no data")
      else .error (reply.error.getD (.internal "query failed but no error present")) := by
  unfold dispatchQuery sendQuery
  rw [exchange_delivered written delivered, fromSlice_print legible, CommandReply.fromValue_as_query]
  rfl

/-- It is never one with data. -/
theorem dispatchQuery_command_ne_ok {R : Type} [Deserialize R] {payload : ByteArray} (reply : CommandReply)
    (written : toVec (QueryEnvelope.mk id) = .ok payload)
    (delivered : request (querySubject serviceName handlerName) payload =
      .ok (TextFormat.print reply.encode)) :
    ∃ err, dispatchQuery R request serviceName handlerName id = .error err := by
  cases deep : TextFormat.tooDeep QueryReply reply.encode with
  | true => exact ⟨_, dispatchQuery_unread written delivered (fromSlice_print_tooDeep deep)⟩
  | false =>
      rw [dispatchQuery_command reply written delivered deep]
      cases reply.success with
      | true => exact ⟨_, rfl⟩
      | false => exact ⟨_, rfl⟩

/-- A command's envelope names the stream that a query of it would ask for. -/
theorem CommandEnvelope.fromSlice_as_query {C : Type} [Serialize C] (id : Uuid) {command : C} {v : Value}
    (shape : toValue command = .ok v) (few : v.depth < 127) : ∃ payload,
    toVec (CommandEnvelope.mk id command) = .ok payload ∧ fromSlice QueryEnvelope payload = .ok ⟨id⟩ := by
  refine ⟨_, toVec_of_toValue (toValue_mk id shape),
    fromSlice_print_ok (legible id shape few _ (toValue_mk id shape)) ?_⟩
  change (fromValue (.string (Uuid.Text.write id)) >>= fun i => Except.ok (QueryEnvelope.mk i)) = _
  rw [Uuid.fromValue_uuid]
  rfl

/-- A query's envelope read as a command's: the command is what is missing. -/
theorem QueryEnvelope.fromSlice_as_command {C : Type} [Deserialize C] {payload : ByteArray}
    (written : toVec (QueryEnvelope.mk id) = .ok payload) :
    fromSlice (CommandEnvelope C) payload = match (Deserialize.missing : Option C) with
      | some command => .ok ⟨id, command⟩
      | none => .error (.located (.missingField "command") (TextFormat.place (CommandEnvelope C) payload)) := by
  cases written
  rw [fromSlice_print (legible ⟨id⟩ _ rfl)]
  change (fromValue (.string (Uuid.Text.write id)) >>= fun i => required C ["id", "command"] "command" _ >>=
    fun command => Except.ok (CommandEnvelope.mk i command)).mapError _ = _
  rw [Uuid.fromValue_uuid, required_of_absent rfl]
  cases (Deserialize.missing : Option C) with
  | some command => rfl
  | none => rfl

variable {A : Aggregate U} [Deserialize A.Command] [Serialize A.Error] {S : Type}

/-- The endpoint of an aggregate answers with a command's reply whatever it comes to. -/
theorem aggregateService_replies {payload : ByteArray} {r : HandlerResult U}
    (replied : RepliedWith request (querySubject serviceName handlerName)
      (aggregateService A S handlerName) payload r) :
    ∃ reply : CommandReply, NatsCommandDispatcher.body r = TextFormat.print reply.encode := by
  obtain ⟨⟨store, store', returned⟩, -⟩ := replied
  change (AggregateCommandHandler.handle (A := A) store payload).Returns _ at returned
  cases decoded : fromSlice (CommandEnvelope A.Command) payload with
  | error e =>
      rw [AggregateCommandHandler.handle_malformed store decoded] at returned
      cases returned
      exact ⟨_, rfl⟩
  | ok envelope =>
      rw [AggregateCommandHandler.handle_decoded store decoded] at returned
      cases returned with
      | call found returned =>
          cases found with
          | error e =>
              cases returned
              exact ⟨_, rfl⟩
          | ok root =>
              cases returned with
              | call result returned =>
                  cases result with
                  | ok written =>
                      cases returned
                      exact ⟨⟨written.id, true, none⟩, rfl⟩
                  | error e =>
                      rw [AggregateCommandHandler.afterWrite_error] at returned
                      have value := returns_ofOutcome returned
                      cases converted : convertEsrcError A e with
                      | value err =>
                          rw [converted] at value
                          cases value
                          exact ⟨⟨envelope.id, false, some err⟩, rfl⟩
                      | panicked message =>
                          rw [converted] at value
                          cases value

/-- What the endpoint makes of an envelope without a command. -/
def missingCommand (A : Aggregate U) [Deserialize A.Command] (payload : ByteArray) : Esrc.Error U :=
  .format (.json (.located (.missingField "command") (TextFormat.place (CommandEnvelope A.Command) payload)))

/-- A query that the endpoint of an aggregate takes. Its envelope lacks a command: where the command
type has no value for that, no stream is touched and the caller is told what is missing; where it
has one, that command runs on the stream of the query. Either way the caller gets an error. -/
theorem misrouted_query_fails {R : Type} [Deserialize R] {payload : ByteArray} {r : HandlerResult U}
    (written : toVec (QueryEnvelope.mk id) = .ok payload)
    (replied : RepliedWith request (querySubject serviceName handlerName)
      (aggregateService A S handlerName) payload r) :
    (∃ err, dispatchQuery R request serviceName handlerName id = .error err) ∧
    match (Deserialize.missing : Option A.Command) with
    | none =>
        (∀ store : S, (aggregateService A S handlerName).handle store payload =
          .ret (store, .error (missingCommand A payload))) ∧
        dispatchQuery R request serviceName handlerName id =
          .error (.internal (toString (missingCommand A payload)))
    | some command => ∀ store : S, (aggregateService A S handlerName).handle store payload =
        .call (.read id) (AggregateCommandHandler.afterRead store ⟨id, command⟩) := by
  have read := QueryEnvelope.fromSlice_as_command (C := A.Command) written
  obtain ⟨reply, body⟩ := aggregateService_replies replied
  have delivered := replied.carried.trans (congrArg Except.ok body)
  refine ⟨dispatchQuery_command_ne_ok reply written delivered, ?_⟩
  cases missing : (Deserialize.missing : Option A.Command) with
  | some command =>
      rw [missing] at read
      exact fun store => AggregateCommandHandler.handle_decoded store read
  | none =>
      rw [missing] at read
      have silent : ∀ store : S, (aggregateService A S handlerName).handle store payload = _ :=
        fun store => AggregateCommandHandler.handle_malformed store read
      refine ⟨silent, ?_⟩
      obtain ⟨⟨store, store', returned⟩, carried⟩ := replied
      rw [silent store] at returned
      cases returned
      exact dispatchQuery_command (NatsCommandDispatcher.failure _) written carried
        (CommandReply.legible (by decide : 1 < 127))

end Queries

section Counters
open Counter

/-- The counter's query, with the events of one stream behind it. -/
def stateQuery : ViewQuery view.toPartial Int := .live ⟨"Counter", id⟩

/-- What its calls return. -/
def stateAnswer (events : List CounterEvent) :
    (op : ((ReplaySig errors CounterEvent).sum (MemorySig view.toPartial)).Op) →
      ((ReplaySig errors CounterEvent).sum (MemorySig view.toPartial)).Ret op
  | .inl _ => (.ok (events.map fun e => .ok (.ok e)) : Except (Esrc.Error errors) (List _))
  | .inr op => RwLock.Op.answer MemoryView.new op

def stateTransport (events : List CounterEvent) : Transport :=
  loopback (stateQuery.service errors Unit) () (stateAnswer events)

theorem stateTransport_repliedWith {payload : ByteArray} {envelope : QueryEnvelope} (subject : String)
    (decoded : fromSlice QueryEnvelope payload = .ok envelope) (events : List CounterEvent) :
    RepliedWith (stateTransport events) subject (stateQuery.service errors Unit) payload
      (encodeReply errors (view.fold events)) := by
  have handled : ((stateQuery.service errors Unit).handle () payload).eval (stateAnswer events) =
      .value ((), encodeReply errors (view.fold events)) := by
    change (Prog.map _ ((⟨"Counter", id⟩ : LiveViewQuery view.toPartial Int).handle () payload)).inl.eval _ = _
    rw [LiveViewQuery.handle_decoded _ () decoded]
    simp only [Prog.map, Prog.inl, Prog.eval, stateAnswer, LiveViewQuery.afterReplay_events]
    rfl
  exact (answeredBy_loopback subject _ _ _).repliedWith handled

/-- An increment that is read as a query. -/
theorem increment_as_query (id : Uuid) (n : Int) : ∃ payload,
    toVec (CommandEnvelope.mk id (CounterCommand.increment n)) = .ok payload ∧
      fromSlice QueryEnvelope payload = .ok ⟨id⟩ :=
  CommandEnvelope.fromSlice_as_query id rfl (by decide : 2 < 127)

/-- An increment that the counter's query takes is not stored, and fails. -/
theorem misrouted_command_fails_counter : ∃ place,
    dispatchCommand (stateTransport []) "svc" "Counter" Uuid.nil (CounterCommand.increment 1) =
      .error (formatError (.located (.missingField "id") place)) := by
  obtain ⟨payload, written, decoded⟩ := increment_as_query Uuid.nil 1
  obtain ⟨e, failed, which⟩ :=
    misrouted_command_fails written (stateTransport_repliedWith _ decoded [])
  rcases which with rfl | ⟨-, data, shown, deep⟩
  · exact ⟨_, failed⟩
  · cases print_injective (Except.ok.inj shown)
    have legible : Legible CommandReply (QueryReply.mk true (some (.number ⟨0, 0⟩)) none) :=
      legible_of_depth rfl (by decide : 1 < 128)
    exact absurd legible deep

/-- As a service command, the same bytes are answered with the counter's value. -/
theorem misrouted_service_command_iff_counter :
    dispatchServiceCommand Int (stateTransport [.incremented 5]) "svc" "Counter"
      (CommandEnvelope.mk Uuid.nil (CounterCommand.increment 1)) = .ok 5 := by
  obtain ⟨payload, written, decoded⟩ := increment_as_query Uuid.nil 1
  have replied := stateTransport_repliedWith (commandSubject "svc" "Counter") decoded [.incremented 5]
  exact ((misrouted_service_command_iff written replied).2 5).mpr
    ⟨⟨_, decoded⟩, _, rfl, legible_of_depth rfl (by decide : 1 < 128), nofun, rfl⟩

theorem misrouted_query_fails_counter : ∃ (request : Transport) (payload : ByteArray),
    dispatchQuery Int request "svc" "Counter" Uuid.nil =
      .error (.internal (toString (missingCommand aggregate payload))) := by
  obtain ⟨payload, written, decoded⟩ := QueryEnvelope.readsBack ⟨Uuid.nil⟩
  have delivers := answeredBy_loopback (querySubject "svc" "Counter")
    (aggregateService aggregate Unit "Counter") () (fun op => (StoreOp.answer op []).1)
  have read : fromSlice (CommandEnvelope aggregate.Command) payload = .error (.located
      (.missingField "command") (TextFormat.place (CommandEnvelope aggregate.Command) payload)) :=
    QueryEnvelope.fromSlice_as_command written
  have handled : ((aggregateService aggregate Unit "Counter").handle () payload).eval
      (fun op => (StoreOp.answer op []).1) = .value ((), .error (missingCommand aggregate payload)) := by
    change (AggregateCommandHandler.handle (A := aggregate) () payload).eval _ = _
    rw [AggregateCommandHandler.handle_malformed (A := aggregate) () read]
    rfl
  exact ⟨_, _, (misrouted_query_fails (A := aggregate) written (delivers.repliedWith handled)).2.2⟩

end Counters
end EsrcCqrs
