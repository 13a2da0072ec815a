import EsrcCqrs.CallerErrors

/-! Successful results on their way to the caller. Data that is encoded as null is taken
for absent data on the way, and a text that is nested too deep is not read; everything
else arrives. -/

namespace EsrcCqrs
open Json Interaction RequestLoop CqrsClient

/-- Both ways of reading a reply share the one collision of an optional field. -/
theorem delivered_iff {T : Type} {result : Except Error T} {response : T} {v : Value}
    {refusal : Error} {written : Except Json.Error Value} {legible : Prop} (hv : written = .ok v)
    (read : legible → result = if v = .null then .error refusal else .ok response)
    (unread : ¬ legible → ∃ e, result = .error e) :
    result = .ok response ↔ written ≠ .ok .null ∧ legible := by
  subst hv
  by_cases through : legible
  · rw [read through]
    by_cases null : v = .null
    · rw [if_pos null, null]
      exact iff_of_false nofun fun kept => kept.1 rfl
    · rw [if_neg null]
      refine iff_of_true rfl ⟨fun same => ?_, through⟩
      cases same
      exact null rfl
  · obtain ⟨e, failed⟩ := unread through
    rw [failed]
    exact iff_of_false nofun fun kept => through kept.2

section ServiceCommands
variable {U : ErrorTypes} [TextFormat] {F : Signature} {S C R : Type} [Serialize C] [Serialize R]
  [Deserialize R]

/-- What the caller makes of the bytes of `ok_with(d)`. -/
theorem dispatchServiceCommand_okWith {request : Transport} {serviceName commandName : String}
    {command : C} {payload bytes : ByteArray} {d : R} (written : toVec command = .ok payload)
    (encoded : toVec (ServiceCommandReply.okWith d) = .ok bytes)
    (delivered : request (commandSubject serviceName commandName) payload = .ok bytes)
    {v : Value} (hv : toValue d = .ok v) (back : fromValue v = .ok d)
    (legible : Legible (ServiceCommandReply R) (ServiceCommandReply.okWith d)) :
    dispatchServiceCommand R request serviceName commandName command =
      if v = .null then .error (.internal "command succeeded but returned no data") else .ok d := by
  obtain ⟨w, shape, rfl⟩ := toValue_of_toVec encoded
  have reply := ServiceCommandReply.fromValue_okWith hv shape
  unfold dispatchServiceCommand sendServiceCommand
  rw [exchange_delivered written delivered, fromSlice_print (legible w shape), reply]
  by_cases null : v = .null
  · subst null
    rfl
  · rw [if_neg null, (fromValue_option_ok back).mpr null]
    rfl

variable [Uuid.Text] [ToString (Esrc.Error U)] [Deserialize C]

/-- A service command that answers `ok_with(d)` hands `d` to its caller exactly when `d` is
not encoded as null and neither the command nor the reply is nested too deep for its reader. -/
theorem service_success_reaches_caller {h : ServiceCommandHandler U F S C} {store store' : S}
    {answer : (op : F.Op) → F.Ret op} {request : Transport} {serviceName : String}
    (delivers : AnsweredBy request (commandSubject serviceName h.name)
      (NatsCommandDispatcher.service h.toHandler) store answer)
    {command : C} (hc : RoundTrips command) {d : R} (hd : RoundTrips d) {bytes : ByteArray}
    (encoded : toVec (ServiceCommandReply.okWith d) = .ok bytes)
    (answers : (h.handler store command).eval answer = .value (store', .ok bytes)) :
    dispatchServiceCommand R request serviceName h.name command = .ok d ↔
      toValue d ≠ .ok .null ∧ Legible C command ∧
        Legible (ServiceCommandReply R) (ServiceCommandReply.okWith d) := by
  obtain ⟨v, hv, back⟩ := hd
  obtain ⟨w, shape⟩ := hc.written
  have written := toVec_of_toValue shape
  -- the reply of the handler, once it has read the command
  have delivered : Legible C command →
      request (commandSubject serviceName h.name) (TextFormat.print w) = .ok bytes := by
    intro asked
    obtain ⟨payload, written', decoded⟩ := hc.readsBack asked
    cases written.symm.trans written'
    have handled : (h.handle store (TextFormat.print w)).eval answer = .value (store', .ok bytes) := by
      rw [h.handle_decoded store decoded]
      exact answers
    exact delivers _ _ _ handled
  refine delivered_iff hv (fun ⟨asked, told⟩ =>
    dispatchServiceCommand_okWith written encoded (delivered asked) hv back told) fun deep => ?_
  by_cases asked : Legible C command
  · have unread := fromSlice_of_not_legible encoded fun told => deep ⟨asked, told⟩
    exact ⟨_, dispatchServiceCommand_unread written (delivered asked) unread⟩
  · have malformed := h.handle_malformed store (fromSlice_of_not_legible written asked)
    exact ⟨_, dispatchServiceCommand_failed delivers written (congrArg (Prog.eval answer) malformed)⟩

end ServiceCommands

section UnitReplies
open Counter

/-- The unit reply of `ok()` never reaches its caller. -/
theorem service_unit_success_lost :
    ∃ (h : ServiceCommandHandler errors .none Unit CounterCommand) (bytes : ByteArray)
      (request : Transport),
      AnsweredBy request (commandSubject "svc" h.name) (NatsCommandDispatcher.service h.toHandler) ()
        (fun op => Empty.elim op) ∧
      toVec ServiceCommandReply.ok = .ok bytes ∧
      (h.handler () .alwaysFail).eval (fun op => Empty.elim op) = .value ((), .ok bytes) ∧
      RoundTrips () ∧ RoundTrips CounterCommand.alwaysFail ∧
      dispatchServiceCommand Unit request "svc" h.name CounterCommand.alwaysFail =
        .error (.internal "command succeeded but returned no data") := by
  obtain ⟨payload, written, decoded⟩ :=
    (command_roundTrips .alwaysFail).readsBack (command_legible .alwaysFail)
  let bytes := TextFormat.print (.object [("success", .bool true), ("data", .null), ("error", .null)])
  let h : ServiceCommandHandler errors .none Unit CounterCommand :=
    .new (fun store _ => .ret (store, .ok bytes)) "Ping"
  have handled : (h.handle () payload).eval (fun op => Empty.elim op) = .value ((), .ok bytes) := by
    rw [h.handle_decoded () decoded]
    rfl
  have delivers := answeredBy_loopback (commandSubject "svc" h.name)
    (NatsCommandDispatcher.service h.toHandler) () (fun op => Empty.elim op)
  refine ⟨h, bytes, _, delivers, rfl, rfl, ⟨.null, rfl, rfl⟩, command_roundTrips _, ?_⟩
  exact dispatchServiceCommand_okWith (d := ()) written rfl (delivers _ _ _ handled) rfl rfl
    (ServiceCommandReply.legible_okWith rfl (by decide : 0 < 127))

/-- A number does. -/
theorem service_success_reaches_caller_number :
    ∃ (h : ServiceCommandHandler errors .none Unit CounterCommand) (request : Transport),
      dispatchServiceCommand Int request "svc" h.name CounterCommand.alwaysFail = .ok 5 := by
  let bytes := TextFormat.print
    (.object [("success", .bool true), ("data", .number ⟨5, 0⟩), ("error", .null)])
  let h : ServiceCommandHandler errors .none Unit CounterCommand :=
    .new (fun store _ => .ret (store, .ok bytes)) "Ping"
  have delivers := answeredBy_loopback (commandSubject "svc" h.name)
    (NatsCommandDispatcher.service h.toHandler) () (fun op => Empty.elim op)
  have encoded : toVec (ServiceCommandReply.okWith (5 : Int)) = .ok bytes := rfl
  exact ⟨h, _, (service_success_reaches_caller delivers (command_roundTrips .alwaysFail)
    ⟨_, rfl, rfl⟩ encoded rfl).mpr ⟨nofun, command_legible .alwaysFail,
      ServiceCommandReply.legible_okWith rfl (by decide : 0 < 127)⟩⟩

end UnitReplies

section Queries
variable {U : ErrorTypes} [TextFormat] [Uuid.Text] {E S R : Type} {V : View E} [Serialize R]

/-- What the caller makes of a query reply with data, whatever it expects. -/
theorem dispatchQuery_data {T : Type} [Deserialize T] {request : Transport}
    {serviceName handlerName : String} {id : Uuid} {payload : ByteArray} {v : Value}
    (written : toVec (QueryEnvelope.mk id) = .ok payload)
    (delivered : request (querySubject serviceName handlerName) payload =
      .ok (TextFormat.print (QueryReply.encode ⟨true, some v, none⟩)))
    (legible : Legible QueryReply (QueryReply.mk true (some v) none)) :
    dispatchQuery T request serviceName handlerName id =
      if v = .null then .error (.internal "query succeeded but returned no data")
      else (fromValue v).mapError formatError := by
  unfold dispatchQuery sendQuery
  rw [exchange_delivered written delivered, fromSlice_print (legible _ rfl), QueryReply.fromValue_encode]
  by_cases null : v = .null
  · subst null
    rfl
  · have data : fromValue (α := Option Value) v = .ok (some v) :=
      (fromValue_option_ok (fromValue_value v)).mpr null
    rw [if_neg null]
    change (((fromValue (α := Option Value) v).map fun data =>
      (QueryReply.mk true data none)).mapError _).mapError formatError >>= _ = _
    rw [data]
    rfl

theorem dispatchQuery_unread {T : Type} [Deserialize T] {request : Transport}
    {serviceName handlerName : String} {id : Uuid} {payload bytes : ByteArray} {e : Json.Error}
    (written : toVec (QueryEnvelope.mk id) = .ok payload)
    (delivered : request (querySubject serviceName handlerName) payload = .ok bytes)
    (unread : fromSlice QueryReply bytes = .error e) :
    dispatchQuery T request serviceName handlerName id = .error (formatError e) := by
  unfold dispatchQuery sendQuery
  rw [exchange_delivered written delivered, unread]
  rfl

/-- Whatever comes out as a success was read from that data. -/
theorem fromValue_of_dispatchQuery_data {T : Type} [Deserialize T] {request : Transport}
    {serviceName handlerName : String} {id : Uuid} {payload : ByteArray} {v : Value} {t : T}
    (written : toVec (QueryEnvelope.mk id) = .ok payload)
    (delivered : request (querySubject serviceName handlerName) payload =
      .ok (TextFormat.print (QueryReply.encode ⟨true, some v, none⟩)))
    (seen : dispatchQuery T request serviceName handlerName id = .ok t) : fromValue v = .ok t := by
  by_cases legible : Legible QueryReply (QueryReply.mk true (some v) none)
  · rw [dispatchQuery_data written delivered legible] at seen
    split at seen
    · cases seen
    · cases read : fromValue (α := T) v with
      | ok t' =>
          rw [read] at seen
          cases seen
          rfl
      | error e =>
          rw [read] at seen
          cases seen
  · rw [dispatchQuery_unread written delivered (fromSlice_of_not_legible rfl legible)] at seen
    cases seen

/-- A query comes back with the bytes that its handler made of a response. -/
def Responds (U : ErrorTypes) (request : Transport) (subject : String) (id : Uuid) (response : R) : Prop :=
  ∃ payload bytes, toVec (QueryEnvelope.mk id) = .ok payload ∧
    encodeReply U response = .ok bytes ∧ request subject payload = .ok bytes

section Responses
variable [Deserialize R] {request : Transport} {serviceName handlerName : String} {id : Uuid} {response : R}

theorem Responds.dispatchQuery (h : Responds U request (querySubject serviceName handlerName) id response)
    {v : Value} (hv : toValue response = .ok v) (back : fromValue v = .ok response)
    (legible : LegibleResponse response) :
    dispatchQuery R request serviceName handlerName id =
      if v = .null then .error (.internal "query succeeded but returned no data") else .ok response := by
  obtain ⟨payload, bytes, written, encoded, delivered⟩ := h
  rw [encodeReply_ok hv] at encoded
  cases encoded
  rw [dispatchQuery_data written delivered (legible v hv), back]
  rfl

/-- The response reaches the caller exactly when it is not encoded as null and the text of its
reply is not nested too deep. -/
theorem Responds.dispatchQuery_iff
    (h : Responds U request (querySubject serviceName handlerName) id response)
    (roundTrips : RoundTrips response) :
    CqrsClient.dispatchQuery R request serviceName handlerName id = .ok response ↔
      toValue response ≠ .ok .null ∧ LegibleResponse response := by
  obtain ⟨v, hv, back⟩ := roundTrips
  refine delivered_iff hv (h.dispatchQuery hv back) fun deep => ?_
  obtain ⟨payload, bytes, written, encoded, delivered⟩ := h
  rw [encodeReply_ok hv] at encoded
  cases encoded
  have deep' : ¬ Legible QueryReply (QueryReply.mk true (some v) none) := by
    refine fun legible => deep fun w hw => ?_
    cases hv.symm.trans hw
    exact legible
  exact ⟨_, dispatchQuery_unread written delivered (fromSlice_of_not_legible rfl deep')⟩

end Responses

variable [ToString (Esrc.Error U)] {request : Transport} {serviceName handlerName : String}
  {projection : V.State → R} {store : S} {id : Uuid}

/-- A live query, over a history of decodable events. -/
theorem responds_live {answer : (op : ReplayOp) → (ReplaySig U E).Ret op}
    (delivers : AnsweredBy request (querySubject serviceName handlerName)
      (NatsQueryDispatcher.service
        ((⟨handlerName, projection⟩ : LiveViewQuery V.toPartial R).toHandler S)) store answer)
    (events : List E) (stream : answer (.replayOne id 0) = .ok (events.map fun e => .ok (.ok e)))
    (written : ∃ v, toValue (projection (V.fold events)) = .ok v) :
    Responds U request (querySubject serviceName handlerName) id (projection (V.fold events)) := by
  obtain ⟨v, hv⟩ := written
  obtain ⟨payload, written, decoded⟩ := QueryEnvelope.readsBack ⟨id⟩
  have handled := (⟨handlerName, projection⟩ : LiveViewQuery V.toPartial R).eval_handle (U := U) store
    decoded answer events stream
  rw [encodeReply_ok hv] at handled
  exact ⟨payload, _, written, encodeReply_ok hv, delivers payload store _
    (NatsQueryDispatcher.eval_service (LiveViewQuery.toHandler S _) handled)⟩

/-- A memory query, over whatever its map holds. -/
theorem responds_memory {map : Views V.toPartial}
    (delivers : AnsweredBy request (querySubject serviceName handlerName)
      (NatsQueryDispatcher.service (U := U)
        ((⟨handlerName, projection⟩ : MemoryViewQuery V.toPartial R).toHandler S)) store
      (RwLock.Op.answer map))
    (written : ∃ v, toValue (projection ((map id).getD V.default)) = .ok v) :
    Responds U request (querySubject serviceName handlerName) id
      (projection ((map id).getD V.default)) := by
  obtain ⟨v, hv⟩ := written
  obtain ⟨payload, written, decoded⟩ := QueryEnvelope.readsBack ⟨id⟩
  have handled := (⟨handlerName, projection⟩ : MemoryViewQuery V.toPartial R).eval_handle (U := U)
    store map decoded
  unfold MemoryViewQuery.reply at handled
  rw [encodeReply_ok hv] at handled
  exact ⟨payload, _, written, encodeReply_ok hv, delivers payload store _
    (NatsQueryDispatcher.eval_service (MemoryViewQuery.toHandler S _) handled)⟩

variable [Deserialize R]

/-- Either handler hands the projection of its view to the caller exactly when the projection is
not encoded as null and the text of its reply is not nested too deep. -/
theorem query_success_reaches_caller :
    (∀ (answer : (op : ReplayOp) → (ReplaySig U E).Ret op) (events : List E),
      AnsweredBy request (querySubject serviceName handlerName) (NatsQueryDispatcher.service
        ((⟨handlerName, projection⟩ : LiveViewQuery V.toPartial R).toHandler S)) store answer →
      answer (.replayOne id 0) = .ok (events.map fun e => .ok (.ok e)) →
      RoundTrips (projection (V.fold events)) →
      (dispatchQuery R request serviceName handlerName id = .ok (projection (V.fold events)) ↔
        toValue (projection (V.fold events)) ≠ .ok .null ∧
          LegibleResponse (projection (V.fold events)))) ∧
    (∀ map : Views V.toPartial,
      AnsweredBy request (querySubject serviceName handlerName) (NatsQueryDispatcher.service (U := U)
        ((⟨handlerName, projection⟩ : MemoryViewQuery V.toPartial R).toHandler S)) store
        (RwLock.Op.answer map) →
      RoundTrips (projection ((map id).getD V.default)) →
      (dispatchQuery R request serviceName handlerName id = .ok (projection ((map id).getD V.default)) ↔
        toValue (projection ((map id).getD V.default)) ≠ .ok .null ∧
          LegibleResponse (projection ((map id).getD V.default)))) := by
  constructor
  · intro answer events delivers stream roundTrips
    exact (responds_live delivers events stream roundTrips.written).dispatchQuery_iff roundTrips
  · intro map delivers roundTrips
    exact (responds_memory delivers roundTrips.written).dispatchQuery_iff roundTrips

end Queries

section Counters
open Counter

/-- An absent record as the response of a counter that never moved. -/
def moved (value : Int) : Option Int := if value = 0 then none else some value

theorem moved_roundTrips (value : Int) : RoundTrips (moved value) := by
  unfold moved
  split
  · exact ⟨_, rfl, rfl⟩
  · exact ⟨_, rfl, rfl⟩

/-- A live query for a counter without events: success with nothing in it is an error. -/
theorem query_absent_record_lost :
    ∃ (q : LiveViewQuery view.toPartial (Option Int)) (request : Transport),
      AnsweredBy request (querySubject "svc" q.handlerName)
        (NatsQueryDispatcher.service (q.toHandler Unit)) ()
        (fun _ => (.ok [] : Except (Esrc.Error errors) (List _))) ∧
      (∀ r, RoundTrips (moved r)) ∧ q.projection = moved ∧
      dispatchQuery (Option Int) request "svc" q.handlerName Uuid.nil =
        .error (.internal "query succeeded but returned no data") := by
  have delivers := answeredBy_loopback (querySubject "svc" "Counter.Moved")
    (NatsQueryDispatcher.service ((⟨"Counter.Moved", moved⟩ :
      LiveViewQuery view.toPartial (Option Int)).toHandler (U := errors) Unit)) ()
    (fun _ => (.ok [] : Except (Esrc.Error errors) (List _)))
  have responds : Responds errors _ (querySubject "svc" "Counter.Moved") Uuid.nil (moved 0) :=
    responds_live delivers [] rfl (moved_roundTrips _).written
  exact ⟨⟨"Counter.Moved", moved⟩, _, delivers, moved_roundTrips, rfl,
    responds.dispatchQuery rfl rfl (legibleResponse_of_depth rfl (by decide : 0 < 127))⟩

theorem query_success_reaches_caller_counter :
    ∃ live memory : Transport,
      dispatchQuery Int live "svc" "Counter.GetState" Uuid.nil = .ok 5 ∧
      dispatchQuery Int memory "svc" "Counter.GetState" Uuid.nil = .ok 5 := by
  have live := answeredBy_loopback (querySubject "svc" "Counter.GetState")
    (NatsQueryDispatcher.service ((⟨"Counter.GetState", id⟩ :
      LiveViewQuery view.toPartial Int).toHandler (U := errors) Unit)) ()
    (fun _ => (.ok [.ok (.ok (.incremented 5))] : Except (Esrc.Error errors) (List _)))
  have memory := answeredBy_loopback (querySubject "svc" "Counter.GetState")
    (NatsQueryDispatcher.service ((⟨"Counter.GetState", id⟩ :
      MemoryViewQuery view.toPartial Int).toHandler (U := errors) Unit)) ()
    (RwLock.Op.answer fun _ => some (5 : Int))
  have legible : LegibleResponse (5 : Int) := legibleResponse_of_depth rfl (by decide : 0 < 127)
  exact ⟨_, _,
    (query_success_reaches_caller.1 _ [.incremented 5] live rfl ⟨_, rfl, rfl⟩).mpr ⟨nofun, legible⟩,
    (query_success_reaches_caller.2 _ memory ⟨_, rfl, rfl⟩).mpr ⟨nofun, legible⟩⟩

end Counters
end EsrcCqrs
