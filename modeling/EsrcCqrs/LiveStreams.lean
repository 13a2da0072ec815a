import EsrcCqrs.CallerErrors
import EsrcCqrs.CallerResults

/-! Live queries on damaged streams. A stream is any list of stored events, undecodable
envelopes and errors; a query answers for all of it or not at all. -/

namespace EsrcCqrs
open Json Interaction RequestLoop CqrsClient

section Items
variable {U : ErrorTypes} {E : Type}

/-- What the replay loop makes of an item: an error of the stream is kept as it is. -/
def itemEvent : Except (Esrc.Error U) (StoredEnvelope E) → Except (Esrc.Error U) E
  | .error e => .error e
  | .ok (.error text) => .error (.format (.message text))
  | .ok (.ok event) => .ok event

/-- Any stream is of events only, or has a first item that is none. -/
theorem intact_or_damaged (items : List (Except (Esrc.Error U) (StoredEnvelope E))) :
    (∃ events : List E, items = events.map fun e => .ok (.ok e)) ∨
    ∃ (events : List E) (item : Except (Esrc.Error U) (StoredEnvelope E))
      (rest : List (Except (Esrc.Error U) (StoredEnvelope E))) (e : Esrc.Error U),
      items = events.map (fun e => .ok (.ok e)) ++ item :: rest ∧ itemEvent item = .error e := by
  induction items with
  | nil => exact .inl ⟨[], rfl⟩
  | cons item items ih =>
      rcases item with e | text | event
      · exact .inr ⟨[], .error e, items, e, rfl, rfl⟩
      · exact .inr ⟨[], .ok (.error text), items, .format (.message text), rfl, rfl⟩
      · rcases ih with ⟨events, rfl⟩ | ⟨events, bad, rest, e, rfl, refused⟩
        · exact .inl ⟨event :: events, rfl⟩
        · exact .inr ⟨event :: events, bad, rest, e, rfl, refused⟩

/-- The loop ends at the first item that is no event. -/
theorem LiveViewQuery.replay_damaged (V : View E) (view : V.State) (events : List E)
    {item : Except (Esrc.Error U) (StoredEnvelope E)}
    (rest : List (Except (Esrc.Error U) (StoredEnvelope E))) {e : Esrc.Error U}
    (refused : itemEvent item = .error e) :
    replay V.toPartial view (events.map (fun e => .ok (.ok e)) ++ item :: rest) = .value (.error e) := by
  rw [replay_append]
  rcases item with e' | text | event
  · cases refused
    rfl
  · cases refused
    rfl
  · cases refused

end Items

section Queries
variable {U : ErrorTypes} [TextFormat] {E : Type} {V : View E} {R : Type} [Serialize R]

theorem LiveViewQuery.afterReplay_damaged (q : LiveViewQuery V.toPartial R) (events : List E)
    {item : Except (Esrc.Error U) (StoredEnvelope E)}
    (rest : List (Except (Esrc.Error U) (StoredEnvelope E))) {e : Esrc.Error U}
    (refused : itemEvent item = .error e) :
    q.afterReplay (.ok (events.map (fun e => .ok (.ok e)) ++ item :: rest)) = .ret (.error e) := by
  simp only [afterReplay, replay_damaged V V.default events rest refused]
  rfl

variable [ToString (Esrc.Error U)]

/-- What a live query came to on the items of its stream. -/
structure AllOrNothing (q : LiveViewQuery V.toPartial R)
    (items : List (Except (Esrc.Error U) (StoredEnvelope E))) (result : HandlerResult U) : Prop where
  success : (∃ bytes, result = .ok bytes) ↔ ∃ (events : List E) (data : Value),
    items = events.map (fun e => .ok (.ok e)) ∧ toValue (q.projection (V.fold events)) = .ok data
  whole : ∀ (events : List E) data, items = events.map (fun e => .ok (.ok e)) →
    toValue (q.projection (V.fold events)) = .ok data →
    result = .ok (TextFormat.print (QueryReply.encode ⟨true, some data, none⟩))
  damaged : ∀ (events : List E) item rest e,
    items = events.map (fun e => .ok (.ok e)) ++ item :: rest → itemEvent item = .error e →
    result = .error e
  unserializable : ∀ (events : List E) e, items = events.map (fun e => .ok (.ok e)) →
    toValue (q.projection (V.fold events)) = .error e → result = .error (.format (.json e))
  sent : ∀ e, result = .error e → fromSlice QueryReply (NatsQueryDispatcher.body result) =
    .ok ⟨false, none, some (.internal (toString e))⟩

theorem allOrNothing_of_afterReplay {q : LiveViewQuery V.toPartial R}
    {items : List (Except (Esrc.Error U) (StoredEnvelope E))} {result : HandlerResult U}
    (came : q.afterReplay (.ok items) = .ret result) : AllOrNothing q items result := by
  have encoded : ∀ events : List E, items = events.map (fun e => .ok (.ok e)) →
      result = encodeReply U (q.projection (V.fold events)) := by
    rintro events rfl
    rw [q.afterReplay_events] at came
    exact (Prog.ret.inj came).symm
  have damaged : ∀ (events : List E) item rest e,
      items = events.map (fun e => .ok (.ok e)) ++ item :: rest → itemEvent item = .error e →
      result = .error e := by
    rintro events item rest e rfl refused
    rw [q.afterReplay_damaged events rest refused] at came
    exact (Prog.ret.inj came).symm
  have whole : ∀ (events : List E) data, items = events.map (fun e => .ok (.ok e)) →
      toValue (q.projection (V.fold events)) = .ok data →
      result = .ok (TextFormat.print (QueryReply.encode ⟨true, some data, none⟩)) :=
    fun events data intact shape => (encoded events intact).trans (encodeReply_ok shape)
  have unserializable : ∀ (events : List E) e, items = events.map (fun e => .ok (.ok e)) →
      toValue (q.projection (V.fold events)) = .error e → result = .error (.format (.json e)) :=
    fun events e intact failed => (encoded events intact).trans (encodeReply_error failed)
  refine ⟨⟨?_, ?_⟩, whole, damaged, unserializable, ?_⟩
  · rintro ⟨bytes, rfl⟩
    rcases intact_or_damaged items with ⟨events, intact⟩ | ⟨events, item, rest, e, split, refused⟩
    · cases shape : toValue (q.projection (V.fold events)) with
      | ok data => exact ⟨events, data, intact, shape⟩
      | error e => cases unserializable events e intact shape
    · cases damaged events item rest e split refused
  · rintro ⟨events, data, intact, shape⟩
    exact ⟨_, whole events data intact shape⟩
  · rintro e rfl
    exact NatsQueryDispatcher.fromSlice_body_error e

variable [Uuid.Text] {S : Type} {id : Uuid} {payload : ByteArray}
  {answer : (op : ReplayOp) → (ReplaySig U E).Ret op}

/-- What a caller of the query sees, if anything, is the projection of the whole stream. -/
structure SeesWhole (q : LiveViewQuery V.toPartial R)
    (items : List (Except (Esrc.Error U) (StoredEnvelope E))) (result : HandlerResult U) {T : Type}
    [Deserialize T] (seen : Except Error T) : Prop where
  failed : ∀ e, result = .error e → seen = .error (.internal (toString e))
  whole : ∀ t, seen = .ok t → ∃ (events : List E) (data : Value),
    items = events.map (fun e => .ok (.ok e)) ∧ toValue (q.projection (V.fold events)) = .ok data ∧
    fromValue data = .ok t

/-- A live query answers for every item of its stream, or for none. -/
theorem live_query_all_or_nothing (q : LiveViewQuery V.toPartial R) (store : S)
    (decoded : fromSlice QueryEnvelope payload = .ok ⟨id⟩)
    {items : List (Except (Esrc.Error U) (StoredEnvelope E))}
    (stream : answer (.replayOne id 0) = .ok items) :
    ∃ result, (q.handle (U := U) store payload).eval answer = .value result ∧
      AllOrNothing q items result ∧
      ∀ {T : Type} [Deserialize T] (request : Transport) (serviceName : String),
        toVec (QueryEnvelope.mk id) = .ok payload →
        AnsweredBy request (querySubject serviceName q.handlerName)
          (NatsQueryDispatcher.service (q.toHandler S)) store answer →
        SeesWhole q items result (dispatchQuery T request serviceName q.handlerName id) := by
  have shown : ∃ result, q.afterReplay (.ok items) = .ret result := by
    rcases intact_or_damaged items with ⟨events, rfl⟩ | ⟨events, item, rest, e, rfl, refused⟩
    · exact ⟨_, q.afterReplay_events events⟩
    · exact ⟨_, q.afterReplay_damaged events rest refused⟩
  obtain ⟨result, came⟩ := shown
  have handled : (q.handle (U := U) store payload).eval answer = .value result := by
    rw [q.handle_decoded store decoded]
    simp only [Prog.eval, stream, came]
  have all := allOrNothing_of_afterReplay came
  refine ⟨result, handled, all, ?_⟩
  intro T _ request serviceName written delivers
  have failed : ∀ e, result = .error e →
      dispatchQuery T request serviceName q.handlerName id = .error (.internal (toString e)) := by
    rintro e rfl
    exact dispatchQuery_failed delivers written handled
  refine ⟨failed, fun t seen => ?_⟩
  cases result with
  | error e =>
      rw [failed e rfl] at seen
      cases seen
  | ok bytes =>
      obtain ⟨events, data, intact, shape⟩ := all.success.mp ⟨bytes, rfl⟩
      have replied := delivers _ _ _ (NatsQueryDispatcher.eval_service (q.toHandler S) handled)
      rw [all.whole events data intact shape] at replied
      exact ⟨events, data, intact, shape, fromValue_of_dispatchQuery_data written replied seen⟩

end Queries

open Counter in
/-- An event, an envelope that does not decode and an error: the query fails with the second. -/
theorem live_query_all_or_nothing_counter :
    ∃ (payload : ByteArray) (answer : (op : ReplayOp) → (ReplaySig errors CounterEvent).Ret op),
      answer (.replayOne Uuid.nil 0) =
        .ok [.ok (.ok (.incremented 5)), .ok (.error "truncated"), .error .conflict] ∧
      ((⟨"Counter.GetState", id⟩ : LiveViewQuery view.toPartial Int).handle () payload).eval answer =
        .value (.error (.format (.message "truncated"))) := by
  obtain ⟨payload, -, decoded⟩ := QueryEnvelope.readsBack ⟨Uuid.nil⟩
  let answer : (op : ReplayOp) → (ReplaySig errors CounterEvent).Ret op := fun _ =>
    .ok [.ok (.ok (.incremented 5)), .ok (.error "truncated"), .error .conflict]
  have stream : answer (.replayOne Uuid.nil 0) =
      .ok [.ok (.ok (.incremented 5)), .ok (.error "truncated"), .error .conflict] := rfl
  obtain ⟨result, came, all, -⟩ := live_query_all_or_nothing
    (⟨"Counter.GetState", id⟩ : LiveViewQuery view.toPartial Int) () decoded stream
  refine ⟨payload, answer, stream, ?_⟩
  rw [came, all.damaged [.incremented 5] (.ok (.error "truncated")) [.error .conflict] _ rfl rfl]

end EsrcCqrs
