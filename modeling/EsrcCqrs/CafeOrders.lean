import EsrcCqrs.CafeDomain
import EsrcCqrs.GivenRoots
import EsrcCqrs.QueryHandlers

/-! The orders of the cafe, placed and completed through the aggregate's own endpoints and
through the service's, and the read model that its queries show of them. -/

namespace EsrcCqrs.Cafe
open Json Interaction KeyedLog RequestLoop

instance : Serialize OrderCommand where
  toValue
    | .placeOrder item quantity => do
        return .object [("PlaceOrder", .object [("item", ← toValue item), ("quantity", ← toValue quantity)])]
    | .completeOrder => .ok (.string "CompleteOrder")

instance : Deserialize OrderCommand where
  fromValue
    | .string "CompleteOrder" => .ok .completeOrder
    | .object [("CompleteOrder", .null)] => .ok .completeOrder
    | .object [("PlaceOrder", v)] => do
        let item ← required String ["item", "quantity"] "item" v
        let quantity ← required UInt32 ["item", "quantity"] "quantity" v
        return .placeOrder item quantity
    | .string other => .error (.unknownVariant other)
    | .object [(other, _)] => .error (.unknownVariant other)
    | _ => .error .invalidType

instance : Serialize order.Command := inferInstanceAs (Serialize OrderCommand)
instance : Deserialize order.Command := inferInstanceAs (Deserialize OrderCommand)

theorem orderCommand_roundTrips (c : OrderCommand) : RoundTrips c := by
  cases c with
  | placeOrder item quantity =>
      let fields : Value := .object [("item", .string item), ("quantity", .number ⟨quantity.toNat, 0⟩)]
      have decoded : fromValue (α := OrderCommand) (.object [("PlaceOrder", fields)]) =
          (required String ["item", "quantity"] "item" fields >>= fun item =>
            required UInt32 ["item", "quantity"] "quantity" fields >>= fun quantity =>
            .ok (.placeOrder item quantity)) := rfl
      have first : required String ["item", "quantity"] "item" fields = .ok item := rfl
      have second : required UInt32 ["item", "quantity"] "quantity" fields = .ok quantity :=
        (required_of_field rfl).trans (fromValue_u32 quantity)
      refine ⟨.object [("PlaceOrder", fields)], rfl, ?_⟩
      rw [decoded, first, second]
      rfl
  | completeOrder => exact ⟨_, rfl, rfl⟩

theorem orderEnvelope_readsBack [TextFormat] [Uuid.Text] (id : Uuid) (c : OrderCommand) :
    ReadsBack (CommandEnvelope.mk id c) := by
  refine (CommandEnvelope.roundTrips id (orderCommand_roundTrips c)).readsBack ?_
  cases c with
  | placeOrder item quantity => exact CommandEnvelope.legible id rfl (by decide : 2 < 127)
  | completeOrder => exact CommandEnvelope.legible id rfl (by decide : 0 < 127)

/-- `Debug` of a status, which the read model shows. -/
def OrderStatus.debug : OrderStatus → String
  | .pending => "Pending"
  | .completed => "Completed"

structure OrderState where
  status : String
  item : Option String
  quantity : UInt32

/-- `View::apply`: both arms print the pending status. -/
def OrderState.apply (state : OrderState) : OrderEvent → OrderState
  | .orderPlaced item quantity => ⟨OrderStatus.debug .pending, some item, quantity⟩
  | .orderCompleted => { state with status := OrderStatus.debug .pending }

abbrev orderState : View OrderEvent := ⟨OrderState, ⟨"", none, 0⟩, OrderState.apply⟩

instance : Serialize OrderState where
  toValue s := do
    return .object [("status", ← toValue s.status), ("item", ← toValue s.item),
      ("quantity", ← toValue s.quantity)]

section Streams

/-- What can be said of one order: it is placed any number of times, and completed only right
after it was placed. -/
inductive OrderStream : List OrderEvent → Prop
  | new : OrderStream []
  | placed {events : List OrderEvent} (item : String) (quantity : UInt32) :
      OrderStream events → OrderStream (events ++ [.orderPlaced item quantity])
  | completed {events : List OrderEvent} (item : String) (quantity : UInt32) :
      OrderStream events → OrderStream (events ++ [.orderPlaced item quantity] ++ [.orderCompleted])

theorem process_completeOrder {o : Order} {e : OrderEvent} (h : process o .completeOrder = .ok e) :
    o.status ≠ .completed ∧ o.item.isNone = false ∧ e = .orderCompleted := by
  simp only [process] at h
  split at h
  · cases h
  · next pending =>
      split at h
      · cases h
      · next chosen =>
          cases h
          exact ⟨pending, Bool.eq_false_of_not_eq_true chosen, rfl⟩

theorem OrderStream.placed_last {events : List OrderEvent} (h : OrderStream events)
    (pending : (order.fold events).status ≠ .completed) (chosen : (order.fold events).item.isNone = false) :
    ∃ before item quantity, OrderStream before ∧ events = before ++ [.orderPlaced item quantity] := by
  cases h with
  | new => cases chosen
  | placed item quantity before => exact ⟨_, item, quantity, before, rfl⟩
  | completed item quantity before =>
      rw [Aggregate.fold_snoc] at pending
      exact absurd rfl pending

/-- The streams that the aggregate decides are exactly these. -/
theorem decidedStream_iff {events : List order.Event} :
    DecidedStream events ↔ OrderStream events := by
  constructor
  · intro h
    induction h with
    | nil => exact .new
    | @snoc events command e _ processed ih =>
        cases command with
        | placeOrder item quantity =>
            cases processed
            exact ih.placed item quantity
        | completeOrder =>
            obtain ⟨pending, chosen, rfl⟩ := process_completeOrder processed
            obtain ⟨before, item, quantity, earlier, rfl⟩ := ih.placed_last pending chosen
            exact earlier.completed item quantity
  · intro h
    have placed (state : Order) (item : String) (quantity : UInt32) :
        order.process state (.placeOrder item quantity) = .ok (.orderPlaced item quantity) := rfl
    have completed (state : Order) (item : String) (quantity : UInt32) :
        order.process (order.apply state (.orderPlaced item quantity)) .completeOrder =
          .ok .orderCompleted := rfl
    induction h with
    | new => exact .nil
    | placed item quantity _ ih => exact ih.snoc (placed _ item quantity)
    | @completed events item quantity _ ih =>
        have done := completed (order.fold events) item quantity
        rw [← Aggregate.fold_snoc] at done
        exact (ih.snoc (placed _ item quantity)).snoc done

/-- A completed order is one that was placed and completed last. -/
theorem OrderStream.completed_last {events : List OrderEvent} (h : OrderStream events)
    (completed : (order.fold events).status = .completed) :
    ∃ before item quantity, events = before ++ [.orderPlaced item quantity] ++ [.orderCompleted] := by
  cases h with
  | new => cases completed
  | placed item quantity before =>
      rw [Aggregate.fold_snoc] at completed
      cases completed
  | completed item quantity before => exact ⟨_, item, quantity, rfl⟩

end Streams

section Endpoints
variable [TextFormat] [Uuid.Text] [ToString (Esrc.Error errors)]

/-- The endpoint of the service handler. -/
def cafeService (S : Type) (name : String) : Service (StoreSig order) S (HandlerResult errors) :=
  NatsCommandDispatcher.service (ServiceCommandHandler.new CafeServiceHandler.handle name).toHandler

theorem cafeService_offersGiven (S : Type) (name : String) : OffersGiven (cafeService S name) := by
  have writes (store : S) (id : Uuid) (command : OrderCommand) :
      OffersTo [] (CafeServiceHandler.write store id command) := by
    refine .read (fun e => .ret _) fun root => .call ?_ fun r => .ret _
    rintro root' command' ⟨⟩
    exact List.mem_singleton_self root
  refine serviceHandler_offersGiven (ServiceCommandHandler.new CafeServiceHandler.handle name) ?_
  intro store command
  cases command with
  | placeOrder id item quantity => exact writes store id _
  | completeOrder id => exact writes store id _

variable {ι S : Type} [DecidableEq ι] {svc : ι → Service (StoreSig order) S (HandlerResult errors)}
  {store : ι → S}

/-- With an endpoint of the aggregate, and any other handlers that keep to given roots, these are
the streams that an order can have. -/
theorem order_streams_iff {i : ι} {handlerName : String} (own : svc i = aggregateService order S handlerName)
    (offers : ∀ j, OffersGiven (svc j)) (id : Uuid) (events : List order.Event) :
    (∃ trace s, Cluster.Run svc (FaultyStep order) store [] trace s ∧ entriesOf id s.world = events) ↔
      OrderStream events := by
  constructor
  · rintro ⟨trace, s, run, rfl⟩
    exact decidedStream_iff.mp ((run_decided run .nil offers).stream id)
  · intro stream
    obtain ⟨trace, s, run, world, -⟩ :=
      decided_reached faultyStep_answer own orderEnvelope_readsBack ((decidedStream_iff.mpr stream).log id)
    refine ⟨trace, s, run, ?_⟩
    rw [world]
    exact entriesOf_map_pair id events

end Endpoints

section Queries
variable [TextFormat] [Uuid.Text]

/-- Both kinds of queries over a log answer with this view of `id`. -/
structure QueriesShow (log : EventLog order) (id : Uuid) (state : OrderState) : Prop where
  live : ∀ {R S : Type} [Serialize R] (q : LiveViewQuery orderState.toPartial R) (store : S)
    {payload : ByteArray} (answer : (op : ReplayOp) → (ReplaySig errors OrderEvent).Ret op),
    fromSlice QueryEnvelope payload = .ok ⟨id⟩ →
    answer (.replayOne id 0) = .ok ((entriesOf id log).map fun e => .ok (.ok e)) →
    (q.handle store payload).eval answer = .value (encodeReply errors (q.projection state))
  memory : ∀ {R S : Type} [Serialize R] (q : MemoryViewQuery orderState.toPartial R) (store : S)
    {payload : ByteArray}, fromSlice QueryEnvelope payload = .ok ⟨id⟩ →
    (q.handle store payload).eval (RwLock.Op.answer (log.foldl MemoryView.projected MemoryView.new)) =
      .value (encodeReply errors (q.projection state))

theorem queriesShow_fold (log : EventLog order) (id : Uuid) :
    QueriesShow log id (orderState.fold (entriesOf id log)) where
  live q store _ answer decoded stream := q.eval_handle store decoded answer _ stream
  memory q store _ decoded := by
    rw [q.eval_handle store _ decoded, MemoryViewQuery.reply, MemoryView.getD_foldl_projected]

variable {ι S R : Type} [DecidableEq ι] {svc : ι → Service (StoreSig order) S R} {store : ι → S}
  {trace : List (Label ι R)} {s : Cluster ι (StoreSig order) S R (EventLog order)}

/-- No query tells a completed order from the pending one that it was. -/
theorem completed_orders_show_pending (h : Cluster.Run svc (FaultyStep order) store [] trace s)
    (offers : ∀ i, OffersGiven (svc i)) {id : Uuid}
    (completed : (order.fold (entriesOf id s.world)).status = .completed) :
    ∃ n < s.world.length, ∃ item quantity,
      order.fold (entriesOf id (s.world.take n)) = ⟨.pending, some item, quantity⟩ ∧
      QueriesShow (s.world.take n) id ⟨"Pending", some item, quantity⟩ ∧
      QueriesShow s.world id ⟨"Pending", some item, quantity⟩ := by
  have stream := decidedStream_iff.mp ((run_decided h .nil offers).stream id)
  obtain ⟨before, item, quantity, split⟩ := stream.completed_last completed
  obtain ⟨n, early, earlier⟩ := entriesOf_take_of_snoc id split
  have shown := queriesShow_fold (s.world.take n) id
  have shown' := queriesShow_fold s.world id
  rw [earlier, View.fold_snoc] at shown
  rw [split, View.fold_snoc, View.fold_snoc] at shown'
  refine ⟨n, early, item, quantity, ?_, shown, shown'⟩
  rw [earlier, Aggregate.fold_snoc]
  rfl

end Queries

section Runs

/-- The two command handlers of the example. -/
def commandHandlers : Bool → CommandHandler (StoreSig order) Unit (Esrc.Error errors)
  | false => (AggregateCommandHandler.new "Order" : AggregateCommandHandler order).toHandler Unit
  | true => (ServiceCommandHandler.new CafeServiceHandler.handle "CafeService").toHandler

def services (i : Bool) : Service (StoreSig order) Unit (HandlerResult errors) :=
  NatsCommandDispatcher.service (commandHandlers i)

theorem services_order : services false = aggregateService order Unit "Order" := rfl

theorem services_offerGiven (i : Bool) : OffersGiven (services i) := by
  cases i with
  | false => exact aggregateService_offersGiven order "Order"
  | true => exact cafeService_offersGiven Unit "CafeService"

def espresso : List order.Event := [.orderPlaced "Espresso" 2, .orderCompleted]

theorem espresso_decided : DecidedStream espresso :=
  decidedStream_iff.mpr (.completed "Espresso" 2 .new)

theorem espresso_reached : ∃ trace s, Cluster.Run services (FaultyStep order) (fun _ => ()) [] trace s ∧
    s.world = espresso.map fun e => (Uuid.nil, e) := by
  obtain ⟨trace, s, run, world, idle⟩ : ∃ trace s,
      Cluster.Run services (FaultyStep order) (fun _ => ()) [] trace s ∧
        s.world = espresso.map (fun e => (Uuid.nil, e)) ∧ (s.endpoint false).Idle :=
    decided_reached faultyStep_answer services_order orderEnvelope_readsBack
      (espresso_decided.log Uuid.nil)
  exact ⟨trace, s, run, world⟩

theorem stored_states_keep_invariants_cafe : ∃ log : EventLog order, log.length = 2 ∧
    ∀ id n, (order.fold (entriesOf id (log.take n))).status = .completed →
      (order.fold (entriesOf id (log.take n))).item.isSome := by
  obtain ⟨trace, s, run, world⟩ := espresso_reached
  refine ⟨s.world, congrArg List.length world, fun id n => ?_⟩
  apply stored_states_keep_invariants run .nil services_offerGiven
    (I := fun o : Order => o.status = .completed → o.item.isSome) nofun
  intro o command e _ processed
  cases command with
  | placeOrder item quantity =>
      cases processed
      exact nofun
  | completeOrder =>
      obtain ⟨-, chosen, rfl⟩ := process_completeOrder processed
      intro _
      change o.item.isSome
      rw [← Option.not_isNone, chosen]
      rfl

theorem reached_logs_iff_cafe : ∃ trace s,
    Cluster.Run services (FaultyStep order) (fun _ => ()) [] trace s ∧
      s.world = espresso.map fun e => (Uuid.nil, e) :=
  (reached_logs_iff services_order services_offerGiven orderEnvelope_readsBack _).mpr
    (espresso_decided.log Uuid.nil)

theorem order_streams_iff_cafe : ∃ trace s,
    Cluster.Run services (FaultyStep order) (fun _ => ()) [] trace s ∧
      entriesOf Uuid.nil s.world = espresso :=
  (order_streams_iff services_order services_offerGiven Uuid.nil espresso).mpr
    (.completed "Espresso" 2 .new)

theorem completed_orders_show_pending_cafe : ∃ (log : EventLog order) (item : String) (quantity : UInt32),
    (order.fold (entriesOf Uuid.nil log)).status = .completed ∧
      QueriesShow log Uuid.nil ⟨"Pending", some item, quantity⟩ := by
  obtain ⟨trace, s, run, world⟩ := espresso_reached
  have completed : (order.fold (entriesOf Uuid.nil s.world)).status = .completed := by
    rw [world, entriesOf_map_pair]
    rfl
  obtain ⟨-, -, item, quantity, -, -, shown⟩ :=
    completed_orders_show_pending run services_offerGiven completed
  exact ⟨s.world, item, quantity, completed, shown⟩

end Runs
end EsrcCqrs.Cafe
