import EsrcCqrs.MemorySessions

/-! What a client of the cafe is told about an order of its own: by its earlier requests alone,
whatever the others order meanwhile. -/

namespace EsrcCqrs.Cafe
open Json Interaction KeyedLog RequestLoop CqrsClient

/-- The view that the accepted commands of an order come to. -/
def lastPlaced : List OrderCommand → OrderState :=
  List.foldl (fun shown command => match command with
    | .placeOrder item quantity => ⟨OrderStatus.debug .pending, some item, quantity⟩
    | .completeOrder => shown) orderState.default

/-- What becomes of a command after these. -/
def decided (earlier : List OrderCommand) : OrderCommand → Except OrderError Unit
  | .placeOrder _ _ => .ok ()
  | .completeOrder =>
      match earlier.getLast? with
      | none => .error .notPlaced
      | some .completeOrder => .error .alreadyCompleted
      | some (.placeOrder _ _) => .ok ()

/-- How far an order is after these commands. -/
structure Ordered (commands : List OrderCommand) (events : List OrderEvent) : Prop where
  shown : orderState.fold events = lastPlaced commands
  empty : (order.fold events).item.isNone = true ↔ commands = []
  status : (order.fold events).status = .completed ↔ commands.getLast? = some .completeOrder
  placed : commands ≠ [] → (lastPlaced commands).status = OrderStatus.debug .pending

theorem ordered_new : Ordered [] [] where
  shown := rfl
  empty := iff_of_true rfl rfl
  status := iff_of_false nofun nofun
  placed := absurd rfl

namespace Ordered
variable {commands : List OrderCommand} {events : List OrderEvent}

theorem process_ok (h : Ordered commands events) {command : OrderCommand}
    (accepted : decided commands command = .ok ()) :
    ∃ e, process (order.fold events) command = .ok e := by
  cases command with
  | placeOrder item quantity => exact ⟨_, rfl⟩
  | completeOrder =>
      simp only [decided] at accepted
      split at accepted
      · cases accepted
      · cases accepted
      · next item quantity last =>
          have pending : (order.fold events).status ≠ .completed := by
            rw [ne_eq, h.status, last]
            exact nofun
          have chosen : (order.fold events).item.isNone ≠ true := by
            rw [ne_eq, h.empty]
            rintro rfl
            cases last
          refine ⟨.orderCompleted, ?_⟩
          rw [process, if_neg pending, if_neg chosen]

theorem process_error (h : Ordered commands events) {command : OrderCommand} {e : OrderError}
    (rejected : decided commands command = .error e) :
    process (order.fold events) command = .error e := by
  cases command with
  | placeOrder item quantity => cases rejected
  | completeOrder =>
      simp only [decided] at rejected
      split at rejected
      · next none =>
          cases rejected
          have nothing : commands = [] := List.getLast?_eq_none_iff.mp none
          have pending : (order.fold events).status ≠ .completed := by
            rw [ne_eq, h.status, none]
            exact nofun
          rw [process, if_neg pending, if_pos (h.empty.mpr nothing)]
      · next last =>
          cases rejected
          rw [process, if_pos (h.status.mpr last)]
      · cases rejected

theorem placeOrder (item : String) (quantity : UInt32) :
    Ordered (commands ++ [.placeOrder item quantity]) (events ++ [.orderPlaced item quantity]) := by
  refine ⟨?_, ?_, ?_, ?_⟩
  · rw [View.fold_snoc, lastPlaced, List.foldl_append]
    rfl
  · rw [Aggregate.fold_snoc]
    exact iff_of_false nofun (List.append_ne_nil_of_right_ne_nil _ (List.cons_ne_nil _ _))
  · rw [Aggregate.fold_snoc, List.getLast?_concat]
    exact iff_of_false nofun nofun
  · intro _
    rw [lastPlaced, List.foldl_append]
    rfl

theorem completeOrder (h : Ordered commands events) (some : commands ≠ []) :
    Ordered (commands ++ [.completeOrder]) (events ++ [.orderCompleted]) := by
  have same : lastPlaced (commands ++ [.completeOrder]) = lastPlaced commands := by
    rw [lastPlaced, List.foldl_append]
    rfl
  refine ⟨?_, ?_, ?_, ?_⟩
  · rw [View.fold_snoc, h.shown, same]
    -- the status is printed as pending, which it already was
    have pending := h.placed some
    cases shown : lastPlaced commands with
    | mk status item quantity =>
        rw [shown] at pending
        cases pending
        rfl
  · rw [Aggregate.fold_snoc]
    exact iff_of_false (fun none => some (h.empty.mp none))
      (List.append_ne_nil_of_right_ne_nil _ (List.cons_ne_nil _ _))
  · rw [Aggregate.fold_snoc, List.getLast?_concat]
    exact iff_of_true rfl rfl
  · intro _
    rw [same]
    exact h.placed some

end Ordered

theorem ordered_of_decides {commands : List order.Command} {events : List order.Event}
    (h : Decides (A := order) [] commands events) : Ordered commands events := by
  induction h with
  | nil => exact ordered_new
  | @snoc commands events command e _ processed ih =>
      cases command with
      | placeOrder item quantity =>
          cases processed
          exact .placeOrder item quantity
      | completeOrder =>
          obtain ⟨-, chosen, rfl⟩ := process_completeOrder processed
          refine ih.completeOrder fun nothing => ?_
          rw [ih.empty.mpr nothing] at chosen
          cases chosen

/-- Earlier events are those of earlier commands. -/
theorem decides_take {commands : List order.Command} {events : List order.Event}
    (h : Decides (A := order) [] commands events) (n : Nat) :
    Decides (A := order) [] (commands.take n) (events.take n) := by
  have same : commands.length = events.length := by
    clear n
    induction h with
    | nil => rfl
    | snoc _ _ ih => simp only [List.length_append, List.length_singleton, ih]
  induction h with
  | nil =>
      rw [List.take_nil, List.take_nil]
      exact .nil
  | @snoc commands events command e earlier processed ih =>
      simp only [List.length_append, List.length_singleton, Nat.add_right_cancel_iff] at same
      rcases Nat.lt_or_ge events.length n with whole | within
      · rw [List.take_of_length_le (by rw [List.length_append]; simp only [List.length_singleton]; omega),
          List.take_of_length_le (by rw [List.length_append]; simp only [List.length_singleton]; omega)]
        exact earlier.snoc processed
      · rw [List.take_append_of_le_length (by omega), List.take_append_of_le_length within]
        exact ih same

section Clients
variable {κ : Type}

/-- The live query of the example. -/
def getState : LiveEndpoint order.Event :=
  ⟨orderState, OrderState, inferInstance, .newForSerializableView orderState.toPartial "Order.GetState"⟩

/-- Its query on a memory view, of which each process has its own. -/
def getStateMemoryView (k : κ) : MemoryEndpoint fun _ : κ => orderState :=
  ⟨k, OrderState, inferInstance, .newForSerializableView orderState.toPartial "Order.GetState.MemoryView"⟩

/-- An endpoint for the commands of orders and the two queries. -/
abbrev OrderEndpoint (κ : Type) := ViewEndpoint order fun _ : κ => orderState

/-- The queries are those of the example. -/
def OrderEndpoint.Queries : OrderEndpoint κ → Prop
  | .stream (.query q) => q = getState
  | .memory q => q = getStateMemoryView q.view
  | .stream (.command _) => True

variable [TextFormat] [Uuid.Text] [ToString (Esrc.Error errors)]

/-- What a request is answered after these commands were accepted. -/
inductive Told (id : Uuid) (earlier : List OrderCommand) : OrderEndpoint κ → ByteArray → ByteArray → Prop
  | accepted {k : CommandEndpoint order} {payload : ByteArray} {command : OrderCommand} :
      k.reads payload = some (id, command) → decided earlier command = .ok () →
      Told id earlier (.stream (.command k)) payload
        (NatsCommandDispatcher.body (U := errors) (.ok (k.success id)))
  | rejected {k : CommandEndpoint order} {payload : ByteArray} {command : OrderCommand} {e : OrderError}
      {r : HandlerResult errors} :
      k.reads payload = some (id, command) → decided earlier command = .error e →
      k.after id (.error (.external (.typed () e))) = .value r →
      Told id earlier (.stream (.command k)) payload (NatsCommandDispatcher.body r)
  | shown {payload : ByteArray} : fromSlice QueryEnvelope payload = .ok ⟨id⟩ →
      Told id earlier (.stream (.query getState)) payload
        (NatsQueryDispatcher.body (encodeReply errors (lastPlaced earlier)))
  | behind {k : κ} {payload : ByteArray} (n : Nat) : fromSlice QueryEnvelope payload = .ok ⟨id⟩ →
      Told id earlier (.memory (getStateMemoryView k)) payload
        (NatsQueryDispatcher.body (encodeReply errors (lastPlaced (earlier.take n))))

variable {S : Type} {id : Uuid} {commands : List order.Command} {events events' : List order.Event}
  {payload : ByteArray} {r : HandlerResult errors}

theorem told_of_wrote (ordered : Ordered commands events) {k : CommandEndpoint order} {command : OrderCommand}
    (read : k.reads payload = some (id, command))
    (wrote : Wrote (fun _ => False) id command .error (k.after id) events (.value r) events') :
    Told id commands (.stream (.command k) : OrderEndpoint κ) payload (NatsCommandDispatcher.body r) := by
  generalize came : Outcome.value r = o at wrote
  cases outcome : decided commands command with
  | ok u =>
      obtain ⟨e, processed⟩ := ordered.process_ok outcome
      cases wrote with
      | stored _ same =>
          rw [k.after_ok same] at came
          cases came
          exact .accepted read outcome
      | rejected rejected => cases processed.symm.trans rejected
      | failed fault | unread fault => exact fault.elim
  | error e =>
      have rejects := ordered.process_error outcome
      cases wrote with
      | stored processed => cases rejects.symm.trans processed
      | rejected rejected =>
          cases rejects.symm.trans rejected
          exact .rejected read outcome came.symm
      | failed fault | unread fault => exact fault.elim

theorem told_of_served (decides : Decides (A := order) [] commands events) {k : OrderEndpoint κ}
    (queries : k.Queries) (served : ViewServed (fun _ => False) id k payload events (.value r) events') :
    Told id commands k payload ((k.serve S).reply r) := by
  generalize came : Outcome.value r = o at served
  cases served with
  | @behind q _ _ n decoded =>
      cases came
      obtain ⟨k, R, encode, query⟩ := q
      cases queries
      have view : orderState.fold (events.take n) = lastPlaced (commands.take n) :=
        (ordered_of_decides (decides_take decides n)).shown
      change Told _ _ _ _ (NatsQueryDispatcher.body (encodeReply errors (orderState.fold (events.take n))))
      rw [view]
      exact .behind n decoded
  | stream served =>
      cases served with
      | @command k _ command _ _ _ read wrote =>
          cases came
          have body : (((.stream (.command k) : OrderEndpoint κ)).serve S).reply r =
              NatsCommandDispatcher.body r := by
            cases k <;> rfl
          rw [body]
          exact told_of_wrote (ordered_of_decides decides) read wrote
      | shown decoded =>
          cases came
          cases queries
          have view : orderState.fold events = lastPlaced commands := (ordered_of_decides decides).shown
          change Told _ _ _ _ (NatsQueryDispatcher.body (encodeReply errors (orderState.fold events)))
          rw [view]
          exact .shown decoded
      | unreplayed _ fault => exact fault.elim

end Clients

section Callers

instance : Deserialize OrderState where
  fromValue v := do
    let status ← required String ["status", "item", "quantity"] "status" v
    let item ← optional String ["status", "item", "quantity"] "item" v
    let quantity ← required UInt32 ["status", "item", "quantity"] "quantity" v
    return ⟨status, item, quantity⟩

theorem orderState_roundTrips (state : OrderState) : RoundTrips state := by
  obtain ⟨status, item, quantity⟩ := state
  let fields : Value := .object [("status", .string status), ("item", (item.map Value.string).getD .null),
    ("quantity", .number ⟨quantity.toNat, 0⟩)]
  have encoded : toValue (OrderState.mk status item quantity) = .ok fields := by
    cases item with
    | none => rfl
    | some item => rfl
  have decoded : fromValue (α := OrderState) fields =
      (required String ["status", "item", "quantity"] "status" fields >>= fun status =>
        optional String ["status", "item", "quantity"] "item" fields >>= fun item =>
        required UInt32 ["status", "item", "quantity"] "quantity" fields >>= fun quantity =>
        .ok ⟨status, item, quantity⟩) := rfl
  have first : required String ["status", "item", "quantity"] "status" fields = .ok status := rfl
  have second : optional String ["status", "item", "quantity"] "item" fields = .ok item := by
    cases item with
    | none => rfl
    | some item => rfl
  have third : required UInt32 ["status", "item", "quantity"] "quantity" fields = .ok quantity :=
    (required_of_field rfl).trans (fromValue_u32 quantity)
  refine ⟨fields, encoded, ?_⟩
  rw [decoded, first, second, third]
  rfl

theorem orderState_legible [TextFormat] (state : OrderState) : LegibleResponse state := by
  obtain ⟨status, item, quantity⟩ := state
  cases item with
  | none => exact legibleResponse_of_depth rfl (by decide : 1 < 127)
  | some item => exact legibleResponse_of_depth rfl (by decide : 1 < 127)

/-- The name of a variant, as it is serialized. -/
def OrderError.variant : OrderError → String
  | .alreadyCompleted => "AlreadyCompleted"
  | .notPlaced => "NotPlaced"

/-- What a caller is told of a command, when domain errors come to it in this form. -/
def told (id : Uuid) (form : OrderError → String) : Except OrderError Unit → Except Error Uuid
  | .ok _ => .ok id
  | .error e => .error (.external (.string (form e)))

variable {κ : Type} [TextFormat] [Uuid.Text]

/-- A connection on which this reply comes. -/
def replying (reply : ByteArray) : Transport := fun _ _ => .ok reply

theorem reads_order (name : String) {id : Uuid} {command : OrderCommand} {payload : ByteArray}
    (written : toVec (CommandEnvelope.mk id command) = .ok payload) :
    (CommandEndpoint.aggregate name : CommandEndpoint order).reads payload = some (id, command) := by
  obtain ⟨payload', written', decoded⟩ := orderEnvelope_readsBack id command
  cases written.symm.trans written'
  simp only [CommandEndpoint.reads, decoded]
  rfl

theorem reads_cafe (name : String) {command : CafeCommands} {payload : ByteArray}
    (written : toVec command = .ok payload) :
    (CommandEndpoint.service CafeCommands inferInstance through name : CommandEndpoint order).reads payload =
      some (route command) := by
  obtain ⟨payload', written', decoded⟩ := command_readsBack command
  cases written.symm.trans written'
  simp only [CommandEndpoint.reads, decoded]
  rfl

/-- What the methods of the client make of an exchange, after these commands were accepted. -/
structure CallerTold (id : Uuid) (earlier : List OrderCommand) (endpoint : OrderEndpoint κ)
    (payload reply : ByteArray) : Prop where
  command : ∀ {serviceName name command}, endpoint = .stream (.command (.aggregate name)) →
    toVec (CommandEnvelope.mk id command) = .ok payload →
    dispatchCommand (replying reply) serviceName name id command =
      told id OrderError.variant (decided earlier command)
  service : ∀ {serviceName name} {command : CafeCommands},
    endpoint = .stream (.command (.service CafeCommands inferInstance through name)) →
    (route command).1 = id → toVec command = .ok payload →
    dispatchServiceCommand Uuid (replying reply) serviceName name command =
      told id OrderError.text (decided earlier (route command).2)
  query : ∀ {serviceName name}, endpoint = .stream (.query getState) →
    toVec (QueryEnvelope.mk id) = .ok payload →
    dispatchQuery OrderState (replying reply) serviceName name id = .ok (lastPlaced earlier)
  -- how far the view is behind does not depend on who reads the reply
  memory : ∀ {k}, endpoint = .memory (getStateMemoryView k) → toVec (QueryEnvelope.mk id) = .ok payload →
    ∃ n, ∀ {serviceName name},
      dispatchQuery OrderState (replying reply) serviceName name id = .ok (lastPlaced (earlier.take n))

variable [ToString (Esrc.Error errors)] {id : Uuid} {earlier : List OrderCommand}
  {endpoint : OrderEndpoint κ} {payload reply : ByteArray}

theorem dispatchQuery_shown {serviceName name : String} (written : toVec (QueryEnvelope.mk id) = .ok payload)
    (state : OrderState) : dispatchQuery OrderState
      (replying (NatsQueryDispatcher.body (encodeReply errors state))) serviceName name id = .ok state := by
  obtain ⟨data, encoded, back⟩ := orderState_roundTrips state
  have object : data ≠ .null := by
    rintro rfl
    cases back
  rw [encodeReply_ok encoded, dispatchQuery_data written rfl (orderState_legible state data encoded),
    if_neg object, back]
  rfl

theorem Told.caller (h : Told id earlier endpoint payload reply) : CallerTold id earlier endpoint payload reply := by
  refine ⟨?_, ?_, ?_, ?_⟩
  · rintro serviceName name command rfl written
    have own := reads_order name written
    cases h with
    | accepted read outcome =>
        cases own.symm.trans read
        rw [outcome]
        exact dispatchCommand_of_reply (sendCommand_delivered ⟨id, true, none⟩
          (CommandReply.legible (by decide : 0 < 127)) written rfl)
    | @rejected _ _ _ e _ read outcome converted =>
        cases own.symm.trans read
        rw [outcome]
        have replied : CommandEndpoint.after (.aggregate name : CommandEndpoint order) id
            (.error (.external (.typed () e))) = .value (.ok (TextFormat.print
              (CommandReply.encode ⟨id, false, some (.external (.string e.variant))⟩))) := by
          cases e <;> rfl
        cases replied.symm.trans converted
        exact dispatchCommand_of_reply
          (sendCommand_delivered ⟨id, false, some (.external (.string e.variant))⟩
            (CommandReply.legible (by decide : 1 < 127)) written rfl)
  · rintro serviceName name command rfl own written
    have reads := reads_cafe name written
    cases h with
    | accepted read outcome =>
        have routed := Option.some.inj (reads.symm.trans read)
        rw [routed, outcome]
        exact WriteThrough.dispatchServiceCommand_success written rfl
    | @rejected _ _ _ e _ read outcome converted =>
        have routed := Option.some.inj (reads.symm.trans read)
        rw [routed, outcome]
        have replied : CommandEndpoint.after
            (.service CafeCommands inferInstance through name : CommandEndpoint order) id
            (.error (.external (.typed () e))) =
              .value (.ok (WriteThrough.failure (.external (.string e.text)))) := by
          cases e <;> rfl
        cases replied.symm.trans converted
        exact dispatchServiceCommand_err written rfl
          (ServiceCommandReply.fromSlice_err (WriteThrough.toVec_err _)
            (ServiceCommandReply.legible_err (by decide : 1 < 127)))
  · rintro serviceName name rfl written
    cases h with
    | shown => exact dispatchQuery_shown written _
  · rintro k rfl written
    cases h with
    | behind n => exact ⟨n, dispatchQuery_shown written _⟩

/-- A client that orders for itself alone is told of its own earlier requests only, over every endpoint. -/
theorem clients_told_of_own_orders {ι S : Type} [DecidableEq ι] {endpoints : ι → OrderEndpoint κ} {id : Uuid}
    {store : ι → S} {log : EventLog order} {trace : List (SessionEvent ι (HandlerResult errors))}
    {s : Session ι (((StoreSig order).sum (ReplaySig errors order.Event)).sum (ViewsSig (A := order) fun _ : κ => orderState)) S
      (HandlerResult errors) (EventLog order)}
    (h : ViewSession endpoints (fun _ => False) id store log trace s) (new : entriesOf id log = [])
    (queries : ∀ i, (endpoints i).Queries) {before rest : List (Exchanged ι)} {x : Exchanged ι}
    (split : s.exchanged = before ++ x :: rest) :
    CallerTold id (acceptedBy (fun i => (endpoints i).accepted) before) (endpoints x.loop) x.payload x.reply := by
  obtain ⟨events, events', r, decides, served, replied⟩ := view_session_exchanged h split
  rw [new] at decides
  rw [replied]
  exact (told_of_served decides (queries x.loop) served).caller

end Callers

section Runs

/-- The endpoints of the example. -/
inductive CafeEndpoint where
  | order
  | cafeService
  | getState
  | getStateMemoryView
  deriving DecidableEq

def cafeEndpoints : CafeEndpoint → OrderEndpoint Unit
  | .order => .stream (.command (.aggregate "Order"))
  | .cafeService => .stream (.command (.service CafeCommands inferInstance through "CafeService"))
  | .getState => .stream (.query Cafe.getState)
  | .getStateMemoryView => .memory (Cafe.getStateMemoryView ())

theorem cafeEndpoints_queries (i : CafeEndpoint) : (cafeEndpoints i).Queries := by
  cases i with
  | order | cafeService => exact trivial
  | getState | getStateMemoryView => rfl

/-- An order is placed and completed, and a memory view shows it as it was at some time. -/
theorem clients_told_of_own_orders_cafe : ∃ trace s before x n,
    ViewSession cafeEndpoints (fun _ => False) Uuid.nil (fun _ => ()) [] trace s ∧
      s.exchanged = before ++ [x] ∧
      dispatchQuery OrderState (replying x.reply) "cafe-query" "Order.GetState.MemoryView" Uuid.nil =
        .ok (lastPlaced (List.take n [.placeOrder "Espresso" 2, .completeOrder])) := by
  have placed : Decides (A := order) (entriesOf Uuid.nil []) ([] ++ [.placeOrder "Espresso" 2])
    ([] ++ [.orderPlaced "Espresso" 2]) := .snoc .nil rfl
  have completed : Decides (A := order) (entriesOf Uuid.nil [])
    ([] ++ [.placeOrder "Espresso" 2] ++ [.completeOrder])
    ([] ++ [.orderPlaced "Espresso" 2] ++ [.orderCompleted]) := .snoc placed rfl
  have requests : ∀ command : OrderCommand, ∃ i k payload, cafeEndpoints i = .stream (.command k) ∧
      k.reads payload = some (Uuid.nil, command) := by
    intro command
    obtain ⟨payload, written, -⟩ := orderEnvelope_readsBack Uuid.nil command
    exact ⟨.order, _, payload, rfl, reads_order _ written⟩
  obtain ⟨trace, s, before, x, run, exchanged, same, asked, written⟩ :=
    completed.view_session (fun command _ => requests command) (i := .getStateMemoryView) rfl
  obtain ⟨n, told⟩ := (clients_told_of_own_orders run rfl cafeEndpoints_queries exchanged).memory asked written
  refine ⟨trace, s, before, x, n, run, exchanged, ?_⟩
  rw [told, same]
  rfl

end Runs
end EsrcCqrs.Cafe
