import EsrcCqrs.CommandHandlers
import EsrcCqrs.QueryHandlers
import EsrcCqrs.RequestLoop

/-! The two dispatchers: one request loop for each handler, and `run`, which starts the
service, spawns the loops into one task set and joins them. -/

namespace EsrcCqrs
open Json Interaction RequestLoop

/-- What a handler's future resolves to. -/
abbrev HandlerResult (U : ErrorTypes) := Except (Esrc.Error U) ByteArray

section Replies
variable {U : ErrorTypes} [TextFormat] [ToString (Esrc.Error U)] {F : Signature} {S : Type}

namespace NatsCommandDispatcher
variable [Uuid.Text]

def failure (e : Esrc.Error U) : CommandReply := ⟨Uuid.nil, false, some (.internal (toString e))⟩

def body : HandlerResult U → ByteArray
  | .ok reply => reply
  | .error e => (toVec (failure e)).toOption.getD ByteArray.empty

def service (handler : CommandHandler F S (Esrc.Error U)) : Service F S (HandlerResult U) :=
  ⟨handler.handle, body⟩

/-- The services of a list of handlers, in its order. -/
def services (handlers : List (CommandHandler F S (Esrc.Error U))) :
    Fin handlers.length → Service F S (HandlerResult U) :=
  fun i => service handlers[i]

/-- The endpoint of an aggregate handler. -/
def aggregateService (A : Aggregate U) [Deserialize A.Command] [Serialize A.Error] (S : Type)
    (handlerName : String) : Service (StoreSig A) S (HandlerResult U) :=
  service ((AggregateCommandHandler.new handlerName : AggregateCommandHandler A).toHandler S)

theorem body_error (e : Esrc.Error U) : body (.error e) = TextFormat.print (failure e).encode := rfl

theorem fromSlice_body_error (e : Esrc.Error U) :
    fromSlice CommandReply (body (.error e)) = .ok (failure e) := by
  exact CommandReply.fromSlice_encode (CommandReply.legible (by decide : 1 < 127))

/-- The same bytes, read by the caller of a service command. -/
theorem fromSlice_body_as_service {R : Type} [Deserialize R] (e : Esrc.Error U) :
    fromSlice (ServiceCommandReply R) (body (.error e)) = .ok (.err (.internal (toString e))) := by
  exact fromSlice_print_ok (CommandReply.legible (by decide : 1 < 127))
    (CommandReply.fromValue_as_service (failure e))

end NatsCommandDispatcher

export NatsCommandDispatcher (aggregateService)

namespace NatsQueryDispatcher

def failure (e : Esrc.Error U) : QueryReply := ⟨false, none, some (.internal (toString e))⟩

def body : HandlerResult U → ByteArray
  | .ok reply => reply
  | .error e => (toVec (failure e)).toOption.getD ByteArray.empty

/-- The store handle is shared: a query leaves it as it is. -/
def service (handler : QueryHandler F S (Esrc.Error U)) : Service F S (HandlerResult U) :=
  ⟨fun store payload => (handler.handle store payload).map fun result => (store, result), body⟩

def services (handlers : List (QueryHandler F S (Esrc.Error U))) :
    Fin handlers.length → Service F S (HandlerResult U) :=
  fun i => service handlers[i]

theorem eval_service (handler : QueryHandler F S (Esrc.Error U)) {store : S} {payload : ByteArray}
    {answer : (op : F.Op) → F.Ret op} {r : HandlerResult U}
    (h : (handler.handle store payload).eval answer = .value r) :
    ((service handler).handle store payload).eval answer = .value (store, r) :=
  Prog.eval_map answer _ _ _ h

theorem body_error (e : Esrc.Error U) : body (.error e) = TextFormat.print (failure e).encode := rfl

theorem fromSlice_body_error (e : Esrc.Error U) :
    fromSlice QueryReply (body (.error e)) = .ok (failure e) := by
  exact fromSlice_print_ok (TextFormat.shallow _ _ (by decide : 2 < 128))
    (QueryReply.fromValue_encode (failure e))

end NatsQueryDispatcher
end Replies

/-- `<group>.<endpoint>`, under which a group registers an endpoint. -/
def endpointSubject (group endpoint : String) : String := group ++ "." ++ endpoint

def commandSubject (serviceName handlerName : String) : String := serviceName ++ "." ++ handlerName

def querySubject (serviceName handlerName : String) : String := serviceName ++ "." ++ handlerName

section Runs
variable {U : ErrorTypes} {n : Nat} {F : Signature} {S W : Type}

/-- How far `run` has come. Once all endpoints are spawned it joins their tasks. -/
inductive Status (U : ErrorTypes) where
  | starting
  | running (spawned : Nat)
  | returned (result : Except (Esrc.Error U) Unit)

structure DispatcherState (n : Nat) (U : ErrorTypes) (F : Signature) (S W : Type) where
  cluster : Cluster (Fin n) F S (HandlerResult U) W
  status : Status U
  joined : List (Fin n)

inductive DispatcherEvent (n : Nat) (U : ErrorTypes) where
  | started
  | startFailed (text : String)
  | spawned
  | spawnFailed (text : String)
  | act (i : Fin n) (a : Act (HandlerResult U))
  | joined (i : Fin n)
  | joinFailed (i : Fin n) (text : String)
  | finished

namespace DispatcherState

/-- `run(store, handlers)` before its first step; every endpoint gets a clone of the store. -/
def fresh (store : S) (w : W) : DispatcherState n U F S W :=
  ⟨.fresh (fun _ => store) w, .starting, []⟩

/-- Leaving `run` early drops the task set, and with it every task that is not over. -/
def fail (s : DispatcherState n U F S W) (text : String) : DispatcherState n U F S W :=
  { s with
    cluster := ⟨fun i => (s.cluster.endpoint i).stop, s.cluster.world⟩
    status := .returned (.error (.internal (.message text))) }

inductive Step (services : Fin n → Service F S (HandlerResult U)) (exec : Interp F W) :
    DispatcherState n U F S W → DispatcherEvent n U → DispatcherState n U F S W → Prop
  | started {s : DispatcherState n U F S W} :
      s.status = .starting → Step services exec s .started { s with status := .running 0 }
  | startFailed {s : DispatcherState n U F S W} (text : String) :
      s.status = .starting → Step services exec s (.startFailed text) (s.fail text)
  | spawned {s : DispatcherState n U F S W} {m : Nat} :
      s.status = .running m → m < n →
      Step services exec s .spawned { s with status := .running (m + 1) }
  | spawnFailed {s : DispatcherState n U F S W} {m : Nat} (text : String) :
      s.status = .running m → m < n → Step services exec s (.spawnFailed text) (s.fail text)
  | act {s : DispatcherState n U F S W} {m : Nat} {i : Fin n} {a : Act (HandlerResult U)}
      {e : Endpoint F S (HandlerResult U)} {w : W} :
      s.status = .running m → i.val < m →
      RequestLoop.Step (services i) exec (s.cluster.endpoint i) s.cluster.world a e w →
      Step services exec s (.act i a)
        { s with cluster := ⟨Function.update s.cluster.endpoint i e, w⟩ }
  | joined {s : DispatcherState n U F S W} {i : Fin n} :
      s.status = .running n → (s.cluster.endpoint i).phase = .ended → i ∉ s.joined →
      Step services exec s (.joined i) { s with joined := i :: s.joined }
  | joinFailed {s : DispatcherState n U F S W} {i : Fin n} {message : String} (text : String) :
      s.status = .running n → (s.cluster.endpoint i).phase = .panicked message →
      Step services exec s (.joinFailed i text) (s.fail text)
  | finished {s : DispatcherState n U F S W} :
      s.status = .running n → (∀ i, i ∈ s.joined) →
      Step services exec s .finished { s with status := .returned (.ok ()) }

abbrev Run (services : Fin n → Service F S (HandlerResult U)) (exec : Interp F W) (store : S)
    (w : W) : List (DispatcherEvent n U) → DispatcherState n U F S W → Prop :=
  Execution (· = fresh store w) (Step services exec)

variable {services : Fin n → Service F S (HandlerResult U)} {exec : Interp F W} {store : S} {w : W}

/-- The loops of a dispatcher are a cluster: `run` itself only starts and drops them. -/
theorem Run.cluster {trace : List (DispatcherEvent n U)} {s : DispatcherState n U F S W}
    (h : Run services exec store w trace s) :
    ∃ labels, Cluster.Run services exec (fun _ => store) w labels s.cluster := by
  induction h with
  | start first =>
      subst first
      exact ⟨[], .start rfl⟩
  | @snoc _ s event s' _ moved ih =>
      obtain ⟨labels, run⟩ := ih
      have dropped : ∀ text, ∃ labels, Cluster.Run services exec (fun _ => store) w labels
          (s.fail text).cluster :=
        fun _ => ⟨_, run.snoc (.stop fun _ => true)⟩
      cases moved with
      | started | spawned | joined | finished => exact ⟨labels, run⟩
      | startFailed text | spawnFailed text | joinFailed text => exact dropped _
      | act _ _ moved => exact ⟨_, run.snoc (.act moved)⟩

theorem Run.ordered {trace : List (DispatcherEvent n U)} {s : DispatcherState n U F S W}
    (h : Run services exec store w trace s) (i : Fin n) : (s.cluster.endpoint i).Ordered := by
  obtain ⟨labels, run⟩ := h.cluster
  exact Cluster.ordered run i

/-- Only leaving `run` early drops a task. -/
theorem Run.not_aborted {trace : List (DispatcherEvent n U)} {s : DispatcherState n U F S W}
    (h : Run services exec store w trace s) (kept : ∀ e, s.status ≠ .returned (.error e)) (i : Fin n) :
    (s.cluster.endpoint i).phase ≠ .aborted := by
  induction h generalizing i with
  | start first =>
      subst first
      exact nofun
  | @snoc _ s event s' _ moved ih =>
      cases moved with
      | started starting => exact ih (by rw [starting]; exact nofun) i
      | spawned running | joined running | finished running => exact ih (by rw [running]; exact nofun) i
      | startFailed | spawnFailed | joinFailed => exact absurd rfl (kept _)
      | act running _ moved =>
          have alive := ih (by rw [running]; exact nofun)
          exact (Function.forall_update_iff s.cluster.endpoint fun _ e => e.phase ≠ .aborted).mpr
            ⟨moved.not_aborted (alive _), fun j _ => alive j⟩ i

/-- While no task panics, `run` returns an error for a failed start or registration only. -/
theorem Run.failed_early {trace : List (DispatcherEvent n U)} {s : DispatcherState n U F S W}
    {e : Esrc.Error U} (h : Run services exec store w trace s)
    (unbroken : ∀ {trace s}, Run services exec store w trace s →
      ∀ i message, (s.cluster.endpoint i).phase ≠ .panicked message)
    (failed : s.status = .returned (.error e)) :
    ∃ text, .startFailed text ∈ trace ∨ .spawnFailed text ∈ trace := by
  cases h with
  | start first =>
      subst first
      cases failed
  | snoc run moved =>
      cases moved with
      | started | spawned | finished => cases failed
      | act running => cases running.symm.trans failed
      | joined running => cases running.symm.trans failed
      | startFailed text => exact ⟨text, .inl (List.mem_append_right _ (List.mem_singleton_self _))⟩
      | spawnFailed text => exact ⟨text, .inr (List.mem_append_right _ (List.mem_singleton_self _))⟩
      | joinFailed _ _ phase => exact absurd phase (unbroken run _ _)

end DispatcherState
end Runs
end EsrcCqrs
