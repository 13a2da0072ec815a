import EsrcCqrs.ErrorModel
import EsrcCqrs.KeyedLog

/-! What the crate asks of `esrc`: aggregates, views, roots, and the store's calls
with what each may return over one event log. -/

namespace EsrcCqrs
open Json Interaction KeyedLog

/-- An aggregate, whose error is one of the application's error types. Its `process` and `apply`
return: an aggregate in which one of them can panic is none of these. -/
structure Aggregate (U : ErrorTypes) where
  State : Type
  Command : Type
  Event : Type
  errorId : U.Id
  default : State
  process : State → Command → Except (U.El errorId) Event
  apply : State → Event → State

/-- The stored events of one aggregate type, in the order in which they were appended. -/
abbrev EventLog {U : ErrorTypes} (A : Aggregate U) := List (Uuid × A.Event)

namespace Aggregate
variable {U : ErrorTypes} (A : Aggregate U)

abbrev Error := U.El A.errorId

/-- The state after a history. -/
def fold (events : List A.Event) : A.State := events.foldl A.apply A.default

@[simp] theorem fold_snoc (events : List A.Event) (e : A.Event) :
    A.fold (events ++ [e]) = A.apply (A.fold events) e := by
  simp only [fold, List.foldl_append, List.foldl_cons, List.foldl_nil]

end Aggregate

/-- `esrc::aggregate::Root`: a state with the last sequence number behind it. -/
structure Root {U : ErrorTypes} (A : Aggregate U) where
  id : Uuid
  lastSequence : Nat
  aggregate : A.State

namespace Root
variable {U : ErrorTypes} {A : Aggregate U}

/-- The root of `id` over a log. -/
def ofLog (log : EventLog A) (id : Uuid) : Root A :=
  ⟨id, KeyedLog.lastSequence id log, A.fold (entriesOf id log)⟩

@[simp] theorem ofLog_id (log : EventLog A) (id : Uuid) : (Root.ofLog log id).id = id := rfl

@[simp] theorem ofLog_lastSequence (log : EventLog A) (id : Uuid) :
    (Root.ofLog log id).lastSequence = KeyedLog.lastSequence id log := rfl

@[simp] theorem ofLog_aggregate (log : EventLog A) (id : Uuid) :
    (Root.ofLog log id).aggregate = A.fold (entriesOf id log) := rfl

/-- The root after its event was stored. -/
def written (root : Root A) (log : EventLog A) (e : A.Event) : Root A :=
  ⟨root.id, log.length + 1, A.apply root.aggregate e⟩

end Root

section Store
variable {U : ErrorTypes} (A : Aggregate U)

/-- `ReplayOneExt::read` and `PublishExt::try_write`. -/
inductive StoreOp where
  | read (id : Uuid)
  | tryWrite (root : Root A) (command : A.Command)

abbrev StoreSig : Signature := ⟨StoreOp A, fun _ => Except (Esrc.Error U) (Root A)⟩

/-- The optimistic store: a read is a snapshot, a write decides on the root it was
given and appends only if that root's last number is still the stream's. -/
inductive StoreStep : Interp (StoreSig A) (EventLog A)
  | read (id : Uuid) (log : EventLog A) : StoreStep (.read id) log (.ok (Root.ofLog log id)) log
  | append {root : Root A} {command : A.Command} {e : A.Event} {log : EventLog A} :
      A.process root.aggregate command = .ok e → lastSequence root.id log = root.lastSequence →
      StoreStep (.tryWrite root command) log (.ok (root.written log e)) (log ++ [(root.id, e)])
  | conflict {root : Root A} {command : A.Command} {e : A.Event} {log : EventLog A} :
      A.process root.aggregate command = .ok e → lastSequence root.id log ≠ root.lastSequence →
      StoreStep (.tryWrite root command) log (.error .conflict) log
  | reject {root : Root A} {command : A.Command} {x : A.Error} {log : EventLog A} :
      A.process root.aggregate command = .error x →
      StoreStep (.tryWrite root command) log (.error (.external (.typed A.errorId x))) log

/-- The same store when a call may also fail, without an effect. -/
inductive FaultyStep : Interp (StoreSig A) (EventLog A)
  | works {op : StoreOp A} {log log' : EventLog A} {r : Except (Esrc.Error U) (Root A)} :
      StoreStep A op log r log' → FaultyStep op log r log'
  | fails (op : StoreOp A) (e : Esrc.Error U) (log : EventLog A) :
      FaultyStep op log (.error e) log

variable {A}

/-- Without faults, what a call returns is determined by the log. -/
def StoreOp.answer : StoreOp A → EventLog A → Except (Esrc.Error U) (Root A) × EventLog A
  | .read id, log => (.ok (Root.ofLog log id), log)
  | .tryWrite root command, log =>
      match A.process root.aggregate command with
      | .error x => (.error (.external (.typed A.errorId x)), log)
      | .ok e =>
          if lastSequence root.id log = root.lastSequence then
            (.ok (root.written log e), log ++ [(root.id, e)])
          else (.error .conflict, log)

theorem storeStep_iff {op : StoreOp A} {log log' : EventLog A}
    {r : Except (Esrc.Error U) (Root A)} :
    StoreStep A op log r log' ↔ op.answer log = (r, log') := by
  constructor
  · intro h
    cases h with
    | read id => rfl
    | append processed current => simp only [StoreOp.answer, processed, if_pos current]
    | conflict processed stale => simp only [StoreOp.answer, processed, if_neg stale]
    | reject rejected => simp only [StoreOp.answer, rejected]
  · intro h
    cases op with
    | read id =>
        cases h
        exact .read id log
    | tryWrite root command =>
        simp only [StoreOp.answer] at h
        split at h
        · next x rejected =>
            cases h
            exact .reject rejected
        · next e processed =>
            split at h
            · next current =>
                cases h
                exact .append processed current
            · next stale =>
                cases h
                exact .conflict processed stale

/-- No call of the store, faulty or not, removes or changes an entry. -/
theorem FaultyStep.log_extends {op : StoreOp A} {log log' : EventLog A}
    {r : Except (Esrc.Error U) (Root A)} (h : FaultyStep A op log r log') : log <+: log' := by
  cases h with
  | fails => exact List.prefix_refl log
  | works h =>
      cases h with
      | append => exact List.prefix_append log _
      | _ => exact List.prefix_refl log

/-- A write on a root that was current is decided on the current state. -/
theorem answer_tryWrite_ofLog (log : EventLog A) (id : Uuid) (command : A.Command) :
    (StoreOp.tryWrite (Root.ofLog log id) command).answer log =
      match A.process (A.fold (entriesOf id log)) command with
      | .error x => (.error (.external (.typed A.errorId x)), log)
      | .ok e => (.ok ((Root.ofLog log id).written log e), log ++ [(id, e)]) := by
  simp only [StoreOp.answer, Root.ofLog_aggregate, Root.ofLog_id, Root.ofLog_lastSequence, if_true]

end Store

/-- `esrc::view::View` whose `apply` may unwind. -/
structure PartialView (E : Type) where
  State : Type
  default : State
  apply : State → E → Outcome State

/-- `esrc::view::View`. -/
structure View (E : Type) where
  State : Type
  default : State
  apply : State → E → State

namespace View
variable {E : Type} (V : View E)

def fold (events : List E) : V.State := events.foldl V.apply V.default

@[simp] theorem fold_snoc (events : List E) (e : E) :
    V.fold (events ++ [e]) = V.apply (V.fold events) e := by
  simp only [fold, List.foldl_append, List.foldl_cons, List.foldl_nil]

abbrev toPartial : PartialView E := ⟨V.State, V.default, fun s e => .value (V.apply s e)⟩

end View

section Replay
variable (U : ErrorTypes) (E : Type)

/-- A stored event as it comes out of a replay: its payload decodes, or fails with a text. -/
abbrev StoredEnvelope := Except String E

/-- `ReplayOne::replay_one` from a sequence number; the stream it returns is read to its
end or to its first error. -/
inductive ReplayOp where
  | replayOne (id : Uuid) (start : Nat)

abbrev ReplaySig : Signature :=
  ⟨ReplayOp, fun _ => Except (Esrc.Error U) (List (Except (Esrc.Error U) (StoredEnvelope E)))⟩

/-- A replay over a log of decodable events: the events of the id with a number after `start`, as
the log is at the call. The call may fail, and so may its stream after any number of items. -/
inductive ReplayStep : Interp (ReplaySig U E) (List (Uuid × E))
  | works (id : Uuid) (start : Nat) (log : List (Uuid × E)) :
      ReplayStep (.replayOne id start) log
        (.ok ((entriesOf id (log.drop start)).map fun e => .ok (.ok e))) log
  | breaks (id : Uuid) (start n : Nat) (e : Esrc.Error U) (log : List (Uuid × E)) :
      ReplayStep (.replayOne id start) log
        (.ok (((entriesOf id (log.drop start)).take n).map (fun e => .ok (.ok e)) ++ [.error e])) log
  | fails (op : ReplayOp) (e : Esrc.Error U) (log : List (Uuid × E)) :
      ReplayStep op log (.error e) log

variable {U E}

theorem ReplayStep.log_eq {op : ReplayOp} {log log' : List (Uuid × E)} {r : (ReplaySig U E).Ret op}
    (h : ReplayStep U E op log r log') : log' = log := by
  cases h with
  | works | breaks | fails => rfl

end Replay
end EsrcCqrs
