import EsrcCqrs.EventStore
import EsrcCqrs.Envelopes
import EsrcCqrs.RwLock

/-! The two query handlers, and the in-memory view that one of them reads. -/

namespace EsrcCqrs
open Json Interaction KeyedLog

/-- `QueryHandler<S>`: a name and a program on a shared store handle. -/
structure QueryHandler (F : Signature) (S E : Type) where
  name : String
  handle : S → ByteArray → Prog F (Except E ByteArray)

section Replies
variable {U : ErrorTypes} [TextFormat] {R : Type} [Serialize R]

/-- The end of both handlers: encode the response, then the reply around it. -/
def encodeReply (U : ErrorTypes) (response : R) : Except (Esrc.Error U) ByteArray :=
  match toValue response with
  | .error e => .error (.format (.json e))
  | .ok data => (toVec (QueryReply.mk true (some data) none)).mapError fun e => .format (.json e)

theorem encodeReply_ok {response : R} {data : Value} (h : toValue response = .ok data) :
    encodeReply U response =
      .ok (TextFormat.print (QueryReply.encode ⟨true, some data, none⟩)) := by
  simp only [encodeReply, h]
  rfl

theorem encodeReply_error {response : R} {e : Json.Error} (h : toValue response = .error e) :
    encodeReply U response = .error (.format (.json e)) := by
  simp only [encodeReply, h]

/-- The client gets through the text of the reply with this response. -/
def LegibleResponse (response : R) : Prop :=
  ∀ v, toValue response = .ok v → Legible QueryReply (QueryReply.mk true (some v) none)

theorem legibleResponse_of_depth {response : R} {v : Value} (written : toValue response = .ok v)
    (few : v.depth < 127) : LegibleResponse response := by
  intro w written'
  cases written.symm.trans written'
  refine legible_of_depth
    (v := .object [("success", .bool true), ("data", v), ("error", .null)]) rfl ?_
  simp only [Value.depth, membersDepth]
  omega

/-- Replies with data tell the encodings of their data apart. -/
theorem encodeReply_injective {response response' : R} {data data' : Value}
    (h : toValue response = .ok data) (h' : toValue response' = .ok data')
    (same : encodeReply U response = encodeReply U response') : data = data' := by
  rw [encodeReply_ok h, encodeReply_ok h'] at same
  have encoded := print_injective (Except.ok.inj same)
  simp only [QueryReply.encode, Value.object.injEq, List.cons.injEq, Prod.mk.injEq] at encoded
  exact encoded.2.1.2

end Replies

section Live
variable {U : ErrorTypes} {E : Type}

/-- `LiveViewQuery<V, R>`. -/
structure LiveViewQuery (V : PartialView E) (R : Type) where
  handlerName : String
  projection : V.State → R

namespace LiveViewQuery

/-- The replay loop: it stops at the first item that is not a decodable event. -/
def replay (V : PartialView E) :
    V.State → List (Except (Esrc.Error U) (StoredEnvelope E)) →
      Outcome (Except (Esrc.Error U) V.State)
  | view, [] => .value (.ok view)
  | _, .error e :: _ => .value (.error e)
  | _, .ok (.error text) :: _ => .value (.error (.format (.message text)))
  | view, .ok (.ok event) :: rest =>
      match V.apply view event with
      | .value view' => replay V view' rest
      | .panicked message => .panicked message

/-- Decodable events are applied one by one. -/
theorem replay_append (V : View E) (view : V.State) (events : List E)
    (rest : List (Except (Esrc.Error U) (StoredEnvelope E))) :
    replay V.toPartial view (events.map (fun e => .ok (.ok e)) ++ rest) =
      replay V.toPartial (events.foldl V.apply view) rest := by
  induction events generalizing view with
  | nil => rfl
  | cons e events ih => exact ih (V.apply view e)

theorem replay_events (V : View E) (view : V.State) (events : List E) :
    replay (U := U) V.toPartial view (events.map fun e => .ok (.ok e)) =
      .value (.ok (events.foldl V.apply view)) := by
  have all := replay_append (U := U) V view events []
  rw [List.append_nil] at all
  exact all

variable [TextFormat] [Uuid.Text] {V : PartialView E} {R : Type} [Serialize R] {S : Type}

def afterReplay (q : LiveViewQuery V R) :
    Except (Esrc.Error U) (List (Except (Esrc.Error U) (StoredEnvelope E))) →
      Prog (ReplaySig U E) (Except (Esrc.Error U) ByteArray)
  | .error e => .ret (.error e)
  | .ok items => .ofOutcome <| (replay V V.default items).map fun
      | .error e => .error e
      | .ok view => encodeReply U (q.projection view)

def handle (q : LiveViewQuery V R) (_store : S) (payload : ByteArray) :
    Prog (ReplaySig U E) (Except (Esrc.Error U) ByteArray) :=
  match fromSlice QueryEnvelope payload with
  | .error e => .ret (.error (.format (.json e)))
  | .ok envelope => .call (.replayOne envelope.id 0) q.afterReplay

def toHandler (S : Type) (q : LiveViewQuery V R) : QueryHandler (ReplaySig U E) S (Esrc.Error U) :=
  ⟨q.handlerName, q.handle⟩

/-- `new_for_serializable_view`. -/
def newForSerializableView (V : PartialView E) (handlerName : String) : LiveViewQuery V V.State :=
  ⟨handlerName, id⟩

end LiveViewQuery
end Live

section Memory
variable {E : Type}

/-- `HashMap<Uuid, V>`. -/
abbrev Views (V : PartialView E) := Uuid → Option V.State

/-- Calls on the map behind `Arc<RwLock<_>>`, which all clones of a view share. -/
abbrev MemorySig (V : PartialView E) : Signature := RwLock.Sig (Views V)

namespace MemoryView
variable {V : PartialView E}

/-- `MemoryView::new`. -/
def new : Views V := fun _ => none

/-- The section under the write guard: what the map holds when the guard is dropped,
and whether the drop happens by unwinding. The entry holds a default while `apply` runs. -/
def update (map : Views V) (id : Uuid) (event : E) : Views V × Outcome Unit :=
  let view := (map id).getD V.default
  let swapped := Function.update map id (some V.default)
  match V.apply view event with
  | .value view' => (Function.update swapped id (some view'), .value ())
  | .panicked message => (swapped, .panicked message)

/-- `<MemoryView as Project>::project`. -/
def project (id : Uuid) (event : E) : Prog (MemorySig V) Unit :=
  .call .write fun map =>
    let (map', outcome) := update map id event
    .call (.dropWrite map') fun _ => .ofOutcome outcome

theorem update_total (V : View E) (map : Views V.toPartial) (id : Uuid) (event : E) :
    update map id event =
      (Function.update map id (some (V.apply ((map id).getD V.default) event)), .value ()) := by
  simp only [update, Function.update_idem]

/-- What `project` leaves in the map. -/
def projected (map : Views V) (entry : Uuid × E) : Views V := (update map entry.1 entry.2).1

theorem projected_total (V : View E) (map : Views V.toPartial) (id : Uuid) (event : E) :
    projected map (id, event) =
      Function.update map id (some (V.apply ((map id).getD V.default) event)) := by
  rw [projected, update_total]

/-- The map after a series of projections holds the fold of each id's own events. -/
theorem getD_foldl_projected (V : View E) (events : List (Uuid × E)) (id : Uuid) :
    ((events.foldl projected (new : Views V.toPartial)) id).getD V.default =
      V.fold (entriesOf id events) := by
  induction events using List.reverseRecOn with
  | nil => rfl
  | append_singleton events entry ih =>
      obtain ⟨key, event⟩ := entry
      rw [List.foldl_append, List.foldl_cons, List.foldl_nil, projected_total]
      by_cases same : key = id
      · subst same
        rw [Function.update_self, Option.getD_some, ih, entriesOf_snoc_self, View.fold_snoc]
      · rw [Function.update_of_ne (Ne.symm same), ih, entriesOf_snoc_ne same]

end MemoryView

variable {U : ErrorTypes} [TextFormat] [Uuid.Text]

/-- `MemoryViewQuery<V, R>`; the shared map is the one its calls act on. -/
structure MemoryViewQuery (V : PartialView E) (R : Type) where
  handlerName : String
  projection : V.State → R

namespace MemoryViewQuery
variable {V : PartialView E} {R : Type} [Serialize R] {S : Type}

/-- The reply out of a snapshot of the map. -/
def reply (U : ErrorTypes) (q : MemoryViewQuery V R) (map : Views V) (id : Uuid) :
    Except (Esrc.Error U) ByteArray :=
  encodeReply U (q.projection ((map id).getD V.default))

def handle (q : MemoryViewQuery V R) (_store : S) (payload : ByteArray) :
    Prog (MemorySig V) (Except (Esrc.Error U) ByteArray) :=
  match fromSlice QueryEnvelope payload with
  | .error e => .ret (.error (.format (.json e)))
  | .ok envelope => .call .read fun map => .call .dropRead fun _ => .ret (q.reply U map envelope.id)

def toHandler (S : Type) (q : MemoryViewQuery V R) : QueryHandler (MemorySig V) S (Esrc.Error U) :=
  ⟨q.handlerName, q.handle⟩

/-- `new_for_serializable_view`. -/
def newForSerializableView (V : PartialView E) (handlerName : String) : MemoryViewQuery V V.State :=
  ⟨handlerName, id⟩

theorem handle_decoded (q : MemoryViewQuery V R) (store : S) {payload : ByteArray}
    {envelope : QueryEnvelope} (h : fromSlice QueryEnvelope payload = .ok envelope) :
    q.handle (U := U) store payload =
      .call .read fun map => .call .dropRead fun _ => .ret (q.reply U map envelope.id) := by
  simp only [handle, h]

theorem eval_handle (q : MemoryViewQuery V R) (store : S) (map : Views V) {payload : ByteArray}
    {envelope : QueryEnvelope} (h : fromSlice QueryEnvelope payload = .ok envelope) :
    (q.handle (U := U) store payload).eval (RwLock.Op.answer map) =
      .value (q.reply U map envelope.id) := by
  rw [handle_decoded q store h]
  rfl

end MemoryViewQuery
end Memory

namespace LiveViewQuery
variable {U : ErrorTypes} [TextFormat] {E : Type} {V : View E} {R S : Type} [Serialize R]

theorem afterReplay_events (q : LiveViewQuery V.toPartial R) (events : List E) :
    q.afterReplay (U := U) (.ok (events.map fun e => .ok (.ok e))) =
      .ret (encodeReply U (q.projection (V.fold events))) := by
  simp only [afterReplay, replay_events]
  rfl

variable [Uuid.Text]

theorem handle_decoded (q : LiveViewQuery V.toPartial R) (store : S) {payload : ByteArray}
    {envelope : QueryEnvelope} (h : fromSlice QueryEnvelope payload = .ok envelope) :
    q.handle (U := U) store payload = .call (.replayOne envelope.id 0) q.afterReplay := by
  simp only [handle, h]

/-- On a stream of decodable events the answer is the projected fold. -/
theorem eval_handle (q : LiveViewQuery V.toPartial R) (store : S) {payload : ByteArray}
    {envelope : QueryEnvelope} (h : fromSlice QueryEnvelope payload = .ok envelope)
    (answer : (op : ReplayOp) → (ReplaySig U E).Ret op) (events : List E)
    (stream : answer (.replayOne envelope.id 0) = .ok (events.map fun e => .ok (.ok e))) :
    (q.handle (U := U) store payload).eval answer =
      .value (encodeReply U (q.projection (V.fold events))) := by
  rw [handle_decoded q store h]
  simp only [Prog.eval, stream, afterReplay_events]

end LiveViewQuery
end EsrcCqrs
