import EsrcCqrs.MemoryReplay
import EsrcCqrs.RejectedCommands
import EsrcCqrs.SessionAccounts

/-! Sessions that ask memory views as well. What a view shows is behind: the projector has followed
the log up to somewhere, so that a client is shown the events of its stream up to somewhere. -/

namespace KeyedLog
variable {K E : Type} [DecidableEq K] (key : K)

theorem entriesOf_take (log : List (K × E)) (n : Nat) :
    ∃ m, entriesOf key (log.take n) = (entriesOf key log).take m := by
  have earlier := entriesOf_prefix key (List.take_prefix n log)
  exact ⟨_, List.prefix_iff_eq_take.mp earlier⟩

/-- Every earlier state of the entries was there at some time. -/
theorem take_entriesOf (log : List (K × E)) (m : Nat) :
    ∃ n, entriesOf key (log.take n) = (entriesOf key log).take m := by
  induction log generalizing m with
  | nil => exact ⟨0, List.take_nil.symm⟩
  | cons entry log ih =>
      by_cases same : entry.1 = key
      · cases m with
        | zero => exact ⟨0, rfl⟩
        | succ m =>
            obtain ⟨n, earlier⟩ := ih m
            refine ⟨n + 1, ?_⟩
            simp only [entriesOf, List.take_succ_cons, List.filterMap_cons, if_pos same] at earlier ⊢
            rw [earlier]
      · obtain ⟨n, earlier⟩ := ih m
        refine ⟨n + 1, ?_⟩
        simp only [entriesOf, List.take_succ_cons, List.filterMap_cons, if_neg same] at earlier ⊢
        exact earlier

end KeyedLog

namespace EsrcCqrs
open Json Interaction Interaction.Prog KeyedLog RequestLoop

section Followers
variable {U : ErrorTypes} {A : Aggregate U} {κ : Type}

/-- The maps of some views, each behind a lock of its own. -/
abbrev ViewsSig (views : κ → View A.Event) : Signature := .family fun k => MemorySig (views k).toPartial

/-- The map of a view whose projector has followed the log up to the `n`-th entry. -/
def followed {E : Type} (V : View E) (log : List (Uuid × E)) (n : Nat) : Views V.toPartial :=
  (log.take n).foldl MemoryView.projected MemoryView.new

theorem getD_followed {E : Type} (V : View E) (log : List (Uuid × E)) (n : Nat) (id : Uuid) :
    (followed V log n id).getD V.default = V.fold (entriesOf id (log.take n)) :=
  MemoryView.getD_foldl_projected V (log.take n) id

/-- Calls on the maps of views that have followed the log, each as far as it may be. -/
inductive Follows (views : κ → View A.Event) : Interp (ViewsSig views) (EventLog A)
  | intro (k : κ) (op : RwLock.Op (Views (views k).toPartial)) (log : EventLog A) (n : Nat) :
      Follows views ⟨k, op⟩ log (op.serve (followed (views k) log n)).1 log

variable [TextFormat] [Uuid.Text] {ι S : Type} [DecidableEq ι] {views : κ → View A.Event} {k : κ}

/-- So is every reader served at the lock of a view that is given the log in its order. -/
theorem MemoryRun.follows {calls : ι → MemoryCall U (views k) S}
    {labels : List (ι × RwLock.Op (Views (views k).toPartial))}
    {s : Pool ι (Option (HandlerResult U)) (RwLock.Lock (Views (views k).toPartial))
      (MemorySig (views k).toPartial)} {map : Views (views k).toPartial}
    {w : RwLock.Lock (Views (views k).toPartial)} {log : EventLog A} {n : Nat}
    (run : MemoryRun calls labels s) (inOrder : delivered calls labels = log.take n)
    (granted : RwLock.Grant .read s.world map w) : Follows views ⟨k, .read⟩ log map log := by
  cases granted with
  | read free =>
      have settled := (RwLock.serial run.jobs).settled free
      rw [mapAfter_eq] at settled
      have same : s.world.value = followed (views k) log n := by
        rw [settled, followed, ← inOrder]
        rfl
      rw [same]
      exact .intro k .read log n

end Followers

section Endpoints
variable {U : ErrorTypes} {A : Aggregate U} {κ : Type} {views : κ → View A.Event}

/-- A memory query handler, with its view and the encoding of its responses. -/
structure MemoryEndpoint {E κ : Type} (views : κ → View E) where
  view : κ
  R : Type
  encode : Serialize R
  query : MemoryViewQuery (views view).toPartial R

attribute [instance] MemoryEndpoint.encode

/-- An endpoint on the streams of an aggregate, or on a view that follows them. -/
inductive ViewEndpoint {U : ErrorTypes} (A : Aggregate U) {κ : Type} (views : κ → View A.Event) where
  | stream (k : StreamEndpoint A)
  | memory (q : MemoryEndpoint views)

def QueryHandler.member {F : κ → Signature} {S E : Type} (k : κ) (h : QueryHandler (F k) S E) :
    QueryHandler (.family F) S E :=
  ⟨h.name, fun store payload => (h.handle store payload).member k⟩

variable [TextFormat]

/-- The reply out of what the view has followed. -/
theorem MemoryEndpoint.reply_followed (q : MemoryEndpoint views) (log : EventLog A) (n : Nat) (id : Uuid) :
    q.query.reply U (followed (views q.view) log n) id =
      encodeReply U (q.query.projection ((views q.view).fold (entriesOf id (log.take n)))) := by
  rw [MemoryViewQuery.reply, getD_followed]

variable [Uuid.Text] [ToString (Esrc.Error U)] {S : Type} {faults : Esrc.Error U → Prop}
  {id : Uuid} {payload : ByteArray}

namespace MemoryEndpoint

def service (U : ErrorTypes) [ToString (Esrc.Error U)] {A : Aggregate U} {views : κ → View A.Event}
    (q : MemoryEndpoint views) (S : Type) : Service (ViewsSig views) S (HandlerResult U) :=
  NatsQueryDispatcher.service ((q.query.toHandler S).member q.view)

theorem handle_malformed (q : MemoryEndpoint views) (store : S) {e : Json.Error}
    (failed : fromSlice QueryEnvelope payload = .error e) :
    (q.service U S).handle store payload = .ret (store, .error (.format (.json e))) := by
  change Prog.map _ (Prog.member (F := fun k => MemorySig (views k).toPartial) q.view
    (q.query.handle store payload)) = _
  simp only [MemoryViewQuery.handle, failed]
  rfl

theorem handle_decoded (q : MemoryEndpoint views) (store : S)
    (decoded : fromSlice QueryEnvelope payload = .ok ⟨id⟩) :
    (q.service U S).handle store payload = .call ⟨q.view, .read⟩ fun map =>
      .call ⟨q.view, .dropRead⟩ fun _ => .ret (store, q.query.reply U map id) := by
  change Prog.map _ (Prog.member (F := fun k => MemorySig (views k).toPartial) q.view
    (q.query.handle store payload)) = _
  rw [q.query.handle_decoded store decoded]
  rfl

end MemoryEndpoint

variable [Deserialize A.Command] [Serialize A.Error]

namespace ViewEndpoint

def Addresses (id : Uuid) : ViewEndpoint A views → ByteArray → Prop
  | .stream k, payload => k.Addresses id payload
  | .memory _, payload => fromSlice QueryEnvelope payload = .ok ⟨id⟩

def Spares (id : Uuid) : ViewEndpoint A views → ByteArray → Prop
  | .stream k, payload => k.Spares id payload
  | .memory _, _ => True

def serve (S : Type) : ViewEndpoint A views →
    Service (((StoreSig A).sum (ReplaySig U A.Event)).sum (ViewsSig views)) S (HandlerResult U)
  | .stream k => (k.serve S).inl
  | .memory q => (q.service U S).inr

end ViewEndpoint

/-- How a request for `id` is served by someone who has its events for himself, and whose views may
show any earlier state of them. -/
inductive ViewServed (faults : Esrc.Error U → Prop) (id : Uuid) :
    ViewEndpoint A views → ByteArray → List A.Event → Outcome (HandlerResult U) → List A.Event → Prop
  | stream {k : StreamEndpoint A} {payload : ByteArray} {events events' : List A.Event}
      {o : Outcome (HandlerResult U)} : StreamServed faults id k payload events o events' →
      ViewServed faults id (.stream k) payload events o events'
  | behind {q : MemoryEndpoint views} {payload : ByteArray} {events : List A.Event} (n : Nat) :
      fromSlice QueryEnvelope payload = .ok ⟨id⟩ →
      ViewServed faults id (.memory q) payload events
        (.value (encodeReply U (q.query.projection ((views q.view).fold (events.take n))))) events

abbrev following (faults : Esrc.Error U → Prop) (views : κ → View A.Event) :
    Interp (((StoreSig A).sum (ReplaySig U A.Event)).sum (ViewsSig views)) (EventLog A) :=
  (failing A faults).sum (Follows views)

namespace ViewEndpoint

theorem keeps (k : ViewEndpoint A views) (spares : k.Spares id payload) (store : S) :
    ((k.serve S).handle store payload).Keeps (following faults views) (SameStream id) := by
  cases k with
  | stream k => exact Keeps.inl (k.keeps spares store)
  | memory q =>
      change (((q.service U S).handle store payload).inr).Keeps _ _
      refine Keeps.inr ?_
      cases decoded : fromSlice QueryEnvelope payload with
      | error e =>
          rw [q.handle_malformed store decoded]
          trivial
      | ok envelope =>
          rw [q.handle_decoded store decoded]
          intro log map log' read
          cases read
          refine ⟨.refl id log, ?_⟩
          intro log u log' dropped
          cases dropped
          exact ⟨.refl id log, trivial⟩

theorem serves (k : ViewEndpoint A views) (own : k.Addresses id payload) (store : S) (log : EventLog A) :
    ServedAs (following faults views) (SameStream id) (entriesOf id) (ViewServed faults id k payload)
      (entriesOf id log) ((k.serve S).handle store payload) log := by
  cases k with
  | stream k => exact Assures.inl (ServedAs.imp (fun o events' served => .stream served) (k.serves own store log))
  | memory q =>
      change Assures _ _ _ _ (((q.service U S).handle store payload).inr) log
      rw [q.handle_decoded store own]
      refine Assures.inr ?_
      intro log₁ same₁
      refine ⟨.inl same₁.entries, fun map log₂ read => ?_⟩
      cases read with
      | intro _ _ _ n =>
          obtain ⟨m, earlier⟩ := entriesOf_take id log₁ n
          intro log₂ same₂
          have kept₂ := same₂.entries.trans same₁.entries
          refine ⟨.inl kept₂, fun u log₃ dropped => ?_⟩
          cases dropped
          intro log₃ same₃
          have kept₃ := same₃.entries.trans kept₂
          refine ⟨.inl kept₃, ?_⟩
          change ViewServed faults id (.memory q) payload (entriesOf id log)
            (.value (q.query.reply U (followed (views q.view) log₁ n) id)) (entriesOf id log₃)
          rw [kept₃, q.reply_followed, earlier, same₁.entries]
          exact .behind m own

end ViewEndpoint

theorem views_separate {ι : Type} (endpoints : ι → ViewEndpoint A views) (id : Uuid) :
    Separates (fun i => (endpoints i).serve S) (following faults views) (SameStream id) (entriesOf id)
      (fun i => ViewServed faults id (endpoints i)) (fun i => (endpoints i).Addresses id)
      (fun i => (endpoints i).Spares id) where
  refl := .refl id
  trans h h' := h.trans h'
  kept h := h.entries
  foreign spares store := ViewEndpoint.keeps _ spares store
  own addresses store log := ViewEndpoint.serves _ addresses store log

end Endpoints

section Sessions
variable {U : ErrorTypes} [TextFormat] [Uuid.Text] {A : Aggregate U} [Deserialize A.Command] [Serialize A.Error]
  {κ ι S : Type} {views : κ → View A.Event} {endpoints : ι → ViewEndpoint A views} {faults : Esrc.Error U → Prop}
  {id : Uuid}

theorem ViewServed.addresses {k : ViewEndpoint A views} {payload : ByteArray} {events events' : List A.Event}
    {o : Outcome (HandlerResult U)} (h : ViewServed faults id k payload events o events') :
    k.Addresses id payload := by
  cases h with
  | stream served => exact served.addresses
  | behind _ decoded => exact decoded

/-- The command of a request that was answered with a success. -/
def ViewEndpoint.accepted : ViewEndpoint A views → ByteArray → ByteArray → Option A.Command
  | .stream k => k.accepted
  | .memory _ => fun _ _ => none

variable [ToString (Esrc.Error U)] [DecidableEq ι] {store : ι → S} {log : EventLog A}

/-- A client at work on the stream `id`, over any of the endpoints, while nobody else writes to it. -/
abbrev ViewSession (endpoints : ι → ViewEndpoint A views) (faults : Esrc.Error U → Prop) (id : Uuid)
    (store : ι → S) (log : EventLog A) :=
  Session.Run (fun i => (endpoints i).serve S) (following faults views) (fun i => (endpoints i).Addresses id)
    (fun i => (endpoints i).Spares id) store log

theorem ViewServed.decides {k : ViewEndpoint A views} {payload : ByteArray} {events events' : List A.Event}
    {r : HandlerResult U} (h : ViewServed faults id k payload events (.value r) events') :
    (∃ command e, k.accepted payload ((k.serve S).reply r) = some command ∧
      A.process (A.fold events) command = .ok e ∧ events' = events ++ [e]) ∨
      k.accepted payload ((k.serve S).reply r) = none ∧ events' = events := by
  cases h with
  | stream served => exact served.decides
  | behind => exact .inr ⟨rfl, rfl⟩

variable {trace : List (SessionEvent ι (HandlerResult U))}
  {s : Session ι (((StoreSig A).sum (ReplaySig U A.Event)).sum (ViewsSig views)) S (HandlerResult U) (EventLog A)}

/-- Each exchange is one on the stream that the commands accepted before it have left. -/
theorem view_session_exchanged (h : ViewSession endpoints faults id store log trace s)
    {before rest : List (Exchanged ι)} {x : Exchanged ι} (split : s.exchanged = before ++ x :: rest) :
    ∃ events events' r,
      Decides (entriesOf id log) (acceptedBy (fun i => (endpoints i).accepted) before) events ∧
      ViewServed faults id (endpoints x.loop) x.payload events (.value r) events' ∧
      x.reply = ((endpoints x.loop).serve S).reply r := by
  obtain ⟨events, replays, -⟩ := Session.Run.replays (views_separate endpoints id) h
  rw [split] at replays
  obtain ⟨events₁, events₂, r, replays, served, replied⟩ := replays.split
  refine ⟨events₁, events₂, r, Replays.decides ?_ replays, served, replied⟩
  intro i payload events r events' served
  exact served.decides

end Sessions

section Reached
variable {U : ErrorTypes} {A : Aggregate U} {κ ι S : Type} {views : κ → View A.Event}

/-- Answers without faults, where the views have followed the log up to the `n`-th entry. -/
def followingAnswer (views : κ → View A.Event) (n : Nat) :
    (op : (((StoreSig A).sum (ReplaySig U A.Event)).sum (ViewsSig views)).Op) → EventLog A →
      (((StoreSig A).sum (ReplaySig U A.Event)).sum (ViewsSig views)).Ret op × EventLog A :=
  answerSum (answerSum StoreOp.answer ReplayOp.answer)
    fun op log => ((op.2.serve (followed (views op.1) log n)).1, log)

theorem following_answer (faults : Esrc.Error U → Prop) (n : Nat)
    (op : (((StoreSig A).sum (ReplaySig U A.Event)).sum (ViewsSig views)).Op) (log : EventLog A) :
    following faults views op log (followingAnswer views n op log).1 (followingAnswer views n op log).2 := by
  cases op with
  | inl op => exact failing_answer faults op log
  | inr op => exact .intro op.1 op.2 log n

variable [TextFormat] [Uuid.Text] [Deserialize A.Command] [Serialize A.Error] [ToString (Esrc.Error U)]

theorem ViewEndpoint.runs (k : ViewEndpoint A views) (store : S) {id : Uuid} {payload : ByteArray}
    {log : EventLog A} {events' : List A.Event} {r : HandlerResult U}
    (served : ViewServed (fun _ => False) id k payload (entriesOf id log) (.value r) events') :
    ∃ n log', ((k.serve S).handle store payload).runOn (followingAnswer views n) log =
      (.value (store, r), log') ∧ entriesOf id log' = events' := by
  cases served with
  | @stream k _ _ _ _ served =>
      obtain ⟨log', ran, entries⟩ := k.runs store served
      refine ⟨0, log', ?_, entries⟩
      change (((k.serve S).handle store payload).inl).runOn _ log = _
      rw [followingAnswer, runOn_inl]
      exact ran
  | @behind q _ _ m decoded =>
      obtain ⟨n, earlier⟩ := take_entriesOf id log m
      refine ⟨n, log, ?_, rfl⟩
      change (((q.service U S).handle store payload).inr).runOn _ log = _
      rw [followingAnswer, runOn_inr, q.handle_decoded store decoded, ← earlier, ← q.reply_followed]
      rfl

variable [DecidableEq ι] {endpoints : ι → ViewEndpoint A views} {id : Uuid} {log : EventLog A}

theorem view_session_reached (store : ι → S) {exchanged : List (Exchanged ι)} {events : List A.Event}
    (h : Replays (fun i => (endpoints i).serve S) (fun i => ViewServed (fun _ => False) id (endpoints i))
      (entriesOf id log) exchanged events) :
    ∃ trace s, ViewSession endpoints (fun _ => False) id store log trace s ∧ s.awaited = none ∧
      s.exchanged = exchanged ∧ entriesOf id s.cluster.world = events ∧
      ∀ i, (s.cluster.endpoint i).Idle := by
  refine Session.reached ?_ ?_ store log h
  · exact fun served => served.addresses
  · intro i payload log r events' served own
    obtain ⟨n, log', ran, entries⟩ := (endpoints i).runs own served
    exact ⟨_, following_answer _ n, log', ran, entries⟩

/-- Whatever can be decided, a client can have accepted, and then be shown some of by a view. -/
theorem Decides.view_session {store : ι → S} {events : List A.Event} {commands : List A.Command}
    (h : Decides (entriesOf id log) commands events) (requests : ∀ command ∈ commands, ∃ i k payload,
      endpoints i = .stream (.command k) ∧ k.reads payload = some (id, command))
    {i : ι} {q : MemoryEndpoint views} (query : endpoints i = .memory q) :
    ∃ trace s before x, ViewSession endpoints (fun _ => False) id store log trace s ∧
      s.exchanged = before ++ [x] ∧ acceptedBy (fun i => (endpoints i).accepted) before = commands ∧
      endpoints x.loop = .memory q ∧ toVec (QueryEnvelope.mk id) = .ok x.payload := by
  obtain ⟨question, written, asked⟩ := QueryEnvelope.readsBack ⟨id⟩
  obtain ⟨before, replays, same⟩ : ∃ before, Replays (fun i => (endpoints i).serve S)
      (fun i => ViewServed (fun _ => False) id (endpoints i)) (entriesOf id log) before events ∧
      acceptedBy (fun i => (endpoints i).accepted) before = commands := by
    refine Decides.replays h fun command member => ?_
    obtain ⟨j, k, payload, endpoint, read⟩ := requests command member
    refine ⟨j, payload, .ok (k.success id), ?_, fun processed => ?_⟩
    · rw [endpoint]
      exact StreamEndpoint.accepted_success read
    · rw [endpoint]
      exact .stream (.stored read processed)
  have shown : ViewServed (fun _ => False) id (endpoints i) question events
      (.value (encodeReply U (q.query.projection ((views q.view).fold (events.take 0))))) events := by
    rw [query]
    exact .behind 0 asked
  obtain ⟨trace, s, run, -, exchanged, -⟩ := view_session_reached store (replays.snoc shown)
  exact ⟨trace, s, before, _, run, exchanged, same, query, written⟩

end Reached
end EsrcCqrs
