import EsrcCqrs.Dispatchers
import EsrcCqrs.CounterDomain

/-! One process: projections into a memory view and queries on it, in any interleaving of
their lock requests. Where no `apply` unwinds, every query answers as a replay of what was
delivered before it. -/

namespace EsrcCqrs
open Json Interaction KeyedLog

section Calls
variable {U : ErrorTypes} {E S : Type} {V : PartialView E}

/-- A call on some clone of a view, or on a handler that holds one. -/
inductive ViewCall (U : ErrorTypes) (V : PartialView E) (S : Type) : Type 1 where
  | project (id : Uuid) (event : E)
  | query {R : Type} [Serialize R] (q : MemoryViewQuery V R) (store : S) (payload : ByteArray)

namespace ViewCall

/-- The event that the call brings. -/
def delivery : ViewCall U V S → Option (Uuid × E)
  | .project id event => some (id, event)
  | @query .. => none

variable [TextFormat] [Uuid.Text]

/-- The task of a call: a query ends in its reply. -/
def prog : ViewCall U V S → Prog (MemorySig V) (Option (HandlerResult U))
  | .project id event => (MemoryView.project id event).map fun _ => none
  | @query _ _ _ _ _ _ q store payload => (q.handle store payload).map some

def job : ViewCall U V S → RwLock.Job (Views V) (Option (HandlerResult U))
  | .project id event => .modify (fun map => (MemoryView.update map id event).1)
      fun map => (MemoryView.update map id event).2.map fun _ => none
  | @query _ _ _ _ _ _ q _ payload =>
      match fromSlice QueryEnvelope payload with
      | .error e => .skip (.value (some (.error (.format (.json e)))))
      | .ok envelope => .inspect fun map => .value (some (q.reply U map envelope.id))

/-- Each call enters one critical section at most, and no guard outlives it: an unwinding `apply`
drops it on its way. -/
theorem prog_eq (call : ViewCall U V S) : call.prog = call.job.prog := by
  cases call with
  | project id event =>
      simp only [prog, job, MemoryView.project, Prog.map, RwLock.Job.prog, Prog.map_ofOutcome]
  | query q store payload =>
      cases decoded : fromSlice QueryEnvelope payload with
      | error e =>
          simp only [prog, job, decoded, MemoryViewQuery.handle]
          rfl
      | ok envelope =>
          simp only [prog, job, decoded, q.handle_decoded store decoded]
          rfl

section Queries
variable {R : Type} [Serialize R] {q : MemoryViewQuery V R} {store : S} {payload : ByteArray}

theorem job_query {envelope : QueryEnvelope} (decoded : fromSlice QueryEnvelope payload = .ok envelope) :
    (query q store payload : ViewCall U V S).job =
      .inspect fun map => .value (some (q.reply U map envelope.id)) := by
  simp only [job, decoded]

theorem job_malformed {e : Json.Error} (malformed : fromSlice QueryEnvelope payload = .error e) :
    (query q store payload : ViewCall U V S).job =
      .skip (.value (some (.error (.format (.json e))))) := by
  simp only [job, malformed]

end Queries

theorem modifies_iff (call : ViewCall U V S) :
    (∃ f result, call.job = .modify f result) ↔ call.delivery.isSome := by
  cases call with
  | project id event => exact iff_of_true ⟨_, _, rfl⟩ rfl
  | query q store payload =>
      refine iff_of_false ?_ nofun
      rintro ⟨f, result, modifies⟩
      simp only [job] at modifies
      split at modifies <;> cases modifies

/-- Only a projection changes the map, by its own update. -/
theorem edit_eq (call : ViewCall U V S) (map : Views V) :
    call.job.edit map = call.delivery.toList.foldl MemoryView.projected map := by
  cases call with
  | project id event => rfl
  | query q store payload =>
      simp only [job]
      split <;> rfl

end ViewCall

variable {ι : Type} {calls : ι → ViewCall U V S}

/-- What the projections among some calls bring. -/
def deliveries (calls : ι → ViewCall U V S) (is : List ι) : List (Uuid × E) :=
  is.filterMap fun i => (calls i).delivery

/-- The map after these projections. -/
def mapAfter (calls : ι → ViewCall U V S) (is : List ι) : Views V :=
  (deliveries calls is).foldl MemoryView.projected MemoryView.new

variable [TextFormat] [Uuid.Text]

/-- The map after a series of sections is the one after their deliveries. -/
theorem mapAfter_eq (calls : ι → ViewCall U V S) (is : List ι) :
    RwLock.after (fun i => (calls i).job) MemoryView.new is = mapAfter calls is := by
  induction is using List.reverseRecOn with
  | nil => rfl
  | append_singleton is i ih =>
      rw [RwLock.after_snoc, ih, ViewCall.edit_eq, mapAfter, mapAfter, deliveries, deliveries,
        List.filterMap_append, List.foldl_append]
      cases brought : (calls i).delivery with
      | none => simp only [List.filterMap_cons, brought, List.filterMap_nil, Option.toList_none]
      | some entry => simp only [List.filterMap_cons, brought, List.filterMap_nil, Option.toList_some]

variable [DecidableEq ι]

/-- The calls of a process around one map, from before the first until somewhere. -/
abbrev ViewRun (calls : ι → ViewCall U V S) : List (ι × RwLock.Op (Views V)) →
    Pool ι (Option (HandlerResult U)) (RwLock.Lock (Views V)) (MemorySig V) → Prop :=
  Execution (· = ⟨fun i => (calls i).prog, ⟨MemoryView.new, 0, false⟩⟩) (Pool.Step RwLock.Grant)

variable {labels : List (ι × RwLock.Op (Views V))}
  {s : Pool ι (Option (HandlerResult U)) (RwLock.Lock (Views V)) (MemorySig V)}

theorem ViewRun.jobs (run : ViewRun calls labels s) :
    Execution (· = RwLock.start (fun i => (calls i).job) MemoryView.new) (Pool.Step RwLock.Grant)
      labels s := by
  simp only [ViewRun, ViewCall.prog_eq] at run
  exact run

end Calls

section Replays
variable {U : ErrorTypes} {E S : Type} {V : View E} {ι : Type}

/-- The calls on a view whose `apply` never unwinds. -/
abbrev MemoryCall (U : ErrorTypes) (V : View E) (S : Type) : Type 1 := ViewCall U V.toPartial S

/-- The events whose projections took the write lock, in that order. -/
def delivered (calls : ι → MemoryCall U V S)
    (labels : List (ι × RwLock.Op (Views V.toPartial))) : List (Uuid × E) :=
  deliveries calls (RwLock.writers labels)

variable [TextFormat] [Uuid.Text] [DecidableEq ι]

/-- Their run, while the process lasts. -/
abbrev MemoryRun (calls : ι → MemoryCall U V S) : List (ι × RwLock.Op (Views V.toPartial)) →
    Pool ι (Option (HandlerResult U)) (RwLock.Lock (Views V.toPartial)) (MemorySig V.toPartial) → Prop :=
  ViewRun calls

/-- In some run a query with this projection for `id` took the read lock after `before`, and
answered `result`. -/
inductive Answered (calls : ι → MemoryCall U V S) {R : Type} [Serialize R] (projection : V.State → R)
    (id : Uuid) (before : List (ι × RwLock.Op (Views V.toPartial))) (result : HandlerResult U) : Prop
  | intro {labels rest : List (ι × RwLock.Op (Views V.toPartial))}
      {s : Pool ι (Option (HandlerResult U)) (RwLock.Lock (Views V.toPartial)) (MemorySig V.toPartial)}
      {i : ι} {handlerName : String} {store : S} {payload : ByteArray} :
      MemoryRun calls labels s → labels = before ++ (i, .read) :: rest →
      calls i = .query ⟨handlerName, projection⟩ store payload →
      fromSlice QueryEnvelope payload = .ok ⟨id⟩ → s.task i = .ret (some result) →
      Answered calls projection id before result

theorem Answered.serial {calls : ι → MemoryCall U V S} {R : Type} [Serialize R]
    {projection : V.State → R} {id : Uuid} {before : List (ι × RwLock.Op (Views V.toPartial))}
    {result : HandlerResult U} (h : Answered calls projection id before result) :
    (RwLock.writers before).Nodup ∧
      result = encodeReply U (projection (V.fold (entriesOf id (delivered calls before)))) := by
  cases h with
  | intro run split query decoded finished =>
      have serial := RwLock.serial run.jobs
      obtain ⟨before', rest', split', fresh, once, replied⟩ :=
        serial.inspected (query ▸ ViewCall.job_query decoded) finished
      -- a query reads once, so this is the place that `before` speaks of
      obtain ⟨rfl, -, -⟩ := (List.append_cons_inj_of_notMem fresh once).mp (split'.symm.trans split)
      rw [Outcome.value.injEq, Option.some.injEq] at replied
      refine ⟨?_, ?_⟩
      · have nodup := serial.once
        rw [split, RwLock.writers_append] at nodup
        exact nodup.of_append_left
      · rw [← replied, MemoryViewQuery.reply, mapAfter_eq, mapAfter, MemoryView.getD_foldl_projected]
        rfl

end Replays

end EsrcCqrs
