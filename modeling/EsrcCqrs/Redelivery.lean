import EsrcCqrs.MemoryReplay
import EsrcCqrs.DurableFold

/-! Events that a memory view is given more than once. Each delivery is applied; so a view is
that of the log only where the repetitions find a state that they leave alone. -/

namespace EsrcCqrs
open Json Interaction KeyedLog DurableFold

section Repetitions
variable {E : Type}

/-- The entry leaves the view of `id` after the deliveries `ds` as it is. -/
def Unchanged (V : View E) (id : Uuid) (ds : List (Uuid × E)) (entry : Uuid × E) : Prop :=
  follow id V.apply (V.fold (entriesOf id ds)) entry = V.fold (entriesOf id ds)

/-- The view of `id` after deliveries of a log in which no repetition changed it. -/
theorem fold_delivered {V : View E} {id : Uuid} {log ds : List (Uuid × E)} {n : Nat}
    (h : Delivers log (Unchanged V id) ds n) :
    V.fold (entriesOf id ds) = V.fold (entriesOf id (log.take n)) := by
  unfold View.fold
  rw [foldl_entriesOf, foldl_entriesOf]
  refine h.foldl_take fun ds entry unchanged => ?_
  rw [← foldl_entriesOf]
  exact unchanged

variable {U : ErrorTypes} {V : View E} {S ι : Type} [TextFormat] [Uuid.Text] [DecidableEq ι]

/-- A memory query answers from everything that was delivered, repetitions included; and from
the events of its id, each once, when no repetition changed the view. -/
theorem redeliveries_are_applied {calls : ι → MemoryCall U V S} {R : Type} [Serialize R]
    {projection : V.State → R} {id : Uuid} {before : List (ι × RwLock.Op (Views V.toPartial))}
    {result : HandlerResult U} (answered : Answered calls projection id before result) :
    result = encodeReply U (projection (V.fold (entriesOf id (delivered calls before)))) ∧
    ∀ (log : List (Uuid × E)) (n : Nat), Delivers log (Unchanged V id) (delivered calls before) n →
      result = encodeReply U (projection (V.fold (entriesOf id (log.take n)))) := by
  obtain ⟨-, fold⟩ := answered.serial
  refine ⟨fold, ?_⟩
  intro log n delivers
  rw [fold, fold_delivered delivers]

end Repetitions

section Counters
open Counter

/-- Two deliveries to the counter's view, and a query after them. -/
theorem two_deliveries_answered (e e' : CounterEvent) :
    ∃ (calls : Option Bool → MemoryCall errors view Unit)
      (before : List (Option Bool × RwLock.Op (Views view.toPartial))) (result : HandlerResult errors),
      Answered calls id Uuid.nil before result ∧
      delivered calls before = [(Uuid.nil, e), (Uuid.nil, e')] := by
  obtain ⟨payload, written, decoded⟩ := QueryEnvelope.readsBack ⟨Uuid.nil⟩
  let calls : Option Bool → MemoryCall errors view Unit
    | some false => .project Uuid.nil e
    | some true => .project Uuid.nil e'
    | none => .query (⟨"Counter.GetState", id⟩ : MemoryViewQuery view.toPartial Int) () payload
  have query : (calls none).prog = .call .read fun map => .call .dropRead fun _ =>
      .ret (some (encodeReply errors ((map Uuid.nil).getD (0 : Int)))) := by
    rw [ViewCall.prog_eq, ViewCall.job_query decoded]
    rfl
  have run := (Execution.start rfl : MemoryRun calls [] _)
    |>.snoc (.call (i := some false) rfl (.write rfl rfl))
    |>.snoc (.call (i := some false) rfl (.dropWrite _))
    |>.snoc (.call (i := some true) rfl (.write rfl rfl))
    |>.snoc (.call (i := some true) rfl (.dropWrite _))
    |>.snoc (.call (i := none) query (.read rfl))
    |>.snoc (.call (i := none) rfl .dropRead)
  have answered : Answered calls id Uuid.nil
      ([] ++ [_] ++ [_] ++ [_] ++ [_]) (encodeReply errors (_ : Int)) :=
    .intro run rfl rfl decoded rfl
  exact ⟨calls, _, _, answered, rfl⟩

/-- One event, delivered twice, counts twice. -/
theorem redelivered_event_counted_twice :
    ∃ (calls : Option Bool → MemoryCall errors view Unit)
      (before : List (Option Bool × RwLock.Op (Views view.toPartial))) (result : HandlerResult errors)
      (log : List (Uuid × CounterEvent)),
      Answered calls id Uuid.nil before result ∧
      Delivers log (fun _ _ => True) (delivered calls before) log.length ∧
      result ≠ encodeReply errors (id (view.fold (entriesOf Uuid.nil log))) := by
  obtain ⟨calls, before, result, answered, twice⟩ :=
    two_deliveries_answered (.incremented 5) (.incremented 5)
  have delivers : Delivers [(Uuid.nil, CounterEvent.incremented 5)] (fun _ _ => True)
      ([] ++ [(Uuid.nil, .incremented 5)] ++ [(Uuid.nil, .incremented 5)]) 1 :=
    .again (.first .none rfl) Nat.one_pos rfl trivial
  refine ⟨calls, before, result, [(Uuid.nil, .incremented 5)], answered, ?_, ?_⟩
  · rw [twice]
    exact delivers
  · rw [answered.serial.2, twice]
    intro same
    have replies : encodeReply errors (10 : Int) = encodeReply errors (5 : Int) := same
    have numbers : (Value.number ⟨10, 0⟩) = .number ⟨5, 0⟩ := encodeReply_injective rfl rfl replies
    cases numbers

/-- An event that adds nothing may come as often as it likes. -/
theorem redeliveries_are_applied_counter :
    ∃ (calls : Option Bool → MemoryCall errors view Unit)
      (before : List (Option Bool × RwLock.Op (Views view.toPartial))) (result : HandlerResult errors),
      delivered calls before = [(Uuid.nil, .incremented 0), (Uuid.nil, .incremented 0)] ∧
      result = encodeReply errors (0 : Int) := by
  obtain ⟨calls, before, result, answered, twice⟩ :=
    two_deliveries_answered (.incremented 0) (.incremented 0)
  have delivers : Delivers [(Uuid.nil, CounterEvent.incremented 0)] (Unchanged view Uuid.nil)
      ([] ++ [(Uuid.nil, .incremented 0)] ++ [(Uuid.nil, .incremented 0)]) 1 :=
    .again (.first .none rfl) Nat.one_pos rfl rfl
  have delivered_all : Delivers [(Uuid.nil, .incremented 0)] (Unchanged view Uuid.nil)
      (delivered calls before) 1 := by
    rw [twice]
    exact delivers
  have once : view.fold (entriesOf Uuid.nil [(Uuid.nil, CounterEvent.incremented 0)]) = 0 := rfl
  have replied := (redeliveries_are_applied answered).2 _ 1 delivered_all
  simp only [List.take_succ_cons, List.take_zero, once] at replied
  exact ⟨calls, before, result, twice, replied⟩

end Counters
end EsrcCqrs
