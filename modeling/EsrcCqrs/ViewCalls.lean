import EsrcCqrs.LockProgress
import EsrcCqrs.MemoryReplay
import EsrcCqrs.PanickingApply

/-! All calls on one memory view, where any `apply` may unwind: none keeps the others from their
end, and when all have ended they were as good as called one after the other. -/

namespace EsrcCqrs
open Json Interaction KeyedLog

section Calls
variable {U : ErrorTypes} {E S : Type} {V : PartialView E} {ι : Type} {calls : ι → ViewCall U V S}
variable [TextFormat] [Uuid.Text] [DecidableEq ι] {labels : List (ι × RwLock.Op (Views V))}
  {s : Pool ι (Option (HandlerResult U)) (RwLock.Lock (Views V)) (MemorySig V)}

/-- Whatever the calls on a view do, they all come to their end. -/
theorem view_calls_finish [Fintype ι] (run : ViewRun calls labels s) : RwLock.Finishes labels s :=
  RwLock.finishes run.jobs

/-- The calls have ended as if the projections had come in this order, and the queries in between. -/
structure Sequenced (calls : ι → ViewCall U V S) (order : List ι)
    (s : Pool ι (Option (HandlerResult U)) (RwLock.Lock (Views V)) (MemorySig V)) : Prop where
  once : order.Nodup
  projections : ∀ i, i ∈ order ↔ (calls i).delivery.isSome
  map : s.world.value = mapAfter calls order
  projected : ∀ {i id event}, calls i = .project id event → ∃ before rest, order = before ++ i :: rest ∧
    s.task i = .ofOutcome ((MemoryView.update (mapAfter calls before) id event).2.map fun _ => none)
  answered : ∀ {i : ι} {R : Type} [Serialize R] {q : MemoryViewQuery V R} {store : S} {payload : ByteArray}
    {envelope : QueryEnvelope}, calls i = .query q store payload →
    fromSlice QueryEnvelope payload = .ok envelope → ∃ n ≤ order.length,
      s.task i = .ret (some (q.reply U (mapAfter calls (order.take n)) envelope.id))
  malformed : ∀ {i : ι} {R : Type} [Serialize R] {q : MemoryViewQuery V R} {store : S} {payload : ByteArray}
    {e : Json.Error}, calls i = .query q store payload → fromSlice QueryEnvelope payload = .error e →
      s.task i = .ret (some (.error (.format (.json e))))

/-- No projection is lost, whichever of them unwind. -/
theorem view_calls_serialize (run : ViewRun calls labels s) (all : ∀ i, (s.task i).Ended) :
    ∃ order, Sequenced calls order s := by
  have serialized := RwLock.serialized run.jobs all
  refine ⟨RwLock.writers labels, serialized.once, ?_, ?_, ?_, ?_, ?_⟩
  · intro i
    rw [serialized.modifies, ViewCall.modifies_iff]
  · rw [serialized.value, mapAfter_eq]
  · intro i id event call
    obtain ⟨o, ended, ends⟩ := serialized.ends i
    obtain ⟨before, rest, split, rfl⟩ := ends.of_modify (congrArg ViewCall.job call)
    rw [mapAfter_eq] at ended
    exact ⟨before, rest, split, ended⟩
  · intro i R _ q store payload envelope call decoded
    obtain ⟨o, ended, ends⟩ := serialized.ends i
    have inspects : (calls i).job = .inspect fun map => .value (some (q.reply U map envelope.id)) := by
      rw [call]
      exact ViewCall.job_query decoded
    obtain ⟨before, rest, split, rfl⟩ := ends.of_inspect inspects
    have earlier : RwLock.writers labels = RwLock.writers before ++ RwLock.writers ((i, .read) :: rest) := by
      rw [split, RwLock.writers_append]
    refine ⟨(RwLock.writers before).length, ?_, ?_⟩
    · rw [earlier, List.length_append]
      exact Nat.le_add_right _ _
    · rw [ended, mapAfter_eq, earlier, List.take_left]
      rfl
  · intro i R _ q store payload e call malformed
    obtain ⟨o, ended, ends⟩ := serialized.ends i
    have skips : (calls i).job = .skip (.value (some (.error (.format (.json e))))) := by
      rw [call]
      exact ViewCall.job_malformed malformed
    rw [ended, ends.of_skip skips]
    rfl

/-- What a query that shows these projections makes of whatever was over before it began. -/
structure ShowsNoLess (calls : ι → ViewCall U V S)
    (s s' : Pool ι (Option (HandlerResult U)) (RwLock.Lock (Views V)) (MemorySig V)) (shown : List ι) :
    Prop where
  once : shown.Nodup
  begun : ∀ i ∈ shown, (calls i).delivery.isSome ∧ s'.task i ≠ (calls i).prog
  projected : ∀ i, (calls i).delivery.isSome → (s.task i).Ended → i ∈ shown
  answered : ∀ {i : ι} {R : Type} [Serialize R] {q : MemoryViewQuery V R} {store : S} {payload : ByteArray}
    {envelope : QueryEnvelope} {result : HandlerResult U}, calls i = .query q store payload →
    fromSlice QueryEnvelope payload = .ok envelope → s.task i = .ret (some result) →
    ∃ n ≤ shown.length, result = q.reply U (mapAfter calls (shown.take n)) envelope.id

/-- A query shows every projection that was over before it began, and no less than what any query
had shown by then. -/
theorem queries_never_go_back (run : ViewRun calls labels s) {more : List (ι × RwLock.Op (Views V))}
    {s' : Pool ι (Option (HandlerResult U)) (RwLock.Lock (Views V)) (MemorySig V)}
    (later : Continues (Pool.Step RwLock.Grant) s more s') {i : ι} {R : Type} [Serialize R]
    {q : MemoryViewQuery V R} {store : S} {payload : ByteArray} {envelope : QueryEnvelope}
    {result : HandlerResult U} (call : calls i = .query q store payload)
    (decoded : fromSlice QueryEnvelope payload = .ok envelope) (begins : s.task i = (calls i).prog)
    (finished : s'.task i = .ret (some result)) :
    ∃ shown, ShowsNoLess calls s s' shown ∧ result = q.reply U (mapAfter calls shown) envelope.id := by
  have inspects : ∀ {i : ι} {R : Type} [Serialize R] {q : MemoryViewQuery V R} {store : S}
      {payload : ByteArray} {envelope : QueryEnvelope}, calls i = .query q store payload →
      fromSlice QueryEnvelope payload = .ok envelope →
      (calls i).job = .inspect fun map => .value (some (q.reply U map envelope.id)) := by
    intro i R _ q store payload envelope call decoded
    rw [call]
    exact ViewCall.job_query decoded
  have whole := run.jobs.continues later
  obtain ⟨before, since, bounded, found⟩ :=
    RwLock.inspected_later run.jobs later (inspects call decoded) (begins.trans (calls i).prog_eq) finished
  have grown := RwLock.writers_prefix since
  have within := RwLock.writers_prefix bounded
  refine ⟨RwLock.writers before, ⟨?_, ?_, ?_, ?_⟩, ?_⟩
  · exact (RwLock.serial whole).once.sublist within.sublist
  · intro j member
    have wrote := within.subset member
    rw [← ViewCall.modifies_iff]
    refine ⟨RwLock.modifies_of_mem_writers whole wrote, fun still => ?_⟩
    exact (RwLock.serial whole).untouched (still.trans (calls j).prog_eq) _ (RwLock.mem_writers wrote)
  · rintro j projects ⟨o, ended⟩
    obtain ⟨f, outcome, modifies⟩ := (ViewCall.modifies_iff _).mpr projects
    obtain ⟨first, rest, split, -⟩ := ((RwLock.serial run.jobs).ends ended).of_modify modifies
    apply grown.subset
    rw [split]
    exact List.mem_append_right first List.mem_cons_self
  · intro j R _ q store payload envelope result call decoded answered
    obtain ⟨first, rest, split, -, -, same⟩ := (RwLock.serial run.jobs).inspected (inspects call decoded) answered
    have earlier : RwLock.writers first <+: RwLock.writers before := by
      refine (RwLock.writers_prefix ?_).trans grown
      rw [split]
      exact List.prefix_append _ _
    refine ⟨(RwLock.writers first).length, earlier.length_le, ?_⟩
    rw [← List.prefix_iff_eq_take.mp earlier, ← mapAfter_eq]
    exact (Option.some.inj (Outcome.value.inj same)).symm
  · rw [← mapAfter_eq]
    exact (Option.some.inj (Outcome.value.inj found)).symm

end Calls

section Overflows
open Counter

/-- Two increments, the second of which overflows the counter, in either order. -/
def overflowing : Bool → ViewCall errors checkedView Unit
  | false => .project Uuid.nil (.incremented 9223372036854775807)
  | true => .project Uuid.nil (.incremented 1)

theorem view_calls_finish_counter : ∃ labels s, ViewRun overflowing labels s ∧ ∀ i, (s.task i).Ended := by
  have run : ViewRun overflowing [] _ := .start rfl
  obtain ⟨more, s, later, all⟩ := (view_calls_finish run).completes
  exact ⟨_, s, run.continues later, all⟩

theorem view_calls_serialize_counter : ∃ labels s order, ViewRun overflowing labels s ∧
    Sequenced overflowing order s ∧ false ∈ order ∧ true ∈ order := by
  have run : ViewRun overflowing [] _ := .start rfl
  obtain ⟨more, s, later, all⟩ := (RwLock.finishes run.jobs).completes
  obtain ⟨order, sequenced⟩ := view_calls_serialize (run.continues later) all
  exact ⟨_, s, order, run.continues later, sequenced, (sequenced.projections false).mpr rfl,
    (sequenced.projections true).mpr rfl⟩

/-- A projection, then a query. -/
theorem queries_never_go_back_counter : ∃ (calls : Bool → ViewCall errors checkedView Unit)
    (labels : _) (s s' : _) (shown : List Bool),
    ViewRun calls labels s ∧ (calls false).delivery = some (Uuid.nil, .incremented 5) ∧
      ShowsNoLess calls s s' shown ∧ false ∈ shown := by
  obtain ⟨payload, -, decoded⟩ := QueryEnvelope.readsBack ⟨Uuid.nil⟩
  let q : MemoryViewQuery checkedView Int := ⟨"Counter.GetState", id⟩
  let calls : Bool → ViewCall errors checkedView Unit
    | false => .project Uuid.nil (.incremented 5)
    | true => .query q () payload
  have query : (calls true).prog = .call .read fun map => .call .dropRead fun _ =>
      .ret (some (q.reply errors map Uuid.nil)) := by
    rw [ViewCall.prog_eq, ViewCall.job_query decoded]
    rfl
  have run := (Execution.start rfl : ViewRun calls [] _)
    |>.snoc (.call (i := false) rfl (.write rfl rfl))
    |>.snoc (.call (i := false) rfl (.dropWrite _))
  have answered : ∀ {labels s}, ViewRun calls labels s → s.task true = (calls true).prog →
      s.world.writing = false → ∃ more s', Continues (Pool.Step RwLock.Grant) s more s' ∧
        s'.task true = .ret (some (q.reply errors s.world.value Uuid.nil)) := by
    intro labels s _ waits free
    rw [query] at waits
    exact ⟨_, _, .cons (.call waits (.read free)) (.cons (.call (Function.update_self ..) .dropRead) (.done _)),
      rfl⟩
  obtain ⟨more, s', later, finished⟩ := answered run rfl rfl
  obtain ⟨shown, noLess, -⟩ := queries_never_go_back run later rfl decoded rfl finished
  exact ⟨calls, _, _, s', shown, run, rfl, noLess, noLess.projected false rfl ⟨.value none, rfl⟩⟩

end Overflows
end EsrcCqrs
