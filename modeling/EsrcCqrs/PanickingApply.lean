import EsrcCqrs.CounterDomain
import EsrcCqrs.QueryHandlers

/-! Projections whose `apply` unwinds. The view is swapped out of the map while `apply` runs,
and an unwinding `apply` takes it away: what stays behind is the default. -/

namespace EsrcCqrs
open Json Interaction KeyedLog

section Panics
variable {E : Type} {V : PartialView E} {map : Views V} {id : Uuid} {event : E} {message : String}

namespace MemoryView

theorem update_panicked (panics : V.apply ((map id).getD V.default) event = .panicked message) :
    update map id event = (Function.update map id (some V.default), .panicked message) := by
  simp only [update, panics]

theorem projected_panicked (panics : V.apply ((map id).getD V.default) event = .panicked message) :
    projected map (id, event) = Function.update map id (some V.default) := by
  rw [projected, update_panicked panics]

theorem projected_value {view : V.State}
    (works : V.apply ((map id).getD V.default) event = .value view) :
    projected map (id, event) = Function.update map id (some view) := by
  simp only [projected, update, works, Function.update_idem]

/-- No projection touches the other ids. -/
theorem projected_ne {other : Uuid} (h : other ≠ id) : projected map (id, event) other = map other := by
  cases applied : V.apply ((map id).getD V.default) event with
  | value view =>
      rw [projected_value applied]
      exact Function.update_of_ne h _ _
  | panicked message =>
      rw [projected_panicked applied]
      exact Function.update_of_ne h _ _

/-- A call that meets no other: it unwinds, and leaves the section with what is then in the map. -/
theorem runOn_project_panicked (panics : V.apply ((map id).getD V.default) event = .panicked message) :
    (project id event : Prog (MemorySig V) Unit).runOn RwLock.Op.serve map =
      (.panicked message, projected map (id, event)) := by
  simp only [project, Prog.runOn, RwLock.Op.serve, projected, update_panicked panics, Prog.ofOutcome]

/-- An event whose `apply` unwinds counts for nothing. -/
def spared (V : PartialView E) (view : V.State) (event : E) : V.State :=
  match V.apply view event with
  | .value view' => view'
  | .panicked _ => view

/-- Every `apply` that unwinds does so on a default view. -/
def PanicsOnDefault (V : PartialView E) (history : List (Uuid × E)) : Prop :=
  ∀ before id event rest message, history = before ++ (id, event) :: rest →
    V.apply (((before.foldl projected (new : Views V)) id).getD V.default) event = .panicked message →
    ((before.foldl projected (new : Views V)) id).getD V.default = V.default

/-- Then the map holds what the other events amount to. -/
theorem getD_foldl_projected_spared {history : List (Uuid × E)} (h : PanicsOnDefault V history)
    (id : Uuid) : ((history.foldl projected (new : Views V)) id).getD V.default =
      (entriesOf id history).foldl (spared V) V.default := by
  induction history using List.reverseRecOn generalizing id with
  | nil => rfl
  | append_singleton history entry ih =>
      obtain ⟨key, event⟩ := entry
      have earlier : PanicsOnDefault V history := by
        intro before id' event' rest message split
        apply h before id' event' (rest ++ [(key, event)]) message
        rw [split, List.append_assoc, List.cons_append]
      rw [List.foldl_append, List.foldl_cons, List.foldl_nil]
      by_cases same : key = id
      · subst same
        rw [entriesOf_snoc_self, List.foldl_append, List.foldl_cons, List.foldl_nil, ← ih earlier key]
        cases applied : V.apply (((history.foldl projected (new : Views V)) key).getD V.default) event with
        | value view =>
            rw [projected_value applied, Function.update_self, Option.getD_some]
            simp only [spared, applied]
        | panicked message =>
            rw [projected_panicked applied, Function.update_self, Option.getD_some]
            simp only [spared, applied]
            exact (h history key event [] message rfl applied).symm
      · rw [projected_ne (Ne.symm same), entriesOf_snoc_ne same]
        exact ih earlier id

end MemoryView

variable {U : ErrorTypes} [TextFormat] [Uuid.Text]

/-- No query tells the two maps apart by this request. -/
def SameReplies (U : ErrorTypes) (map map' : Views V) (payload : ByteArray) : Prop :=
  ∀ {R S : Type} [Serialize R] (q : MemoryViewQuery V R) (store : S),
    (q.handle (U := U) store payload).eval (RwLock.Op.answer map') =
      (q.handle (U := U) store payload).eval (RwLock.Op.answer map)

theorem sameReplies_of_reads {map' : Views V} {payload : ByteArray}
    (same : ∀ envelope : QueryEnvelope, fromSlice QueryEnvelope payload = .ok envelope →
      (map' envelope.id).getD V.default = (map envelope.id).getD V.default) :
    SameReplies U map map' payload := by
  intro R S _ q store
  cases decoded : fromSlice QueryEnvelope payload with
  | error e =>
      simp only [MemoryViewQuery.handle, decoded]
      rfl
  | ok envelope =>
      rw [q.eval_handle store map' decoded, q.eval_handle store map decoded]
      simp only [MemoryViewQuery.reply, same envelope decoded]

open Classical in
/-- A query that tells one view from all others. -/
theorem reads_of_sameReplies {map' : Views V} (same : ∀ payload, SameReplies U map map' payload)
    (id : Uuid) : (map' id).getD V.default = (map id).getD V.default := by
  obtain ⟨payload, -, decoded⟩ := QueryEnvelope.readsBack ⟨id⟩
  let isBefore : MemoryViewQuery V Bool :=
    ⟨"IsBefore", fun view => decide (view = (map id).getD V.default)⟩
  have replies := same payload isBefore ()
  rw [isBefore.eval_handle () map' decoded, isBefore.eval_handle () map decoded, Outcome.value.injEq]
    at replies
  have values := encodeReply_injective rfl rfl replies
  simp only [isBefore, Value.bool.injEq, decide_true, decide_eq_true_eq] at values
  exact values

/-- An unwinding `apply` changes no reply if and only if the view was a default one. -/
theorem panicked_projection_keeps_replies_iff
    (panics : V.apply ((map id).getD V.default) event = .panicked message) :
    ∃ map', (MemoryView.project id event : Prog (MemorySig V) Unit).runOn RwLock.Op.serve map =
        (.panicked message, map') ∧
      (∀ payload, fromSlice QueryEnvelope payload ≠ .ok ⟨id⟩ → SameReplies U map map' payload) ∧
      ((∀ payload, SameReplies U map map' payload) ↔ (map id).getD V.default = V.default) := by
  have left : ((MemoryView.projected map (id, event)) id).getD V.default = V.default := by
    rw [MemoryView.projected_panicked panics, Function.update_self, Option.getD_some]
  refine ⟨_, MemoryView.runOn_project_panicked panics, ?_, ?_, ?_⟩
  · intro payload other
    refine sameReplies_of_reads fun envelope decoded => ?_
    have apart : envelope.id ≠ id := by
      rintro rfl
      exact other decoded
    rw [MemoryView.projected_ne apart]
  · intro same
    exact (reads_of_sameReplies same id).symm.trans left
  · intro default payload
    refine sameReplies_of_reads fun envelope _ => ?_
    by_cases here : envelope.id = id
    · rw [here, left, default]
    · rw [MemoryView.projected_ne here]

end Panics

section Overflows
open Counter

/-- The counter with the arithmetic of `i64`, checked as in a debug build. -/
def checkedApply (value : Int) (event : CounterEvent) : Outcome Int :=
  if -9223372036854775808 ≤ Counter.apply value event ∧
      Counter.apply value event ≤ 9223372036854775807 then
    .value (Counter.apply value event)
  else match event with
    | .incremented _ => .panicked "attempt to add with overflow"
    | .decremented _ => .panicked "attempt to subtract with overflow"

abbrev checkedView : PartialView CounterEvent := ⟨Int, 0, checkedApply⟩

/-- The largest value, after one event. -/
def fullMap : Views checkedView :=
  [(Uuid.nil, .incremented 9223372036854775807)].foldl MemoryView.projected MemoryView.new

theorem getD_fullMap : (fullMap Uuid.nil).getD checkedView.default = (9223372036854775807 : Int) := rfl

theorem fullMap_overflows : checkedView.apply ((fullMap Uuid.nil).getD checkedView.default)
    (.incremented 1) = .panicked "attempt to add with overflow" := by
  rw [getD_fullMap]
  decide

/-- The next increment unwinds, and the counter reads zero. -/
theorem overflow_resets_view : ∃ map',
    (MemoryView.project Uuid.nil (.incremented 1) : Prog (MemorySig checkedView) Unit).runOn
        RwLock.Op.serve fullMap = (.panicked "attempt to add with overflow", map') ∧
      ¬ ∀ payload, SameReplies errors fullMap map' payload := by
  refine ⟨_, MemoryView.runOn_project_panicked fullMap_overflows, fun same => ?_⟩
  have reads := reads_of_sameReplies same Uuid.nil
  rw [MemoryView.projected_panicked fullMap_overflows, Function.update_self, Option.getD_some,
    getD_fullMap] at reads
  have zero : (0 : Int) = 9223372036854775807 := reads
  exact absurd zero (by decide)

theorem panicked_projection_keeps_replies_iff_counter :
    ∃ map', (MemoryView.project Uuid.nil (.incremented 1) : Prog (MemorySig checkedView) Unit).runOn
        RwLock.Op.serve fullMap = (.panicked "attempt to add with overflow", map') ∧
      (∀ payload, fromSlice QueryEnvelope payload ≠ .ok ⟨Uuid.nil⟩ →
        SameReplies errors fullMap map' payload) ∧
      ((∀ payload, SameReplies errors fullMap map' payload) ↔
        (fullMap Uuid.nil).getD checkedView.default = checkedView.default) :=
  panicked_projection_keeps_replies_iff fullMap_overflows

end Overflows
end EsrcCqrs
