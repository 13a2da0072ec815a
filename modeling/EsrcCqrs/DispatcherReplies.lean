import EsrcCqrs.Dispatchers
import EsrcCqrs.CounterDomain

/-! What both dispatchers owe to every request, when no handler unwinds: one reply, in
arrival order, with what the handler returned for it; and loops that never give up. -/

namespace EsrcCqrs
open Json Interaction RequestLoop

section Answering
variable {U : ErrorTypes} {n : Nat} {F : Signature} {S W : Type}

/-- The results of the handler futures of one endpoint, in the order in which they ended. -/
def resultsOf (i : Fin n) (trace : List (DispatcherEvent n U)) : List (HandlerResult U) :=
  trace.flatMap fun
    | .act j a => if j = i then a.result.toList else []
    | _ => []

theorem resultsOf_snoc (i : Fin n) (trace : List (DispatcherEvent n U)) (event : DispatcherEvent n U) :
    resultsOf i (trace ++ [event]) = resultsOf i trace ++ resultsOf i [event] := by
  simp only [resultsOf, List.flatMap_append]

theorem resultsOf_act (i : Fin n) (trace : List (DispatcherEvent n U)) (a : Act (HandlerResult U)) :
    resultsOf i (trace ++ [.act i a]) = resultsOf i trace ++ a.result.toList := by
  rw [resultsOf_snoc]
  simp only [resultsOf, List.flatMap_cons, List.flatMap_nil, if_true, List.append_nil]

theorem resultsOf_other {i j : Fin n} (different : i ≠ j) (trace : List (DispatcherEvent n U))
    (a : Act (HandlerResult U)) : resultsOf i (trace ++ [.act j a]) = resultsOf i trace := by
  rw [resultsOf_snoc]
  simp only [resultsOf, List.flatMap_cons, List.flatMap_nil, if_neg (Ne.symm different),
    List.append_nil]

/-- What is kept along every run of a dispatcher whose handlers never unwind. -/
structure Serving (services : Fin n → Service F S (HandlerResult U))
    (trace : List (DispatcherEvent n U)) (s : DispatcherState n U F S W) : Prop where
  ordered : ∀ i, (s.cluster.endpoint i).Ordered
  sound : ∀ i, Sound (services i) (s.cluster.endpoint i) (resultsOf i trace)
  alive : (∀ e, s.status ≠ .returned (.error e)) → ∀ i, (s.cluster.endpoint i).phase ≠ .aborted
  joined : ∀ i ∈ s.joined, (s.cluster.endpoint i).phase = .ended
  finished : s.status = .returned (.ok ()) → ∀ i, (s.cluster.endpoint i).phase = .ended
  failed : ∀ e, s.status = .returned (.error e) →
    ∃ text, .startFailed text ∈ trace ∨ .spawnFailed text ∈ trace

variable {services : Fin n → Service F S (HandlerResult U)} {exec : Interp F W}

/-- Leaving `run` early, which only a failed start or registration does. -/
theorem Serving.fail {trace : List (DispatcherEvent n U)} {s : DispatcherState n U F S W}
    (h : Serving services trace s) {event : DispatcherEvent n U} {text : String}
    (quiet : ∀ i, resultsOf i [event] = [])
    (startup : event = .startFailed text ∨ event = .spawnFailed text) :
    Serving services (trace ++ [event]) (s.fail text) := by
  refine ⟨fun i => (h.ordered i).stop, ?_, ?_, ?_, nofun, ?_⟩
  · intro i
    rw [resultsOf_snoc, quiet, List.append_nil]
    exact (h.sound i).stop
  · intro notFailed
    exact absurd rfl (notFailed _)
  · intro i member
    simp only [DispatcherState.fail, Endpoint.stop, h.joined i member]
    rfl
  · intro _ _
    refine ⟨text, ?_⟩
    rcases startup with rfl | rfl
    · exact .inl (List.mem_append_right _ (List.mem_singleton_self _))
    · exact .inr (List.mem_append_right _ (List.mem_singleton_self _))

/-- A step of one loop. -/
theorem Serving.act {trace : List (DispatcherEvent n U)} {s : DispatcherState n U F S W}
    (h : Serving services trace s) (safe : ∀ i, (services i).NeverPanics) {m : Nat} {i : Fin n}
    {a : Act (HandlerResult U)} {e : Endpoint F S (HandlerResult U)} {w : W}
    (running : s.status = .running m)
    (moved : RequestLoop.Step (services i) exec (s.cluster.endpoint i) s.cluster.world a e w) :
    Serving services (trace ++ [.act i a])
      { s with cluster := ⟨Function.update s.cluster.endpoint i e, w⟩ } := by
  have alive := h.alive (by rw [running]; exact nofun)
  refine ⟨?_, ?_, fun _ => ?_, ?_, ?_, ?_⟩
  · exact (Function.forall_update_iff s.cluster.endpoint fun _ e => e.Ordered).mpr
      ⟨moved.ordered (h.ordered i), fun j _ => h.ordered j⟩
  · apply (Function.forall_update_iff s.cluster.endpoint fun j e =>
      Sound (services j) e (resultsOf j (trace ++ [DispatcherEvent.act i a]))).mpr
    constructor
    · rw [resultsOf_act]
      exact (h.sound i).step (safe i) (h.ordered i) moved
    · intro j other
      rw [resultsOf_other other]
      exact h.sound j
  · exact (Function.forall_update_iff s.cluster.endpoint fun _ e => e.phase ≠ .aborted).mpr
      ⟨moved.not_aborted (alive i), fun j _ => alive j⟩
  · exact (Function.forall_update_iff s.cluster.endpoint fun j e => j ∈ s.joined → e.phase = .ended).mpr
      ⟨fun member => moved.ended (h.joined i member), fun j _ => h.joined j⟩
  · intro done
    rw [running] at done
    cases done
  · intro _ failed
    rw [running] at failed
    cases failed

/-- Steps of one loop are steps of the dispatcher. -/
theorem continues_act {s : DispatcherState n U F S W} {m : Nat} {i : Fin n}
    (running : s.status = .running m) (spawned : i.val < m) {acts : List (Act (HandlerResult U))}
    {e : Endpoint F S (HandlerResult U)} {w : W}
    (h : Continues (Alongside (services i) exec) (s.cluster.endpoint i, s.cluster.world) acts (e, w)) :
    Continues (DispatcherState.Step services exec) s (acts.map (.act i))
      { s with cluster := ⟨Function.update s.cluster.endpoint i e, w⟩ } := by
  let placed (p : Endpoint F S (HandlerResult U) × W) : DispatcherState n U F S W :=
    { s with cluster := ⟨Function.update s.cluster.endpoint i p.1, p.2⟩ }
  have one : ∀ {p a p'}, Alongside (services i) exec p a p' →
      DispatcherState.Step services exec (placed p) (.act i a) (placed p') := by
    intro p a p' moved
    have here : (placed p).cluster.endpoint i = p.1 := by
      simp only [placed, Function.update_self]
    have next : DispatcherState.Step services exec (placed p) (.act i a)
        { placed p with cluster := ⟨Function.update (placed p).cluster.endpoint i p'.1, p'.2⟩ } :=
      .act running spawned (here ▸ moved)
    simp only [placed, Function.update_idem] at next
    exact next
  have lifted := h.map placed (DispatcherEvent.act i) one
  simp only [placed, Function.update_eq_self] at lifted
  exact lifted

/-- While the dispatcher runs, a spawned loop that was not dropped can answer its whole stream. -/
theorem serves_stream {s : DispatcherState n U F S W} {m : Nat} {i : Fin n}
    (running : s.status = .running m) (spawned : i.val < m) (total : ∀ op w, ∃ r w', exec op w r w')
    (safe : (services i).SafeUnder exec) (ordered : (s.cluster.endpoint i).Ordered)
    (inHand : ∀ index payload p, (s.cluster.endpoint i).phase = .handling index payload p →
      p.SafeUnder exec)
    (alive : (s.cluster.endpoint i).phase ≠ .aborted ∧
      ∀ message, (s.cluster.endpoint i).phase ≠ .panicked message) :
    ∃ (acts : List (Act (HandlerResult U))) (s' : DispatcherState n U F S W),
      Continues (DispatcherState.Step services exec) s (acts.map (.act i)) s' ∧
      (s'.cluster.endpoint i).stream = (s.cluster.endpoint i).stream ∧
      (s'.cluster.endpoint i).attempts.length = (s.cluster.endpoint i).stream.length := by
  obtain ⟨acts, e, w, more, answered, stream⟩ := answers_stream (services i) total safe
    (w := s.cluster.world) ordered inHand alive
  refine ⟨acts, _, continues_act running spawned more, ?_, ?_⟩
  · simp only [Function.update_self]
    exact stream
  · simp only [Function.update_self]
    exact answered

end Answering

section Replies
variable {U : ErrorTypes} [TextFormat] [Uuid.Text] [ToString (Esrc.Error U)] {F G : Signature}
  {S T V W : Type}

end Replies

section Echoes
open Counter

end Echoes
end EsrcCqrs
