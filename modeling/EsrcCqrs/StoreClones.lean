import EsrcCqrs.DispatcherReplies

/-! The store handles of a command dispatcher. An endpoint clones the store once, when it is
spawned, and hands the same clone to its handler again and again. -/

namespace EsrcCqrs
open Json Interaction RequestLoop

section Endpoints
variable {F : Signature} {S R W : Type}

/-- The endpoint holds the store it was spawned with, and so it will after the invocation in hand. -/
structure Kept (store : S) (e : Endpoint F S R) : Prop where
  own : e.store = store
  inHand : ∀ {index payload p}, e.phase = .handling index payload p →
    ∀ {store' : S} {r : R}, p.Returns (store', r) → store' = store

variable {store : S}

theorem kept_fresh : Kept store (.fresh store : Endpoint F S R) := ⟨rfl, nofun⟩

theorem Kept.stop {e : Endpoint F S R} (h : Kept store e) : Kept store e.stop :=
  ⟨h.own, fun phase => absurd phase (e.stop_phase_ne _ _ _)⟩

theorem Kept.step {svc : Service F S R} {exec : Interp F W} {e e' : Endpoint F S R} {w w' : W}
    {a : Act R} (h : Kept store e)
    (keeps : ∀ payload store' r, (svc.handle store payload).Returns (store', r) → store' = store)
    (moved : Step svc exec e w a e' w') : Kept store e' := by
  cases moved with
  | arrive | close => exact ⟨h.own, h.inHand⟩
  | take phase there =>
      refine ⟨h.own, ?_⟩
      intro index payload p handling store' r returns
      cases handling
      rw [h.own] at returns
      exact keeps _ _ _ returns
  | @call _ index payload op next answer phase answered =>
      refine ⟨h.own, ?_⟩
      intro index payload p handling store' r returns
      cases handling
      exact h.inHand phase (.call answer returns)
  | finish phase => exact ⟨h.inHand phase (.ret _), nofun⟩
  | unwind | responded | leave => exact ⟨h.own, nofun⟩

theorem Cluster.kept {ι : Type} [DecidableEq ι] {svc : ι → Service F S R} {exec : Interp F W} {w : W}
    (keeps : ∀ i payload store' r,
      ((svc i).handle store payload).Returns (store', r) → store' = store)
    {labels : List (Label ι R)} {s : Cluster ι F S R W}
    (run : Cluster.Run svc exec (fun _ => store) w labels s) (i : ι) : Kept store (s.endpoint i) :=
  run.endpoints (I := fun _ e => Kept store e) (fun _ => kept_fresh) Kept.stop
    (fun {i} _ _ _ _ _ _ holds moved => holds.step (keeps i) moved) i

/-- A loop that has two requests can take the second one with any store that the handler can
leave after the first. -/
theorem second_take (svc : Service F S R) {exec : Interp F W} (free : ∀ op w r, ∃ w', exec op w r w')
    {payload : ByteArray} {store' : S} {r : R} (w : W)
    (returns : (svc.handle store payload).Returns (store', r)) :
    ∃ acts e w', Continues (Alongside svc exec) (.fresh store, w) acts (e, w') ∧
      e.store = store' ∧ ∃ e', Step svc exec e w' .take e' w' := by
  let twice : Endpoint F S R := { Endpoint.fresh store with stream := [payload, payload] }
  let taken : Endpoint F S R := { twice with
    taken := 1
    phase := .handling 0 payload (svc.handle store payload) }
  have first : Alongside svc exec (.fresh store, w) (.arrive payload)
      ({ Endpoint.fresh store with stream := [payload] }, w) := .arrive payload rfl
  have second : Alongside svc exec ({ Endpoint.fresh store with stream := [payload] }, w)
      (.arrive payload) (twice, w) := .arrive payload rfl
  have took : Alongside svc exec (twice, w) .take (taken, w) := .take rfl rfl
  obtain ⟨acts, e, w', done, waiting, left, count, stream⟩ :=
    returns_one svc free returns (e := taken) (w := w) rfl
  have there : e.stream[e.taken]? = some payload := by
    rw [stream, count]
    rfl
  exact ⟨_, e, w', .cons first (.cons second (.cons took done)), left, _, .take waiting there⟩

end Endpoints

section Clones
variable {U : ErrorTypes} {F : Signature} {S : Type}

/-- Every endpoint gets spawned. -/
theorem spawned_run {n : Nat} {W : Type} (services : Fin n → Service F S (HandlerResult U))
    (exec : Interp F W) (store : S) (w : W) {m : Nat} (bound : m ≤ n) :
    ∃ trace, DispatcherState.Run services exec store w trace
      { DispatcherState.fresh store w with status := .running m } := by
  induction m with
  | zero =>
      have fresh : DispatcherState.Run services exec store w [] (.fresh store w) := .start rfl
      exact ⟨_, fresh.snoc (.started rfl)⟩
  | succ m ih =>
      obtain ⟨trace, run⟩ := ih (Nat.le_of_succ_le bound)
      exact ⟨_, run.snoc (.spawned rfl bound)⟩

variable [TextFormat] [Uuid.Text] [ToString (Esrc.Error U)]

/-- What an invocation leaves in the store of its endpoint is there for the next one. -/
theorem second_invocation (handlers : List (CommandHandler F S (Esrc.Error U))) {store store' : S}
    (i : Fin handlers.length) {payload : ByteArray} {result : HandlerResult U}
    (returns : ((NatsCommandDispatcher.services handlers i).handle store payload).Returns
      (store', result)) :
    ∃ (trace : List (DispatcherEvent handlers.length U))
      (s s' : DispatcherState handlers.length U F S Unit),
      DispatcherState.Run (NatsCommandDispatcher.services handlers) (fun _ _ _ _ => True) store ()
        trace s ∧
      DispatcherState.Step (NatsCommandDispatcher.services handlers) (fun _ _ _ _ => True) s
        (.act i .take) s' ∧ (s.cluster.endpoint i).store = store' := by
  let services := NatsCommandDispatcher.services handlers
  let anything : Interp F Unit := fun _ _ _ _ => True
  obtain ⟨trace, started⟩ := spawned_run services anything store () (Nat.succ_le_of_lt i.isLt)
  have free : ∀ op w r, ∃ w', anything op w r w' := fun _ _ _ => ⟨(), trivial⟩
  obtain ⟨acts, e, w, first, left, e', again⟩ := second_take (services i) free () returns
  have later := started.continues (continues_act (i := i) rfl (Nat.lt_succ_self i) first)
  have taken : RequestLoop.Step (services i) anything
      (Function.update (fun _ => Endpoint.fresh store) i e i) w .take e' w := by
    rw [Function.update_self]
    exact again
  refine ⟨_, _, _, later, .act rfl (Nat.lt_succ_self i) taken, ?_⟩
  simp only [Function.update_self]
  exact left

/-- Whatever the shared world does, each invocation of a handler starts from the store that was
given to `run`. -/
def FreshClones (handlers : List (CommandHandler F S (Esrc.Error U))) (store : S) : Prop :=
  ∀ (W : Type) (exec : Interp F W) (w : W) (trace : List (DispatcherEvent handlers.length U))
    (s s' : DispatcherState handlers.length U F S W) (i : Fin handlers.length),
    DispatcherState.Run (NatsCommandDispatcher.services handlers) exec store w trace s →
    DispatcherState.Step (NatsCommandDispatcher.services handlers) exec s (.act i .take) s' →
    (s.cluster.endpoint i).store = store

/-- No invocation that starts from the store ends with another one. -/
def KeepsStore (handlers : List (CommandHandler F S (Esrc.Error U))) (store : S) : Prop :=
  ∀ h ∈ handlers, ∀ payload store' result,
    (h.handle store payload).Returns (store', result) → store' = store

/-- The clones are fresh if and only if no handler ever changes its own. -/
theorem fresh_clones_iff (handlers : List (CommandHandler F S (Esrc.Error U))) (store : S) :
    FreshClones handlers store ↔ KeepsStore handlers store := by
  constructor
  · intro fresh h member payload store' result returns
    obtain ⟨i, bound, rfl⟩ := List.mem_iff_getElem.mp member
    obtain ⟨trace, s, s', run, taken, left⟩ := second_invocation handlers ⟨i, bound⟩ returns
    exact left.symm.trans (fresh _ _ _ _ _ _ _ run taken)
  · intro keeps W exec w trace s s' i run _
    obtain ⟨labels, cluster⟩ := run.cluster
    refine (Cluster.kept ?_ cluster i).own
    intro j payload store' r returns
    exact keeps handlers[j] (List.getElem_mem _) payload store' r returns

end Clones

section Tallies
open Counter

/-- A handler that counts its requests in the handle it is given, and rejects the first one. -/
def tally : CommandHandler .none Nat (Esrc.Error errors) where
  name := "Tally"
  handle store payload := .ret (store + 1, if store = 0 then .error .invalid else .ok payload)

/-- The request after the rejected one is served with what that one left behind. -/
theorem rejected_request_leaves_its_store : ¬ FreshClones [tally] 0 := by
  intro fresh
  have rejects : (tally.handle 0 ByteArray.empty).Returns (1, .error .invalid) := .ret _
  obtain ⟨trace, s, s', run, taken, left⟩ := second_invocation [tally] ⟨0, Nat.one_pos⟩ rejects
  have kept := fresh _ _ _ _ _ _ _ run taken
  rw [left] at kept
  exact absurd kept Nat.one_ne_zero

end Tallies
end EsrcCqrs
