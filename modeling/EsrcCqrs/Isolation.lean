import EsrcCqrs.RequestLoop

/-! A loop whose part of the world nothing else writes. Whatever the other loops do in
between, it answers as if it had served its requests one by one on a world of its own. -/

namespace RequestLoop
open Interaction Interaction.Prog

def Service.inl {F G : Signature} {S R : Type} (svc : Service F S R) : Service (F.sum G) S R :=
  ⟨fun store payload => (svc.handle store payload).inl, svc.reply⟩

def Service.inr {F G : Signature} {S R : Type} (svc : Service G S R) : Service (F.sum G) S R :=
  ⟨fun store payload => (svc.handle store payload).inr, svc.reply⟩

section Sequential
variable {F : Signature} {S R L : Type}

/-- The requests of a list served one after the other, with the replies made of them. -/
inductive Served (svc : Service F S R) (answer : (op : F.Op) → L → F.Ret op × L) (s₀ : S) (l₀ : L) :
    List ByteArray → List ByteArray → S → L → Prop
  | none : Served svc answer s₀ l₀ [] [] s₀ l₀
  | one {payloads bodies : List ByteArray} {payload : ByteArray} {s s' : S} {l l' : L} {r : R} :
      Served svc answer s₀ l₀ payloads bodies s l →
      (svc.handle s payload).runOn answer l = (.value (s', r), l') →
      Served svc answer s₀ l₀ (payloads ++ [payload]) (bodies ++ [svc.reply r]) s' l'

end Sequential

section Isolation
variable {F G : Signature} {S R W L : Type}

/-- Where an undisturbed loop stands, after `s` and `l` were left by the requests it answered. -/
def Stands (svc : Service F S R) (answer : (op : F.Op) → L → F.Ret op × L)
    (e : Endpoint (F.sum G) S R) (s : S) (l now : L) : Prop :=
  match e.phase with
  | .waiting => e.store = s ∧ now = l
  | .handling _ payload p => ∃ q, p = q.inl ∧ Path answer (svc.handle s payload) l q now
  | .responding => e.store = s ∧ now = l
  | .ended => e.store = s ∧ now = l
  | .panicked message => ∃ payload, e.stream[e.attempts.length]? = some payload ∧
      (svc.handle s payload).runOn answer l = (.panicked message, now)
  | .aborted => now = l ∨ ∃ payload q, e.stream[e.attempts.length]? = some payload ∧
      Path answer (svc.handle s payload) l q now

/-- The answered requests were served one by one, and the loop stands after them. -/
def Alone (svc : Service F S R) (answer : (op : F.Op) → L → F.Ret op × L) (s₀ : S) (l₀ : L)
    (e : Endpoint (F.sum G) S R) (now : L) : Prop :=
  ∃ s l, Served svc answer s₀ l₀ (e.stream.take e.attempts.length) (e.attempts.map Prod.snd) s l ∧
    Stands svc answer e s l now

theorem Alone.stop {svc : Service F S R} {answer : (op : F.Op) → L → F.Ret op × L} {s₀ : S} {l₀ : L}
    {e : Endpoint (F.sum G) S R} {now : L} (h : Alone svc answer s₀ l₀ e now) (ordered : e.Ordered) :
    Alone svc answer s₀ l₀ e.stop now := by
  obtain ⟨s, l, served, stands⟩ := h
  refine ⟨s, l, served, ?_⟩
  have position := ordered.position
  unfold Endpoint.Position at position
  unfold Stands at stands
  unfold Endpoint.stop Stands
  cases phase : e.phase with
  | waiting =>
      rw [phase] at stands
      exact .inl stands.2
  | handling index payload p =>
      rw [phase] at stands position
      obtain ⟨rfl, -, there⟩ := position
      obtain ⟨q, -, path⟩ := stands
      exact .inr ⟨payload, q, there, path⟩
  | responding =>
      rw [phase] at stands
      exact .inl stands.2
  | ended =>
      rw [phase] at stands
      exact stands
  | panicked message =>
      rw [phase] at stands
      exact stands
  | aborted =>
      rw [phase] at stands
      exact stands

variable {left : Interp F W} {right : Interp G W} {view : W → L}
  {answer : (op : F.Op) → L → F.Ret op × L}

/-- Requests that arrive later change nothing of what has been served. -/
theorem Alone.arrive {svc : Service F S R} {s₀ : S} {l₀ : L} {e : Endpoint (F.sum G) S R} {now : L}
    (h : Alone svc answer s₀ l₀ e now) (ordered : e.Ordered) (payload : ByteArray) :
    Alone svc answer s₀ l₀ { e with stream := e.stream ++ [payload] } now := by
  obtain ⟨s, l, served, stands⟩ := h
  have behind : e.attempts.length ≤ e.stream.length := by
    have arrived := ordered.arrived
    have position := ordered.position
    unfold Endpoint.Position at position
    split at position <;> omega
  refine ⟨s, l, ?_, ?_⟩
  · rw [List.take_append_of_le_length behind]
    exact served
  · have later : ∀ payload', e.stream[e.attempts.length]? = some payload' →
        (e.stream ++ [payload])[e.attempts.length]? = some payload' :=
      fun _ there => getElem?_of_prefix (List.prefix_append _ _) there
    unfold Stands at stands ⊢
    cases phase : e.phase with
    | panicked message =>
        rw [phase] at stands
        obtain ⟨payload', there, run⟩ := stands
        exact ⟨payload', later payload' there, run⟩
    | aborted =>
        rw [phase] at stands
        rcases stands with same | ⟨payload', q, there, path⟩
        · exact .inl same
        · exact .inr ⟨payload', q, later payload' there, path⟩
    | _ =>
        rw [phase] at stands
        exact stands

/-- One step of the undisturbed loop itself. -/
theorem Step.alone {svc : Service F S R} {s₀ : S} {l₀ : L} {e e' : Endpoint (F.sum G) S R} {w w' : W}
    {a : Act R} (h : Step svc.inl (left.sum right) e w a e' w')
    (determined : ∀ op w r w', left op w r w' → answer op (view w) = (r, view w'))
    (ordered : e.Ordered) (alone : Alone svc answer s₀ l₀ e (view w)) :
    Alone svc answer s₀ l₀ e' (view w') := by
  cases h with
  | arrive payload => exact alone.arrive ordered payload
  | close => exact alone
  | @take payload phase there =>
      obtain ⟨s, l, served, stands⟩ := alone
      unfold Stands at stands
      rw [phase] at stands
      obtain ⟨rfl, now⟩ := stands
      rw [now]
      exact ⟨e.store, l, served, svc.handle e.store payload, rfl, .start⟩
  | call phase returned =>
      obtain ⟨s, l, served, stands⟩ := alone
      unfold Stands at stands
      rw [phase] at stands
      obtain ⟨q, left_call, path⟩ := stands
      refine ⟨s, l, served, ?_⟩
      cases q with
      | ret a => cases left_call
      | panic message => cases left_call
      | call op next =>
          cases left_call
          have answered := determined op _ _ _ returned
          have further := path.call
          rw [answered] at further
          exact ⟨_, rfl, further⟩
  | @finish index payload store r phase =>
      obtain ⟨s, l, served, stands⟩ := alone
      have position := ordered.position
      unfold Stands at stands
      unfold Endpoint.Position at position
      rw [phase] at stands position
      obtain ⟨rfl, -, there⟩ := position
      obtain ⟨q, returned, path⟩ := stands
      refine ⟨store, view w, ?_, rfl, rfl⟩
      cases q with
      | ret a =>
          cases returned
          have one : Served svc answer s₀ l₀ (_ ++ [payload]) (_ ++ [svc.reply r]) store (view w) :=
            served.one path.runOn_eq
          simp only [List.length_append, List.length_singleton, List.map_append, List.map_cons,
            List.map_nil, List.take_add_one, there, Option.toList_some]
          exact one
      | panic message => cases returned
      | call op next => cases returned
  | @unwind index payload message phase =>
      obtain ⟨s, l, served, stands⟩ := alone
      have position := ordered.position
      unfold Stands at stands
      unfold Endpoint.Position at position
      rw [phase] at stands position
      obtain ⟨rfl, -, there⟩ := position
      obtain ⟨q, unwound, path⟩ := stands
      refine ⟨s, l, served, payload, there, ?_⟩
      cases q with
      | panic message' =>
          cases unwound
          exact path.runOn_eq
      | ret a => cases unwound
      | call op next => cases unwound
  | responded sent phase =>
      obtain ⟨s, l, served, stands⟩ := alone
      unfold Stands at stands
      rw [phase] at stands
      exact ⟨s, l, served, stands⟩
  | leave phase _ _ =>
      obtain ⟨s, l, served, stands⟩ := alone
      unfold Stands at stands
      rw [phase] at stands
      exact ⟨s, l, served, stands⟩

/-- The program in hand, if any, makes calls of the right component only. -/
def OnlyRight (e : Endpoint (F.sum G) S R) : Prop :=
  ∀ index payload p, e.phase = .handling index payload p → ∃ q : Prog G (S × R), p = q.inr

/-- Steps of the other loops leave the view alone. -/
theorem Step.keeps {svc : Service G S R} {e e' : Endpoint (F.sum G) S R} {w w' : W} {a : Act R}
    (h : Step svc.inr (left.sum right) e w a e' w') (only : OnlyRight e)
    (keeps : ∀ op w r w', right op w r w' → view w' = view w) : view w' = view w := by
  cases h with
  | call phase returned =>
      obtain ⟨q, right_call⟩ := only _ _ _ phase
      cases q with
      | ret a => cases right_call
      | panic message => cases right_call
      | call op next =>
          cases right_call
          exact keeps op _ _ _ returned
  | _ => rfl

end Isolation
end RequestLoop
