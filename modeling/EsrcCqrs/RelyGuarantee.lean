import EsrcCqrs.RequestLoop
import Mathlib.Algebra.BigOperators.Group.Finset.Piecewise
import Mathlib.Algebra.Order.BigOperators.Group.Finset

/-! Rely and guarantee for loops on a shared world: what the steps of one loop do to the world
must leave alone what the others know of it. -/

namespace RequestLoop
open Interaction

section Rules
variable {ι : Type} [DecidableEq ι] {F : Signature} {S R W : Type} {svc : ι → Service F S R}
  {exec : Interp F W} {store : ι → S} {w₀ : W} {trace : List (Label ι R)} {s : Cluster ι F S R W}

/-- An invariant `J` of the world and one of each loop, when every step keeps both and changes
the world by `G`, under which all loops keep theirs. -/
theorem Cluster.Run.rely {J : W → Prop} {G : W → W → Prop} {I : ι → W → Endpoint F S R → Prop}
    (h : Run svc exec store w₀ trace s) (start : J w₀) (first : ∀ i, I i w₀ (.fresh (store i)))
    (stop : ∀ {i w e}, I i w e → I i w e.stop)
    (own : ∀ {i e w a e' w'}, e.Ordered → J w → I i w e → RequestLoop.Step (svc i) exec e w a e' w' →
      J w' ∧ G w w' ∧ I i w' e')
    (stable : ∀ {i w w' e}, G w w' → I i w e → I i w' e) :
    J s.world ∧ ∀ i, I i s.world (s.endpoint i) := by
  induction h with
  | start same =>
      subst same
      exact ⟨start, first⟩
  | @snoc _ s label s' run moved ih =>
      obtain ⟨world, endpoints⟩ := ih
      cases moved with
      | @act i a e w moved =>
          obtain ⟨world', guaranteed, kept⟩ := own (ordered run i) world (endpoints i) moved
          refine ⟨world', ?_⟩
          apply (Function.forall_update_iff s.endpoint fun j e => I j w e).mpr
          exact ⟨kept, fun j _ => stable guaranteed (endpoints j)⟩
      | stop which =>
          refine ⟨world, fun i => ?_⟩
          simp only []
          split
          · exact stop (endpoints i)
          · exact endpoints i

/-- What the programs in hand know of the world, `P`, and what their calls do to it. -/
structure Guarantees (exec : Interp F W) (J : W → Prop) (G : W → W → Prop)
    (P : W → Prog F (S × R) → Prop) : Prop where
  refl : ∀ w, G w w
  call : ∀ {w w' op next r}, J w → P w (.call op next) → exec op w r w' →
    J w' ∧ G w w' ∧ P w' (next r)
  stable : ∀ {w w' p}, G w w' → P w p → P w' p

/-- The program in hand, if any, knows of the world what it should. -/
def Endpoint.Knows (P : W → Prog F (S × R) → Prop) (w : W) (e : Endpoint F S R) : Prop :=
  ∀ index payload p, e.phase = .handling index payload p → P w p

theorem Guarantees.step {J : W → Prop} {G : W → W → Prop} {P : W → Prog F (S × R) → Prop}
    (g : Guarantees exec J G P) {service : Service F S R}
    (takes : ∀ w store payload, P w (service.handle store payload)) {e e' : Endpoint F S R} {w w' : W}
    {a : Act R} (world : J w) (knows : e.Knows P w) (moved : Step service exec e w a e' w') :
    J w' ∧ G w w' ∧ e'.Knows P w' := by
  cases moved with
  | arrive | close => exact ⟨world, g.refl w, knows⟩
  | take =>
      refine ⟨world, g.refl w, fun _ _ _ handling => ?_⟩
      cases handling
      exact takes w _ _
  | call phase returned =>
      obtain ⟨world', guaranteed, further⟩ := g.call world (knows _ _ _ phase) returned
      refine ⟨world', guaranteed, fun _ _ _ handling => ?_⟩
      cases handling
      exact further
  | finish | unwind | responded | leave => exact ⟨world, g.refl w, fun _ _ _ handling => nomatch handling⟩

/-- The rule for programs: what holds when a request is taken holds while it is handled. -/
theorem Cluster.Run.knows {J : W → Prop} {G : W → W → Prop} {P : W → Prog F (S × R) → Prop}
    (h : Run svc exec store w₀ trace s) (g : Guarantees exec J G P) (start : J w₀)
    (takes : ∀ i w store payload, P w ((svc i).handle store payload)) :
    J s.world ∧ ∀ i, (s.endpoint i).Knows P s.world := by
  apply h.rely (G := G) (I := fun _ w e => e.Knows P w) start
  · intro i index payload p handling
    cases handling
  · intro i w e _ index payload p handling
    exact absurd handling (e.stop_phase_ne index payload p)
  · intro i e w a e' w' _ world knows moved
    exact g.step (takes i) world knows moved
  · intro i w w' e guaranteed knows index payload p handling
    exact g.stable guaranteed (knows index payload p handling)

end Rules

section Accounts
variable {ι : Type} [DecidableEq ι] [Fintype ι] {F : Signature} {S R W : Type} {svc : ι → Service F S R}
  {exec : Interp F W} {store : ι → S} {w₀ : W} {trace : List (Label ι R)} {s : Cluster ι F S R W}

theorem sum_update (μ : Endpoint F S R → ℤ) (endpoint : ι → Endpoint F S R) (i : ι)
    (e : Endpoint F S R) :
    ∑ j, μ (Function.update endpoint i e j) = ∑ j, μ (endpoint j) - μ (endpoint i) + μ e := by
  simp only [Function.apply_update (fun _ => μ) endpoint i e]
  rw [Finset.sum_update_of_mem (Finset.mem_univ i), Finset.sdiff_singleton_eq_erase]
  have rest := Finset.sum_erase_add Finset.univ (fun j => μ (endpoint j)) (Finset.mem_univ i)
  omega

/-- What the loops have gained together is covered by the growth of the world, when each of their
steps is. -/
theorem Cluster.Run.sum_le {μ : Endpoint F S R → ℤ} {ν : W → ℤ} {I : Endpoint F S R → Prop}
    (h : Run svc exec store w₀ trace s)
    (holds : ∀ {trace s}, Run svc exec store w₀ trace s → ∀ i, I (s.endpoint i))
    (first : ∀ store, μ (.fresh store) ≤ 0) (stop : ∀ e, μ e.stop ≤ μ e)
    (own : ∀ {i e w a e' w'}, I e → RequestLoop.Step (svc i) exec e w a e' w' →
      μ e' - μ e ≤ ν w' - ν w) :
    ∑ i, μ (s.endpoint i) ≤ ν s.world - ν w₀ := by
  induction h with
  | start same =>
      subst same
      rw [fresh, sub_self]
      exact Finset.sum_nonpos fun i _ => first (store i)
  | @snoc _ s label s' run moved ih =>
      cases moved with
      | @act i a e w moved =>
          have gained := own (holds run i) moved
          rw [sum_update]
          simp only []
          omega
      | stop which =>
          have less : ∑ i, μ (if which i then (s.endpoint i).stop else s.endpoint i) ≤
              ∑ i, μ (s.endpoint i) := by
            apply Finset.sum_le_sum
            intro i _
            split
            · exact stop (s.endpoint i)
            · exact le_refl _
          exact less.trans ih

end Accounts

section Serving
variable {F : Signature} {S R W : Type} {svc : Service F S R} {exec : Interp F W}
  {answer : (op : F.Op) → W → F.Ret op × W} {store : S} {r : R} {w w' : W} {e : Endpoint F S R}

/-- Steps of one loop at which no request arrives. -/
def Working (svc : Service F S R) (exec : Interp F W) (s : Endpoint F S R × W) (a : Act R)
    (s' : Endpoint F S R × W) : Prop :=
  Alongside svc exec s a s' ∧ ∀ payload, a ≠ .arrive payload

/-- Where the answers can be given, a program in hand comes to the result that they lead to. -/
theorem serves_handled (given : ∀ op w, exec op w (answer op w).1 (answer op w).2) {index : Nat}
    {payload : ByteArray} {p : Prog F (S × R)} (ran : p.runOn answer w = (.value (store, r), w'))
    (phase : e.phase = .handling index payload p) :
    ∃ acts, Continues (Working svc exec) (e, w) acts ({ e with
      store := store
      phase := .waiting
      attempts := e.attempts ++ [(index, svc.reply r)] }, w') := by
  induction p generalizing e w with
  | ret a =>
      simp only [Prog.runOn, Prod.mk.injEq, Outcome.value.injEq] at ran
      obtain ⟨rfl, rfl⟩ := ran
      let replied : Endpoint F S R := { e with
        store := store
        phase := .responding
        attempts := e.attempts ++ [(index, svc.reply r)] }
      have finished : Working svc exec (e, w) (.finish r) (replied, w) := ⟨.finish phase, nofun⟩
      have sent : Working svc exec (replied, w) (.responded true)
          ({ replied with phase := .waiting }, w) := ⟨.responded true rfl, nofun⟩
      exact ⟨_, .cons finished (.cons sent (.done _))⟩
  | panic message => cases ran
  | call op next ih =>
      have called : Working svc exec (e, w) .call
          ({ e with phase := .handling index payload (next (answer op w).1) }, (answer op w).2) :=
        ⟨.call phase (given op w), nofun⟩
      obtain ⟨acts, further⟩ := ih (answer op w).1 (w := (answer op w).2)
        (e := { e with phase := .handling index payload (next (answer op w).1) }) ran rfl
      exact ⟨_, .cons called further⟩

/-- An open loop that has nothing to do. -/
structure Endpoint.Idle (e : Endpoint F S R) : Prop where
  phase : e.phase = .waiting
  opened : e.closed = false
  drained : e.taken = e.stream.length

theorem Endpoint.idle_fresh (store : S) : (Endpoint.fresh store : Endpoint F S R).Idle := ⟨rfl, rfl, rfl⟩

/-- Such a loop can be given one more request, and be back at the same point after it. -/
theorem serves_next (given : ∀ op w, exec op w (answer op w).1 (answer op w).2) (idle : e.Idle)
    {payload : ByteArray} (ran : (svc.handle e.store payload).runOn answer w = (.value (store, r), w')) :
    ∃ acts e', Continues (Alongside svc exec) (e, w) acts (e', w') ∧ e'.Idle ∧
      e'.store = store ∧ e'.attempts = e.attempts ++ [(e.taken, svc.reply r)] := by
  let arrived : Endpoint F S R := { e with stream := e.stream ++ [payload] }
  let taken : Endpoint F S R := { arrived with
    taken := e.taken + 1
    phase := .handling e.taken payload (svc.handle e.store payload) }
  have there : arrived.stream[arrived.taken]? = some payload := by
    simp only [arrived, idle.drained, List.getElem?_concat_length]
  have first : Alongside svc exec (e, w) (.arrive payload) (arrived, w) := .arrive payload idle.opened
  have second : Alongside svc exec (arrived, w) .take (taken, w) := .take idle.phase there
  obtain ⟨acts, rest⟩ : ∃ acts, Continues (Working svc exec) (taken, w) acts ({ taken with
      store := store
      phase := .waiting
      attempts := e.attempts ++ [(e.taken, svc.reply r)] }, w') := serves_handled given ran rfl
  have served := rest.map id id fun moved => moved.1
  refine ⟨_, _, .cons first (.cons second served), ⟨rfl, idle.opened, ?_⟩, rfl, rfl⟩
  simp only [taken, arrived, idle.drained, List.length_append, List.length_singleton]

end Serving

section Lifting
variable {ι : Type} [DecidableEq ι] {F : Signature} {S R W : Type} {svc : ι → Service F S R}
  {exec : Interp F W} {store : ι → S} {w₀ : W} {trace : List (Label ι R)} {s : Cluster ι F S R W}

/-- Steps of one loop alone continue a run of all. -/
theorem Cluster.Run.alongside (h : Run svc exec store w₀ trace s) {i : ι} {acts : List (Act R)}
    {e : Endpoint F S R} {w : W}
    (later : Continues (Alongside (svc i) exec) (s.endpoint i, s.world) acts (e, w)) :
    ∃ trace', Run svc exec store w₀ trace' ⟨Function.update s.endpoint i e, w⟩ := by
  let placed (p : Endpoint F S R × W) : Cluster ι F S R W := ⟨Function.update s.endpoint i p.1, p.2⟩
  have one : ∀ {p a p'}, Alongside (svc i) exec p a p' →
      Cluster.Step svc exec (placed p) (.act i a) (placed p') := by
    intro p a p' moved
    have here : (placed p).endpoint i = p.1 := by
      simp only [placed, Function.update_self]
    have next : Cluster.Step svc exec (placed p) (.act i a)
        ⟨Function.update (placed p).endpoint i p'.1, p'.2⟩ := .act (here ▸ moved)
    simp only [placed, Function.update_idem] at next
    exact next
  have lifted := later.map placed (Label.act i) one
  simp only [placed, Function.update_eq_self] at lifted
  exact ⟨_, h.continues lifted⟩

end Lifting
end RequestLoop
