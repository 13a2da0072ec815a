import EsrcCqrs.RelyGuarantee

/-! Sessions: a client that waits for the reply to each of its requests before it makes the next,
among any number of others. If the others stay away from what the session is about, then its
replies are those of a machine that it has for itself, whichever loops it asks. -/

namespace Interaction.Prog
variable {F : Signature} {α W : Type} {exec : Interp F W} {G : W → W → Prop}

/-- Each call of the program changes the world by `G`. -/
def Keeps (exec : Interp F W) (G : W → W → Prop) : Prog F α → Prop
  | .ret _ => True
  | .panic _ => True
  | .call op next => ∀ w r w', exec op w r w' → G w w' ∧ (next r).Keeps exec G

/-- While others change the world by `G`, it is in `M` all the time, and in `Q` of the outcome
once the program is over. -/
def Assures (exec : Interp F W) (G : W → W → Prop) (M : W → Prop) (Q : Outcome α → W → Prop) :
    Prog F α → W → Prop
  | .ret a, w => ∀ w', G w w' → M w' ∧ Q (.value a) w'
  | .panic message, w => ∀ w', G w w' → M w' ∧ Q (.panicked message) w'
  | .call op next, w => ∀ w', G w w' → M w' ∧
      ∀ r w'', exec op w' r w'' → (next r).Assures exec G M Q w''

theorem Keeps.ofOutcome (o : Outcome α) : (ofOutcome o : Prog F α).Keeps exec G := by
  cases o with
  | value a => trivial
  | panicked message => trivial

variable {M : W → Prop} {Q : Outcome α → W → Prop} {p : Prog F α} {w w' : W}

theorem Assures.mono (trans : ∀ {w w' w''}, G w w' → G w' w'' → G w w'') (h : p.Assures exec G M Q w)
    (changed : G w w') : p.Assures exec G M Q w' := by
  cases p with
  | ret a => exact fun w'' further => h w'' (trans changed further)
  | panic message => exact fun w'' further => h w'' (trans changed further)
  | call op next => exact fun w'' further => h w'' (trans changed further)

theorem Assures.now (refl : ∀ w, G w w) (h : p.Assures exec G M Q w) : M w := by
  cases p with
  | ret a => exact (h w (refl w)).1
  | panic message => exact (h w (refl w)).1
  | call op next => exact (h w (refl w)).1

theorem Assures.imp {M' : W → Prop} {Q' : Outcome α → W → Prop} (always : ∀ w, M w → M' w)
    (at_end : ∀ o w, Q o w → Q' o w) (h : p.Assures exec G M Q w) : p.Assures exec G M' Q' w := by
  induction p generalizing w with
  | ret a => exact fun w' changed => ⟨always _ (h w' changed).1, at_end _ _ (h w' changed).2⟩
  | panic message => exact fun w' changed => ⟨always _ (h w' changed).1, at_end _ _ (h w' changed).2⟩
  | call op next ih =>
      intro w' changed
      obtain ⟨now, further⟩ := h w' changed
      exact ⟨always _ now, fun r w'' returned => ih r (further r w'' returned)⟩

theorem Assures.ofOutcome {o : Outcome α} (h : ∀ w', G w w' → M w' ∧ Q o w') :
    (ofOutcome o : Prog F α).Assures exec G M Q w := by
  cases o with
  | value a => exact h
  | panicked message => exact h

variable {H : Signature} {left : Interp F W} {right : Interp H W} {q : Prog H α}

theorem Keeps.inl (h : p.Keeps left G) : (p.inl (G := H)).Keeps (left.sum right) G := by
  induction p with
  | ret a => trivial
  | panic message => trivial
  | call op next ih =>
      intro w r w' returned
      obtain ⟨changed, further⟩ := h w r w' returned
      exact ⟨changed, ih r further⟩

theorem Keeps.inr (h : q.Keeps right G) : (q.inr (F := F)).Keeps (left.sum right) G := by
  induction q with
  | ret a => trivial
  | panic message => trivial
  | call op next ih =>
      intro w r w' returned
      obtain ⟨changed, further⟩ := h w r w' returned
      exact ⟨changed, ih r further⟩

theorem Assures.inl (h : p.Assures left G M Q w) :
    (p.inl (G := H)).Assures (left.sum right) G M Q w := by
  induction p generalizing w with
  | ret a => exact h
  | panic message => exact h
  | call op next ih =>
      intro w' changed
      obtain ⟨now, further⟩ := h w' changed
      exact ⟨now, fun r w'' returned => ih r (further r w'' returned)⟩

theorem Assures.inr (h : q.Assures right G M Q w) :
    (q.inr (F := F)).Assures (left.sum right) G M Q w := by
  induction q generalizing w with
  | ret a => exact h
  | panic message => exact h
  | call op next ih =>
      intro w' changed
      obtain ⟨now, further⟩ := h w' changed
      exact ⟨now, fun r w'' returned => ih r (further r w'' returned)⟩

end Interaction.Prog

namespace RequestLoop
open Interaction

section Clients
variable {ι : Type} {F : Signature} {S R W V : Type}

/-- A request under way: its loop, and its place in the stream there. -/
structure Asked (ι : Type) where
  loop : ι
  index : Nat
  payload : ByteArray

/-- A request with its reply. -/
structure Exchanged (ι : Type) where
  loop : ι
  payload : ByteArray
  reply : ByteArray

structure Session (ι : Type) (F : Signature) (S R W : Type) where
  cluster : Cluster ι F S R W
  awaited : Option (Asked ι)
  exchanged : List (Exchanged ι)

inductive SessionEvent (ι R : Type) where
  | send (i : ι) (payload : ByteArray)
  | receive
  | other (label : Label ι R)

namespace Session
variable [DecidableEq ι]

/-- The client's requests are `Own`, and those of everybody else `Foreign`. -/
inductive Step (svc : ι → Service F S R) (exec : Interp F W) (Own Foreign : ι → ByteArray → Prop) :
    Session ι F S R W → SessionEvent ι R → Session ι F S R W → Prop
  | send {s : Session ι F S R W} {i : ι} {payload : ByteArray} {c : Cluster ι F S R W} :
      s.awaited = none → Own i payload → Cluster.Step svc exec s.cluster (.act i (.arrive payload)) c →
      Step svc exec Own Foreign s (.send i payload) { s with
        cluster := c
        awaited := some ⟨i, (s.cluster.endpoint i).stream.length, payload⟩ }
  | receive {s : Session ι F S R W} {m : Asked ι} {body : ByteArray} :
      s.awaited = some m → (m.index, body) ∈ (s.cluster.endpoint m.loop).attempts →
      Step svc exec Own Foreign s .receive { s with
        awaited := none
        exchanged := s.exchanged ++ [⟨m.loop, m.payload, body⟩] }
  | other {s : Session ι F S R W} {label : Label ι R} {c : Cluster ι F S R W} :
      (∀ i payload, label = .act i (.arrive payload) → Foreign i payload) →
      Cluster.Step svc exec s.cluster label c →
      Step svc exec Own Foreign s (.other label) { s with cluster := c }

def fresh (store : ι → S) (w : W) : Session ι F S R W := ⟨.fresh store w, none, []⟩

abbrev Run (svc : ι → Service F S R) (exec : Interp F W) (Own Foreign : ι → ByteArray → Prop)
    (store : ι → S) (w : W) : List (SessionEvent ι R) → Session ι F S R W → Prop :=
  Execution (· = fresh store w) (Step svc exec Own Foreign)

end Session

/-- The exchanges of a machine that serves one request after the other. -/
inductive Replays (svc : ι → Service F S R) (spec : ι → ByteArray → V → Outcome R → V → Prop) (v : V) :
    List (Exchanged ι) → V → Prop
  | none : Replays svc spec v [] v
  | snoc {done : List (Exchanged ι)} {v' v'' : V} {i : ι} {payload : ByteArray} {r : R} :
      Replays svc spec v done v' → spec i payload v' (.value r) v'' →
      Replays svc spec v (done ++ [⟨i, payload, (svc i).reply r⟩]) v''

/-- Each exchange is a step of the machine, after those before it. -/
theorem Replays.split {svc : ι → Service F S R} {spec : ι → ByteArray → V → Outcome R → V → Prop} {v v' : V}
    {before rest : List (Exchanged ι)} {x : Exchanged ι}
    (h : Replays svc spec v (before ++ x :: rest) v') :
    ∃ v₁ v₂ r, Replays svc spec v before v₁ ∧ spec x.loop x.payload v₁ (.value r) v₂ ∧
      x.reply = (svc x.loop).reply r := by
  generalize all : before ++ x :: rest = exchanged at h
  induction h generalizing rest with
  | none => exact absurd all (List.append_ne_nil_of_right_ne_nil before (List.cons_ne_nil x rest))
  | @snoc done v' v'' i payload r replays served ih =>
      rcases List.eq_nil_or_concat rest with rfl | ⟨rest, last, rfl⟩
      · obtain ⟨rfl, same⟩ := List.append_inj' all rfl
        cases same
        exact ⟨v', v'', r, replays, served, rfl⟩
      · rw [List.concat_eq_append, ← List.cons_append, ← List.append_assoc] at all
        exact ih (List.append_inj' all rfl).1

/-- The program serves a request as a machine in state `v` would, one step of which is `step`: until
it is over, `view` is as before the step or as after it. -/
def ServedAs (exec : Interp F W) (same : W → W → Prop) (view : W → V) (step : V → Outcome R → V → Prop)
    (v : V) (p : Prog F (S × R)) (w : W) : Prop :=
  p.Assures exec same (fun w' => view w' = v ∨ ∃ o, step v o (view w'))
    (fun o w' => step v (o.map Prod.snd) (view w')) w

theorem ServedAs.imp {exec : Interp F W} {same : W → W → Prop} {view : W → V}
    {step step' : V → Outcome R → V → Prop} {v : V} {p : Prog F (S × R)} {w : W}
    (weaker : ∀ o v', step v o v' → step' v o v') (h : ServedAs exec same view step v p w) :
    ServedAs exec same view step' v p w :=
  Prog.Assures.imp (fun _ between => between.imp id fun ⟨o, after⟩ => ⟨o, weaker _ _ after⟩)
    (fun _ _ after => weaker _ _ after) h

/-- What the two kinds of requests have to do with a part `view` of the world: a foreign one keeps
it the same, and an own one is served as `spec` says, if nobody else changes it meanwhile. -/
structure Separates (svc : ι → Service F S R) (exec : Interp F W) (same : W → W → Prop) (view : W → V)
    (spec : ι → ByteArray → V → Outcome R → V → Prop) (Own Foreign : ι → ByteArray → Prop) : Prop where
  refl : ∀ w, same w w
  trans : ∀ {w w' w''}, same w w' → same w' w'' → same w w''
  kept : ∀ {w w'}, same w w' → view w' = view w
  foreign : ∀ {i payload}, Foreign i payload → ∀ store, ((svc i).handle store payload).Keeps exec same
  own : ∀ {i payload}, Own i payload → ∀ store w,
    ServedAs exec same view (spec i payload) (view w) ((svc i).handle store payload) w

/-- Where the client's request stands at its loop, when all before it led to `v`. -/
inductive Underway (svc : ι → Service F S R) (exec : Interp F W) (same : W → W → Prop) (view : W → V)
    (spec : ι → ByteArray → V → Outcome R → V → Prop) (v : V) (w : W) (m : Asked ι)
    (e : Endpoint F S R) : Prop
  | queued : e.taken ≤ m.index → e.stream[m.index]? = some m.payload → view w = v →
      Underway svc exec same view spec v w m e
  | inHand {p : Prog F (S × R)} : e.phase = .handling m.index m.payload p →
      ServedAs exec same view (spec m.loop m.payload) v p w → Underway svc exec same view spec v w m e
  | replied {r : R} : (m.index, (svc m.loop).reply r) ∈ e.attempts →
      spec m.loop m.payload v (.value r) (view w) → Underway svc exec same view spec v w m e
  | lost : m.index < e.taken → (∀ body, (m.index, body) ∉ e.attempts) →
      (e.phase = .aborted ∨ ∃ message, e.phase = .panicked message) →
      (view w = v ∨ ∃ o, spec m.loop m.payload v o (view w)) → Underway svc exec same view spec v w m e

variable {svc : ι → Service F S R} {exec : Interp F W} {same : W → W → Prop} {view : W → V}
  {spec : ι → ByteArray → V → Outcome R → V → Prop} {Own Foreign : ι → ByteArray → Prop} {v : V}
  {w w' : W} {m : Asked ι} {e e' : Endpoint F S R}

/-- The others' changes do not move it. -/
theorem Underway.mono (sep : Separates svc exec same view spec Own Foreign)
    (h : Underway svc exec same view spec v w m e) (changed : same w w') :
    Underway svc exec same view spec v w' m e := by
  cases h with
  | queued untaken there before => exact .queued untaken there ((sep.kept changed).trans before)
  | inHand phase served => exact .inHand phase (served.mono sep.trans changed)
  | replied member after =>
      refine .replied member ?_
      rw [sep.kept changed]
      exact after
  | lost taken unanswered gone between =>
      refine .lost taken unanswered gone ?_
      rw [sep.kept changed]
      exact between

theorem Underway.stop (sep : Separates svc exec same view spec Own Foreign) (ordered : e.Ordered)
    (h : Underway svc exec same view spec v w m e) : Underway svc exec same view spec v w m e.stop := by
  cases h with
  | queued untaken there before => exact .queued untaken there before
  | @inHand p phase served =>
      have position := ordered.position
      unfold Endpoint.Position at position
      rw [phase] at position
      obtain ⟨here, taken, -⟩ := position
      have between : view w = v ∨ ∃ o, spec m.loop m.payload v o (view w) :=
        Prog.Assures.now (G := same) sep.refl served
      refine .lost (by rw [Endpoint.stop, taken]; omega) ?_ (.inl ?_) between
      · intro body member
        have answered := ordered.attempt_lt member
        omega
      · rw [Endpoint.stop, phase]
        rfl
  | replied member after => exact .replied member after
  | lost taken unanswered gone between =>
      refine .lost taken unanswered ?_ between
      rcases gone with phase | ⟨message, phase⟩
      · left
        rw [Endpoint.stop, phase]
        rfl
      · right
        refine ⟨message, ?_⟩
        rw [Endpoint.stop, phase]
        rfl

theorem Endpoint.Ordered.answered_taken (h : e.Ordered) : e.attempts.length ≤ e.taken := by
  have position := h.position
  unfold Endpoint.Position at position
  cases phase : e.phase with
  | waiting | responding =>
      rw [phase] at position
      exact Nat.le_of_eq position.symm
  | handling index payload p =>
      rw [phase] at position
      obtain ⟨rfl, taken, -⟩ := position
      omega
  | ended =>
      rw [phase] at position
      exact Nat.le_of_eq position.1.symm
  | panicked message =>
      rw [phase] at position
      omega
  | aborted =>
      rw [phase] at position
      exact position.1

/-- What a loop has before it that is not foreign is the client's request. -/
structure Endpoint.Sparing (exec : Interp F W) (same : W → W → Prop) (Foreign : ι → ByteArray → Prop)
    (awaited : Option (Asked ι)) (i : ι) (e : Endpoint F S R) : Prop where
  queue : ∀ k payload, e.taken ≤ k → e.stream[k]? = some payload →
    Foreign i payload ∨ awaited = some ⟨i, k, payload⟩
  inHand : ∀ k payload p, e.phase = .handling k payload p →
    p.Keeps exec same ∨ awaited = some ⟨i, k, payload⟩

variable {awaited : Option (Asked ι)} {i : ι}

theorem Endpoint.Sparing.stop (h : e.Sparing exec same Foreign awaited i) :
    e.stop.Sparing exec same Foreign awaited i :=
  ⟨h.queue, fun k payload p phase => absurd phase (e.stop_phase_ne k payload p)⟩

/-- Whoever arrives at a loop is foreign, or the client. -/
theorem Endpoint.Sparing.step (sep : Separates svc exec same view spec Own Foreign) {a : Act R}
    (arrives : ∀ payload, a = .arrive payload → Foreign i payload ∨
      awaited = some ⟨i, e.stream.length, payload⟩)
    (h : e.Sparing exec same Foreign awaited i) (moved : RequestLoop.Step (svc i) exec e w a e' w') :
    e'.Sparing exec same Foreign awaited i := by
  cases moved with
  | arrive payload opened =>
      refine ⟨fun k payload' untaken there => ?_, h.inHand⟩
      by_cases last : k = e.stream.length
      · subst last
        simp only [List.getElem?_concat_length, Option.some.injEq] at there
        rw [← there]
        exact arrives payload rfl
      · have bound := (List.getElem?_eq_some_iff.mp there).1
        simp only [List.length_append, List.length_singleton] at bound
        rw [List.getElem?_append_left (by omega)] at there
        exact h.queue k payload' untaken there
  | close => exact ⟨h.queue, h.inHand⟩
  | take phase there =>
      refine ⟨fun k payload untaken => h.queue k payload (Nat.le_of_succ_le untaken), ?_⟩
      intro k payload p handling
      cases handling
      rcases h.queue _ _ (Nat.le_refl _) there with foreign | own
      · exact .inl (sep.foreign foreign _)
      · exact .inr own
  | call phase returned =>
      refine ⟨h.queue, fun k payload p handling => ?_⟩
      cases handling
      rcases h.inHand _ _ _ phase with keeps | own
      · exact .inl (keeps _ _ _ returned).2
      · exact .inr own
  | finish | unwind | responded | leave => exact ⟨h.queue, nofun⟩

/-- A loop that has not the client's request in hand keeps the view. -/
theorem Endpoint.Sparing.changes (sep : Separates svc exec same view spec Own Foreign) {a : Act R}
    (h : e.Sparing exec same Foreign awaited i)
    (elsewhere : ∀ k payload p, e.phase = .handling k payload p → awaited ≠ some ⟨i, k, payload⟩)
    (moved : RequestLoop.Step (svc i) exec e w a e' w') : same w w' := by
  cases moved with
  | call phase returned =>
      rcases h.inHand _ _ _ phase with keeps | own
      · exact (keeps _ _ _ returned).1
      · exact absurd own (elsewhere _ _ _ phase)
  | _ => exact sep.refl _

/-- A step of the loop that has the request. -/
theorem Underway.step (sep : Separates svc exec same view spec Own Foreign) {a : Act R}
    (own : Own m.loop m.payload) (ordered : e.Ordered)
    (sparing : e.Sparing exec same Foreign (some m) m.loop)
    (h : Underway svc exec same view spec v w m e)
    (moved : RequestLoop.Step (svc m.loop) exec e w a e' w') :
    Underway svc exec same view spec v w' m e' := by
  have position := ordered.position
  unfold Endpoint.Position at position
  -- any other program in hand is foreign
  have other : (∀ k payload p, e.phase = .handling k payload p → k ≠ m.index) → same w w' := by
    intro elsewhere
    refine sparing.changes sep (fun k payload p phase same => ?_) moved
    exact elsewhere k payload p phase (congrArg Asked.index (Option.some.inj same)).symm
  cases h with
  | queued untaken there before =>
      have changed : same w w' := by
        refine other fun k payload p phase here => ?_
        rw [phase] at position
        omega
      have kept := (sep.kept changed).trans before
      cases moved with
      | arrive payload =>
          have later := getElem?_of_prefix (List.prefix_append e.stream [payload]) there
          exact .queued untaken later kept
      | @take payload _ first =>
          rcases Nat.lt_or_eq_of_le untaken with later | now
          · exact .queued later there kept
          · rw [now] at first
            cases there.symm.trans first
            refine .inHand (p := (svc m.loop).handle e.store m.payload) ?_ ?_
            · rw [now]
            · rw [← before]
              exact sep.own own _ _
      | _ => exact .queued untaken there kept
  | @inHand p phase served =>
      cases moved with
      | arrive | close => exact .inHand phase served
      | take waiting => cases waiting.symm.trans phase
      | call phase' returned =>
          cases phase'.symm.trans phase
          exact .inHand rfl ((served _ (sep.refl _)).2 _ _ returned)
      | finish phase' =>
          cases phase'.symm.trans phase
          exact .replied (List.mem_append_right _ (List.mem_singleton_self _)) (served _ (sep.refl _)).2
      | unwind phase' =>
          cases phase'.symm.trans phase
          rw [phase] at position
          refine .lost (by simp only []; omega) ?_ (.inr ⟨_, rfl⟩) (served _ (sep.refl _)).1
          intro body member
          have answered := ordered.attempt_lt member
          omega
      | responded _ phase' | leave phase' => cases phase'.symm.trans phase
  | replied member after =>
      have answered := ordered.attempt_lt member
      have changed : same w w' := by
        refine other fun k payload p phase here => ?_
        rw [phase] at position
        omega
      refine .replied (moved.extends.attempts.subset member) ?_
      rw [sep.kept changed]
      exact after
  | lost taken unanswered gone between =>
      cases moved with
      | arrive | close => exact .lost taken unanswered gone between
      | take phase | call phase | finish phase | unwind phase | responded _ phase | leave phase =>
          rcases gone with same | ⟨message, same⟩
          · cases phase.symm.trans same
          · cases phase.symm.trans same

theorem Underway.between (sep : Separates svc exec same view spec Own Foreign)
    (h : Underway svc exec same view spec v w m e) :
    view w = v ∨ ∃ o, spec m.loop m.payload v o (view w) := by
  cases h with
  | queued _ _ before => exact .inl before
  | inHand _ served => exact Prog.Assures.now (G := same) sep.refl served
  | replied _ after => exact .inr ⟨_, after⟩
  | lost _ _ _ between => exact between

/-- A request that was answered was answered as the machine does. -/
theorem Underway.answered (ordered : e.Ordered) (h : Underway svc exec same view spec v w m e)
    {body : ByteArray} (member : (m.index, body) ∈ e.attempts) :
    ∃ r, body = (svc m.loop).reply r ∧ spec m.loop m.payload v (.value r) (view w) := by
  have early := ordered.attempt_lt member
  cases h with
  | queued untaken =>
      have taken := ordered.answered_taken
      omega
  | inHand phase =>
      have position := ordered.position
      unfold Endpoint.Position at position
      rw [phase] at position
      omega
  | replied member' after => exact ⟨_, ordered.attempt_unique member member', after⟩
  | lost _ unanswered => exact absurd member (unanswered body)

theorem Endpoint.Sparing.ask (h : e.Sparing exec same Foreign none i) (m : Asked ι) :
    e.Sparing exec same Foreign (some m) i :=
  ⟨fun k payload untaken there => .inl ((h.queue k payload untaken there).resolve_right nofun),
    fun k payload p phase => .inl ((h.inHand k payload p phase).resolve_right nofun)⟩

theorem Endpoint.Sparing.receive (ordered : e.Ordered) (h : e.Sparing exec same Foreign (some m) i)
    (answered : m.loop = i → m.index < e.attempts.length) : e.Sparing exec same Foreign none i := by
  constructor
  · intro k payload untaken there
    rcases h.queue k payload untaken there with foreign | own
    · exact .inl foreign
    · cases own
      have early := answered rfl
      have taken := ordered.answered_taken
      simp only [] at early
      omega
  · intro k payload p phase
    rcases h.inHand k payload p phase with keeps | own
    · exact .inl keeps
    · cases own
      have early := answered rfl
      have position := ordered.position
      unfold Endpoint.Position at position
      rw [phase] at position
      simp only [] at early
      omega

end Clients

section Runs
variable {ι : Type} [DecidableEq ι] {F : Signature} {S R W V : Type} {svc : ι → Service F S R}
  {exec : Interp F W} {same : W → W → Prop} {view : W → V} {spec : ι → ByteArray → V → Outcome R → V → Prop}
  {Own Foreign : ι → ByteArray → Prop}

/-- All the exchanges of the session were served by the machine, which is at `v` now. -/
structure Session.Serves (svc : ι → Service F S R) (exec : Interp F W) (same : W → W → Prop)
    (view : W → V) (spec : ι → ByteArray → V → Outcome R → V → Prop) (Own Foreign : ι → ByteArray → Prop)
    (v₀ v : V) (s : Session ι F S R W) : Prop where
  ordered : ∀ i, (s.cluster.endpoint i).Ordered
  sparing : ∀ i, (s.cluster.endpoint i).Sparing exec same Foreign s.awaited i
  replays : Replays svc spec v₀ s.exchanged v
  idle : s.awaited = none → view s.cluster.world = v
  awaited : ∀ m, s.awaited = some m → Own m.loop m.payload ∧
    Underway svc exec same view spec v s.cluster.world m (s.cluster.endpoint m.loop)

variable {v₀ v : V} {s s' : Session ι F S R W}

/-- A step of the loops, at which nobody but the client and foreigners arrives. -/
theorem Session.Serves.cluster (sep : Separates svc exec same view spec Own Foreign)
    (h : s.Serves svc exec same view spec Own Foreign v₀ v) {label : Label ι R} {c : Cluster ι F S R W}
    (foreign : ∀ i payload, label = .act i (.arrive payload) → Foreign i payload)
    (moved : Cluster.Step svc exec s.cluster label c) :
    Session.Serves svc exec same view spec Own Foreign v₀ v { s with cluster := c } := by
  have ordered := moved.ordered h.ordered
  cases moved with
  | @act i a e w moved =>
      have arrives : ∀ payload, a = .arrive payload → Foreign i payload ∨
          s.awaited = some ⟨i, (s.cluster.endpoint i).stream.length, payload⟩ := by
        rintro payload rfl
        exact .inl (foreign i payload rfl)
      have sparing := (h.sparing i).step sep arrives moved
      refine ⟨ordered, ?_, h.replays, ?_, ?_⟩
      · exact (Function.forall_update_iff s.cluster.endpoint fun j e => e.Sparing exec same Foreign
          s.awaited j).mpr ⟨sparing, fun j _ => h.sparing j⟩
      · intro none
        have changed := (h.sparing i).changes sep (fun _ _ _ _ some => nomatch none.symm.trans some) moved
        exact (sep.kept changed).trans (h.idle none)
      · intro m some
        obtain ⟨own, underway⟩ := h.awaited m some
        refine ⟨own, ?_⟩
        by_cases here : m.loop = i
        · subst here
          simp only [Function.update_self]
          exact underway.step sep own (h.ordered _) (some ▸ h.sparing m.loop) moved
        · simp only [Function.update_of_ne here]
          have changed : same s.cluster.world w := by
            refine (h.sparing i).changes sep (fun k payload p _ there => ?_) moved
            exact here (congrArg Asked.loop (Option.some.inj (some.symm.trans there)))
          exact underway.mono sep changed
  | stop which =>
      refine ⟨ordered, ?_, h.replays, h.idle, ?_⟩
      · intro i
        simp only []
        split
        · exact (h.sparing i).stop
        · exact h.sparing i
      · intro m some
        obtain ⟨own, underway⟩ := h.awaited m some
        refine ⟨own, ?_⟩
        simp only []
        split
        · exact underway.stop sep (h.ordered _)
        · exact underway

theorem Session.Serves.step (sep : Separates svc exec same view spec Own Foreign)
    (h : s.Serves svc exec same view spec Own Foreign v₀ v) {event : SessionEvent ι R}
    (moved : Session.Step svc exec Own Foreign s event s') :
    ∃ v', s'.Serves svc exec same view spec Own Foreign v₀ v' := by
  cases moved with
  | @send i payload c none own moved =>
      have ordered := moved.ordered h.ordered
      have arrived := (h.ordered i).arrived
      let m : Asked ι := ⟨i, (s.cluster.endpoint i).stream.length, payload⟩
      have sparing : ∀ j, (s.cluster.endpoint j).Sparing exec same Foreign (some m) j :=
        fun j => (none ▸ h.sparing j : (s.cluster.endpoint j).Sparing exec same Foreign .none j).ask m
      cases moved with
      | act moved =>
          have asked := (sparing i).step sep (fun payload' here => by cases here; exact .inr rfl) moved
          cases moved with
          | arrive _ opened =>
              refine ⟨v, ordered, ?_, h.replays, nofun, ?_⟩
              · exact (Function.forall_update_iff s.cluster.endpoint fun j e => e.Sparing exec same
                  Foreign (some m) j).mpr ⟨asked, fun j _ => sparing j⟩
              · intro m' there
                cases there
                refine ⟨own, .queued ?_ ?_ (h.idle none)⟩
                · simp only [Function.update_self]
                  exact arrived
                · simp only [Function.update_self, List.getElem?_concat_length]
  | @receive m body some member =>
      obtain ⟨own, underway⟩ := h.awaited m some
      obtain ⟨r, rfl, served⟩ := underway.answered (h.ordered _) member
      refine ⟨view s.cluster.world, h.ordered, ?_, h.replays.snoc served, fun _ => rfl, nofun⟩
      intro i
      refine Endpoint.Sparing.receive (h.ordered i) (some ▸ h.sparing i) ?_
      rintro rfl
      exact (h.ordered _).attempt_lt member
  | other foreign moved => exact ⟨v, h.cluster sep foreign moved⟩

/-- In every state that is reached, the exchanges are those of the machine, and the view is where they
led to, or one step further on the request that is awaited. -/
theorem Session.Run.replays {store : ι → S} {w₀ : W} {trace : List (SessionEvent ι R)}
    (sep : Separates svc exec same view spec Own Foreign)
    (h : Session.Run svc exec Own Foreign store w₀ trace s) :
    ∃ v, Replays svc spec (view w₀) s.exchanged v ∧
      (s.awaited = none → view s.cluster.world = v) ∧
      ∀ m, s.awaited = some m →
        view s.cluster.world = v ∨ ∃ o, spec m.loop m.payload v o (view s.cluster.world) := by
  obtain ⟨v, serves⟩ : ∃ v, s.Serves svc exec same view spec Own Foreign (view w₀) v := by
    refine h.invariant (I := fun _ s => ∃ v, s.Serves svc exec same view spec Own Foreign (view w₀) v) ?_ ?_
    · intro s start
      subst start
      exact ⟨view w₀, fun i => Endpoint.ordered_fresh _, fun i => ⟨nofun, nofun⟩, .none, fun _ => rfl, nofun⟩
    · rintro trace s event s' ⟨v, serves⟩ moved
      exact serves.step sep moved
  exact ⟨v, serves.replays, serves.idle, fun m some => (serves.awaited m some).2.between sep⟩

end Runs

section Serving
variable {ι : Type} [DecidableEq ι] {F : Signature} {S R W : Type} {svc : ι → Service F S R}
  {exec : Interp F W} {Own Foreign : ι → ByteArray → Prop} {s : Session ι F S R W}
  {answer : (op : F.Op) → W → F.Ret op × W} {trace : List (SessionEvent ι R)} {stores : ι → S} {w₀ : W}

/-- Steps of one loop alone continue a session. -/
theorem Session.Run.working (h : Session.Run svc exec Own Foreign stores w₀ trace s) {i : ι}
    {acts : List (Act R)} {e : Endpoint F S R} {w : W}
    (later : Continues (Working (svc i) exec) (s.cluster.endpoint i, s.cluster.world) acts (e, w)) :
    ∃ trace', Session.Run svc exec Own Foreign stores w₀ trace'
      { s with cluster := ⟨Function.update s.cluster.endpoint i e, w⟩ } := by
  let placed (p : Endpoint F S R × W) : Session ι F S R W :=
    { s with cluster := ⟨Function.update s.cluster.endpoint i p.1, p.2⟩ }
  have one : ∀ {p a p'}, Working (svc i) exec p a p' →
      Session.Step svc exec Own Foreign (placed p) (.other (.act i a)) (placed p') := by
    rintro p a p' ⟨moved, quiet⟩
    have here : (placed p).cluster.endpoint i = p.1 := by
      simp only [placed, Function.update_self]
    have next : Cluster.Step svc exec (placed p).cluster (.act i a)
        ⟨Function.update (placed p).cluster.endpoint i p'.1, p'.2⟩ := .act (here ▸ moved)
    simp only [placed, Function.update_idem] at next
    refine .other (fun j payload same => ?_) next
    cases same
    exact absurd rfl (quiet payload)
  have lifted := later.map placed (fun a => SessionEvent.other (.act i a)) one
  simp only [placed, Function.update_eq_self] at lifted
  exact ⟨_, h.continues lifted⟩

/-- While all loops are idle, any of them can be asked one thing more. -/
theorem Session.Run.exchange (h : Session.Run svc exec Own Foreign stores w₀ trace s)
    (given : ∀ op w, exec op w (answer op w).1 (answer op w).2) (free : s.awaited = none)
    (idle : ∀ i, (s.cluster.endpoint i).Idle) {i : ι} {payload : ByteArray} (own : Own i payload)
    {store : S} {r : R} {w : W}
    (ran : ((svc i).handle (s.cluster.endpoint i).store payload).runOn answer s.cluster.world =
      (.value (store, r), w)) :
    ∃ trace' s', Session.Run svc exec Own Foreign stores w₀ trace' s' ∧ s'.awaited = none ∧
      s'.exchanged = s.exchanged ++ [⟨i, payload, (svc i).reply r⟩] ∧ s'.cluster.world = w ∧
      ∀ j, (s'.cluster.endpoint j).Idle := by
  generalize here : s.cluster.endpoint i = e at ran
  have ready : e.Idle := here ▸ idle i
  let arrived : Endpoint F S R := { e with stream := e.stream ++ [payload] }
  let taken : Endpoint F S R := { arrived with
    taken := e.taken + 1
    phase := .handling e.taken payload ((svc i).handle e.store payload) }
  let replied : Endpoint F S R := { taken with
    store := store
    phase := .waiting
    attempts := e.attempts ++ [(e.taken, (svc i).reply r)] }
  have there : arrived.stream[arrived.taken]? = some payload := by
    simp only [arrived, ready.drained, List.getElem?_concat_length]
  have arrives : RequestLoop.Step (svc i) exec (s.cluster.endpoint i) s.cluster.world (.arrive payload)
      arrived s.cluster.world := by
    rw [here]
    exact .arrive payload ready.opened
  have sent := h.snoc (.send free own (.act arrives))
  have take : Working (svc i) exec (arrived, s.cluster.world) .take (taken, s.cluster.world) :=
    ⟨.take ready.phase there, nofun⟩
  obtain ⟨acts, rest⟩ : ∃ acts, Continues (Working (svc i) exec) (taken, s.cluster.world) acts (replied, w) :=
    serves_handled given ran rfl
  have served : Continues (Working (svc i) exec)
      (Function.update s.cluster.endpoint i arrived i, s.cluster.world) (.take :: acts) (replied, w) := by
    rw [Function.update_self]
    exact .cons take rest
  rw [here] at sent
  obtain ⟨trace', run⟩ := Session.Run.working sent served
  simp only [Function.update_idem] at run
  have answered : (e.stream.length, (svc i).reply r) ∈
      ((Function.update s.cluster.endpoint i replied) i).attempts := by
    simp only [Function.update_self, replied, ← ready.drained]
    exact List.mem_append_right _ (List.mem_singleton_self _)
  refine ⟨_, _, run.snoc (.receive rfl answered), rfl, rfl, rfl, ?_⟩
  refine (Function.forall_update_iff s.cluster.endpoint fun _ e => e.Idle).mpr ⟨⟨rfl, ready.opened, ?_⟩,
    fun j _ => idle j⟩
  simp only [replied, taken, arrived, ready.drained, List.length_append, List.length_singleton]

/-- All that the machine can be answered, a client can be answered, if what it is answered can come of
a run of the loop that is asked. -/
theorem Session.reached {V : Type} {view : W → V} {spec : ι → ByteArray → V → Outcome R → V → Prop}
    (owns : ∀ {i payload v o v'}, spec i payload v o v' → Own i payload)
    (runs : ∀ {i payload w r v'}, spec i payload (view w) (.value r) v' → ∀ store : S,
      ∃ answer : (op : F.Op) → W → F.Ret op × W, (∀ op w, exec op w (answer op w).1 (answer op w).2) ∧
        ∃ w', ((svc i).handle store payload).runOn answer w = (.value (store, r), w') ∧ view w' = v')
    (stores : ι → S) (w₀ : W) {exchanged : List (Exchanged ι)} {v : V}
    (h : Replays svc spec (view w₀) exchanged v) :
    ∃ trace s, Session.Run svc exec Own Foreign stores w₀ trace s ∧ s.awaited = none ∧
      s.exchanged = exchanged ∧ view s.cluster.world = v ∧ ∀ i, (s.cluster.endpoint i).Idle := by
  induction h with
  | none => exact ⟨[], _, .start rfl, rfl, rfl, rfl, fun i => Endpoint.idle_fresh _⟩
  | @snoc done v v' i payload r _ served ih =>
      obtain ⟨trace, s, run, free, rfl, rfl, idle⟩ := ih
      obtain ⟨answer, given, w, ran, rfl⟩ := runs served (s.cluster.endpoint i).store
      obtain ⟨trace', s', run', free', exchanged', rfl, idle'⟩ := run.exchange given free idle (owns served) ran
      exact ⟨trace', s', run', free', exchanged', rfl, idle'⟩

end Serving
end RequestLoop
