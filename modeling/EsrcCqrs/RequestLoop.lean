import EsrcCqrs.Interaction
import Mathlib.Data.List.Nodup
import Mathlib.Logic.Function.Basic

/-! Request loops on a shared world. A loop takes the requests of its own stream one by
one, runs a program for each, and attempts one reply before it takes the next. -/

namespace RequestLoop
open Interaction

/-- What a loop does with a request, and the reply it makes of the result. -/
structure Service (F : Signature) (S R : Type) where
  handle : S → ByteArray → Prog F (S × R)
  reply : R → ByteArray

/-- Where a loop stands. `ended` and `panicked` are the two ways in which it is over by
itself; `aborted` means that it was dropped from outside. -/
inductive Phase (F : Signature) (S R : Type) where
  | waiting
  | handling (index : Nat) (payload : ByteArray) (p : Prog F (S × R))
  | responding
  | ended
  | panicked (message : String)
  | aborted

/-- A loop with its stream. An attempt is a reply that was handed to the transport, with
the position of the request that it answers. -/
structure Endpoint (F : Signature) (S R : Type) where
  stream : List ByteArray
  closed : Bool
  taken : Nat
  store : S
  phase : Phase F S R
  attempts : List (Nat × ByteArray)

inductive Act (R : Type) where
  | arrive (payload : ByteArray)
  | close
  | take
  | call
  | finish (result : R)
  | unwind
  | responded (sent : Bool)
  | leave

section Loops
variable {F : Signature} {S R W : Type}

def Endpoint.fresh (store : S) : Endpoint F S R := ⟨[], false, 0, store, .waiting, []⟩

def Phase.stop : Phase F S R → Phase F S R
  | .ended => .ended
  | .panicked message => .panicked message
  | _ => .aborted

/-- Dropping the task of a loop that is not over yet. -/
def Endpoint.stop (e : Endpoint F S R) : Endpoint F S R := { e with phase := e.phase.stop }

inductive Step (svc : Service F S R) (exec : Interp F W) :
    Endpoint F S R → W → Act R → Endpoint F S R → W → Prop
  | arrive {e : Endpoint F S R} {w : W} (payload : ByteArray) :
      e.closed = false →
      Step svc exec e w (.arrive payload) { e with stream := e.stream ++ [payload] } w
  | close {e : Endpoint F S R} {w : W} : Step svc exec e w .close { e with closed := true } w
  | take {e : Endpoint F S R} {w : W} {payload : ByteArray} :
      e.phase = .waiting → e.stream[e.taken]? = some payload →
      Step svc exec e w .take { e with
        taken := e.taken + 1
        phase := .handling e.taken payload (svc.handle e.store payload) } w
  | call {e : Endpoint F S R} {w w' : W} {index : Nat} {payload : ByteArray} {op : F.Op}
      {next : F.Ret op → Prog F (S × R)} {r : F.Ret op} :
      e.phase = .handling index payload (.call op next) → exec op w r w' →
      Step svc exec e w .call { e with phase := .handling index payload (next r) } w'
  | finish {e : Endpoint F S R} {w : W} {index : Nat} {payload : ByteArray} {store : S} {r : R} :
      e.phase = .handling index payload (.ret (store, r)) →
      Step svc exec e w (.finish r) { e with
        store := store
        phase := .responding
        attempts := e.attempts ++ [(index, svc.reply r)] } w
  | unwind {e : Endpoint F S R} {w : W} {index : Nat} {payload : ByteArray} {message : String} :
      e.phase = .handling index payload (.panic message) →
      Step svc exec e w .unwind { e with phase := .panicked message } w
  -- whether the transport took the reply changes nothing for the loop
  | responded {e : Endpoint F S R} {w : W} (sent : Bool) :
      e.phase = .responding →
      Step svc exec e w (.responded sent) { e with phase := .waiting } w
  | leave {e : Endpoint F S R} {w : W} :
      e.phase = .waiting → e.closed = true → e.taken = e.stream.length →
      Step svc exec e w .leave { e with phase := .ended } w

/-- How far a loop is, given its phase. -/
def Endpoint.Position (e : Endpoint F S R) : Prop :=
  match e.phase with
  | .waiting => e.taken = e.attempts.length
  | .handling index payload _ =>
      index = e.attempts.length ∧ e.taken = index + 1 ∧ e.stream[index]? = some payload
  | .responding => e.taken = e.attempts.length
  | .ended => e.taken = e.attempts.length ∧ e.closed = true ∧ e.taken = e.stream.length
  | .panicked _ => e.taken = e.attempts.length + 1
  | .aborted => e.attempts.length ≤ e.taken ∧ e.taken ≤ e.attempts.length + 1

/-- Replies are attempted in arrival order, one for each request, none skipped. -/
structure Endpoint.Ordered (e : Endpoint F S R) : Prop where
  indices : e.attempts.map Prod.fst = List.range e.attempts.length
  arrived : e.taken ≤ e.stream.length
  position : e.Position

theorem Endpoint.ordered_fresh (store : S) : (fresh store : Endpoint F S R).Ordered :=
  ⟨rfl, Nat.le_refl 0, rfl⟩

/-- A longer list has the same elements where the shorter one has any. -/
theorem getElem?_of_prefix {α : Type} {l l' : List α} (h : l <+: l') {k : Nat} {a : α}
    (there : l[k]? = some a) : l'[k]? = some a := by
  obtain ⟨bound, rfl⟩ := List.getElem?_eq_some_iff.mp there
  exact List.prefix_iff_getElem?.mp h k bound

theorem Endpoint.Ordered.attempt_lt {e : Endpoint F S R} (h : e.Ordered) {k : Nat}
    {body : ByteArray} (member : (k, body) ∈ e.attempts) : k < e.attempts.length := by
  have listed : k ∈ e.attempts.map Prod.fst := List.mem_map.mpr ⟨(k, body), member, rfl⟩
  rw [h.indices] at listed
  exact List.mem_range.mp listed

/-- The replies that were attempted are those to the first requests. -/
theorem Endpoint.Ordered.attempt_at {e : Endpoint F S R} (h : e.Ordered) {k : Nat}
    (answered : k < e.attempts.length) : ∃ body, (k, body) ∈ e.attempts := by
  have listed : k ∈ e.attempts.map Prod.fst := by
    rw [h.indices]
    exact List.mem_range.mpr answered
  obtain ⟨⟨k', body⟩, member, rfl⟩ := List.mem_map.mp listed
  exact ⟨body, member⟩

theorem Endpoint.Ordered.attempt_unique {e : Endpoint F S R} (h : e.Ordered) {k : Nat}
    {body body' : ByteArray} (member : (k, body) ∈ e.attempts) (member' : (k, body') ∈ e.attempts) :
    body = body' := by
  have distinct : (e.attempts.map Prod.fst).Nodup := by
    rw [h.indices]
    exact List.nodup_range
  exact (Prod.mk.inj (List.inj_on_of_nodup_map distinct member member' rfl)).2

theorem Endpoint.stop_phase_ne (e : Endpoint F S R) (index : Nat) (payload : ByteArray)
    (p : Prog F (S × R)) : e.stop.phase ≠ .handling index payload p := by
  unfold Endpoint.stop
  cases e.phase <;> exact nofun

theorem Endpoint.Ordered.stop {e : Endpoint F S R} (h : e.Ordered) : e.stop.Ordered := by
  refine ⟨h.indices, h.arrived, ?_⟩
  have position := h.position
  unfold Endpoint.Position at position
  unfold Endpoint.stop Endpoint.Position
  cases phase : e.phase with
  | waiting =>
      rw [phase] at position
      exact ⟨Nat.le_of_eq position.symm, Nat.le_succ_of_le (Nat.le_of_eq position)⟩
  | handling index payload p =>
      rw [phase] at position
      obtain ⟨rfl, taken, -⟩ := position
      exact ⟨Nat.le_of_lt (Nat.le_of_eq taken.symm), Nat.le_of_eq taken⟩
  | responding =>
      rw [phase] at position
      exact ⟨Nat.le_of_eq position.symm, Nat.le_succ_of_le (Nat.le_of_eq position)⟩
  | ended =>
      rw [phase] at position
      exact position
  | panicked message =>
      rw [phase] at position
      exact position
  | aborted =>
      rw [phase] at position
      exact position

theorem Step.ordered {svc : Service F S R} {exec : Interp F W} {e e' : Endpoint F S R} {w w' : W}
    {a : Act R} (h : Step svc exec e w a e' w') (ordered : e.Ordered) : e'.Ordered := by
  obtain ⟨indices, arrived, position⟩ := ordered
  unfold Endpoint.Position at position
  cases h with
  | arrive payload opened =>
      refine ⟨indices, ?_, ?_⟩
      · simp only [List.length_append]
        omega
      · unfold Endpoint.Position
        cases phase : e.phase with
        | handling index payload' p =>
            rw [phase] at position
            obtain ⟨here, taken, there⟩ := position
            refine ⟨here, taken, ?_⟩
            rw [List.getElem?_append_left (by omega)]
            exact there
        | ended =>
            rw [phase] at position
            rw [position.2.1] at opened
            cases opened
        | _ =>
            rw [phase] at position
            exact position
  | close =>
      refine ⟨indices, arrived, ?_⟩
      unfold Endpoint.Position
      cases phase : e.phase with
      | ended =>
          rw [phase] at position
          exact ⟨position.1, rfl, position.2.2⟩
      | _ =>
          rw [phase] at position
          exact position
  | take phase there =>
      rw [phase] at position
      exact ⟨indices, (List.getElem?_eq_some_iff.mp there).1, position, rfl, there⟩
  | call phase _ =>
      rw [phase] at position
      exact ⟨indices, arrived, position⟩
  | finish phase =>
      rw [phase] at position
      obtain ⟨rfl, taken, -⟩ := position
      refine ⟨?_, arrived, ?_⟩
      · simp only [List.map_append, indices, List.map_cons, List.map_nil, List.length_append,
          List.length_singleton, List.range_succ]
      · simp only [Endpoint.Position, List.length_append, List.length_singleton]
        exact taken
  | unwind phase =>
      rw [phase] at position
      obtain ⟨rfl, taken, -⟩ := position
      exact ⟨indices, arrived, taken⟩
  | responded sent phase =>
      rw [phase] at position
      exact ⟨indices, arrived, position⟩
  | leave phase closed drained =>
      rw [phase] at position
      exact ⟨indices, arrived, position, closed, drained⟩

/-- Only dropping a loop aborts it, and a loop that has ended stays so. -/
theorem Step.not_aborted {svc : Service F S R} {exec : Interp F W} {e e' : Endpoint F S R}
    {w w' : W} {a : Act R} (h : Step svc exec e w a e' w') (alive : e.phase ≠ .aborted) :
    e'.phase ≠ .aborted := by
  cases h with
  | arrive | close => exact alive
  | _ => exact nofun

theorem Step.ended {svc : Service F S R} {exec : Interp F W} {e e' : Endpoint F S R} {w w' : W}
    {a : Act R} (h : Step svc exec e w a e' w') (ended : e.phase = .ended) : e'.phase = .ended := by
  cases h with
  | arrive | close => exact ended
  | take phase | call phase | finish phase | unwind phase | responded _ phase | leave phase =>
      exact absurd (phase.symm.trans ended) nofun

theorem Step.stream_prefix {svc : Service F S R} {exec : Interp F W} {e e' : Endpoint F S R}
    {w w' : W} {a : Act R} (h : Step svc exec e w a e' w') : e.stream <+: e'.stream := by
  cases h with
  | arrive payload => exact List.prefix_append e.stream [payload]
  | _ => exact List.prefix_refl e.stream

/-- What a loop has been given and has done is not taken back. -/
structure Endpoint.Extends (e e' : Endpoint F S R) : Prop where
  stream : e.stream <+: e'.stream
  taken : e.taken ≤ e'.taken
  attempts : e.attempts <+: e'.attempts

theorem Endpoint.Extends.refl (e : Endpoint F S R) : e.Extends e :=
  ⟨List.prefix_refl _, Nat.le_refl _, List.prefix_refl _⟩

theorem Endpoint.Extends.trans {e e' e'' : Endpoint F S R} (h : e.Extends e') (h' : e'.Extends e'') :
    e.Extends e'' :=
  ⟨h.stream.trans h'.stream, Nat.le_trans h.taken h'.taken, h.attempts.trans h'.attempts⟩

theorem Endpoint.extends_stop (e : Endpoint F S R) : e.Extends e.stop :=
  ⟨List.prefix_refl _, Nat.le_refl _, List.prefix_refl _⟩

theorem Step.extends {svc : Service F S R} {exec : Interp F W} {e e' : Endpoint F S R} {w w' : W}
    {a : Act R} (h : Step svc exec e w a e' w') : e.Extends e' := by
  refine ⟨h.stream_prefix, ?_, ?_⟩
  · cases h with
    | take => exact Nat.le_succ _
    | _ => exact Nat.le_refl _
  · cases h with
    | finish => exact List.prefix_append _ _
    | _ => exact List.prefix_refl _

/-- The world moves by the answers of calls only. -/
theorem Step.world {svc : Service F S R} {exec : Interp F W} {e e' : Endpoint F S R} {w w' : W}
    {a : Act R} (h : Step svc exec e w a e' w') {P : W → W → Prop} (refl : ∀ w, P w w)
    (calls : ∀ {op w r w'}, exec op w r w' → P w w') : P w w' := by
  cases h with
  | call _ returned => exact calls returned
  | _ => exact refl _

def Service.NeverPanics (svc : Service F S R) : Prop :=
  ∀ store payload, (svc.handle store payload).NeverPanics

def Service.SafeUnder (svc : Service F S R) (exec : Interp F W) : Prop :=
  ∀ store payload, (svc.handle store payload).SafeUnder exec

def Act.result : Act R → Option R
  | .finish r => some r
  | _ => none

/-- The attempts are the replies to `results`, the `k`-th of which the handler returned for
the `k`-th request; and no program in hand can unwind. -/
structure Sound (svc : Service F S R) (e : Endpoint F S R) (results : List R) : Prop where
  bodies : e.attempts.map Prod.snd = results.map svc.reply
  own : ∀ (k : Nat) r, results[k]? = some r → ∃ payload store store', e.stream[k]? = some payload ∧
    (svc.handle store payload).Returns (store', r)
  inHand : ∀ index payload p, e.phase = .handling index payload p → p.NeverPanics ∧
    ∃ store, ∀ a, p.Returns a → (svc.handle store payload).Returns a
  calm : ∀ message, e.phase ≠ .panicked message

theorem Sound.stop {svc : Service F S R} {e : Endpoint F S R} {results : List R}
    (h : Sound svc e results) : Sound svc e.stop results := by
  refine ⟨h.bodies, h.own, ?_, ?_⟩
  · intro index payload p phase
    exact absurd phase (e.stop_phase_ne index payload p)
  · intro message phase
    have calm := h.calm message
    simp only [Endpoint.stop] at phase
    unfold Phase.stop at phase
    split at phase
    · cases phase
    · next same =>
        cases phase
        exact calm same
    · cases phase

theorem Sound.step {svc : Service F S R} {exec : Interp F W} {e e' : Endpoint F S R} {w w' : W}
    {a : Act R} {results : List R} (h : Sound svc e results) (safe : svc.NeverPanics)
    (ordered : e.Ordered) (moved : Step svc exec e w a e' w') :
    Sound svc e' (results ++ a.result.toList) := by
  have own : ∀ (k : Nat) r, results[k]? = some r → ∃ payload store store', e'.stream[k]? = some payload ∧
      (svc.handle store payload).Returns (store', r) := by
    intro k r found
    obtain ⟨payload, store, store', there, returned⟩ := h.own k r found
    exact ⟨payload, store, store', getElem?_of_prefix moved.stream_prefix there, returned⟩
  cases moved with
  | arrive | close =>
      simp only [Act.result, Option.toList_none, List.append_nil]
      exact ⟨h.bodies, own, h.inHand, h.calm⟩
  | take phase there =>
      simp only [Act.result, Option.toList_none, List.append_nil]
      refine ⟨h.bodies, own, ?_, nofun⟩
      intro index payload p handling
      cases handling
      exact ⟨safe _ _, _, fun _ returned => returned⟩
  | @call _ index payload op next r phase returned =>
      simp only [Act.result, Option.toList_none, List.append_nil]
      obtain ⟨quiet, store, possible⟩ := h.inHand _ _ _ phase
      refine ⟨h.bodies, own, ?_, nofun⟩
      intro index payload p handling
      cases handling
      exact ⟨quiet r, store, fun a later => possible a (.call r later)⟩
  | @finish index payload store' r phase =>
      obtain ⟨-, store, possible⟩ := h.inHand _ _ _ phase
      have position := ordered.position
      unfold Endpoint.Position at position
      rw [phase] at position
      obtain ⟨rfl, -, there⟩ := position
      have answered : e.attempts.length = results.length := by
        have lengths := congrArg List.length h.bodies
        rw [List.length_map, List.length_map] at lengths
        exact lengths
      simp only [Act.result, Option.toList_some]
      refine ⟨?_, ?_, nofun, nofun⟩
      · simp only [List.map_append, h.bodies, List.map_cons, List.map_nil]
      · intro k r' found
        by_cases early : k < results.length
        · rw [List.getElem?_append_left early] at found
          exact own k r' found
        · rw [List.getElem?_append_right (Nat.le_of_not_lt early)] at found
          have last : k = e.attempts.length := by
            have bound := (List.getElem?_eq_some_iff.mp found).1
            rw [List.length_singleton] at bound
            omega
          subst last
          rw [answered, Nat.sub_self] at found
          cases found
          exact ⟨payload, store, store', there, possible _ (.ret _)⟩
  | unwind phase => exact ((h.inHand _ _ _ phase).1).elim
  | responded | leave =>
      simp only [Act.result, Option.toList_none, List.append_nil]
      exact ⟨h.bodies, own, nofun, nofun⟩

/-- Each attempt is the reply to a result that the handler can come to for that very request. -/
structure Owned (svc : Service F S R) (e : Endpoint F S R) : Prop where
  replies : ∀ {k body}, (k, body) ∈ e.attempts → ∃ payload store store' r,
    e.stream[k]? = some payload ∧ (svc.handle store payload).Returns (store', r) ∧ body = svc.reply r
  inHand : ∀ {index payload p}, e.phase = .handling index payload p →
    ∃ store, ∀ a, p.Returns a → (svc.handle store payload).Returns a

theorem owned_fresh (svc : Service F S R) (store : S) : Owned svc (.fresh store) := ⟨nofun, nofun⟩

theorem Owned.stop {svc : Service F S R} {e : Endpoint F S R} (h : Owned svc e) : Owned svc e.stop :=
  ⟨h.replies, fun phase => absurd phase (e.stop_phase_ne _ _ _)⟩

theorem Owned.step {svc : Service F S R} {exec : Interp F W} {e e' : Endpoint F S R} {w w' : W}
    {a : Act R} (h : Owned svc e) (ordered : e.Ordered) (moved : Step svc exec e w a e' w') :
    Owned svc e' := by
  have replies : ∀ {k body}, (k, body) ∈ e.attempts → ∃ payload store store' r,
      e'.stream[k]? = some payload ∧ (svc.handle store payload).Returns (store', r) ∧
        body = svc.reply r := by
    intro k body member
    obtain ⟨payload, store, store', r, there, rest⟩ := h.replies member
    exact ⟨payload, store, store', r, getElem?_of_prefix moved.stream_prefix there, rest⟩
  cases moved with
  | arrive | close => exact ⟨replies, h.inHand⟩
  | take =>
      refine ⟨replies, fun handling => ?_⟩
      cases handling
      exact ⟨_, fun _ returned => returned⟩
  | call phase =>
      refine ⟨replies, fun handling => ?_⟩
      cases handling
      obtain ⟨store, possible⟩ := h.inHand phase
      exact ⟨store, fun a later => possible a (.call _ later)⟩
  | @finish index payload store' r phase =>
      refine ⟨fun member => ?_, nofun⟩
      rcases List.mem_append.mp member with earlier | last
      · exact replies earlier
      · obtain ⟨store, possible⟩ := h.inHand phase
        have position := ordered.position
        unfold Endpoint.Position at position
        rw [phase] at position
        cases List.mem_singleton.mp last
        exact ⟨payload, store, store', r, position.2.2, possible _ (.ret _), rfl⟩
  | unwind | responded | leave => exact ⟨replies, nofun⟩

/-- Steps of one loop while nothing else moves. -/
abbrev Alongside (svc : Service F S R) (exec : Interp F W) :
    Endpoint F S R × W → Act R → Endpoint F S R × W → Prop :=
  fun s a s' => Step svc exec s.1 s.2 a s'.1 s'.2

section Progress
variable (svc : Service F S R) {exec : Interp F W} (total : ∀ op w, ∃ r w', exec op w r w')
include total

/-- A program in hand that cannot unwind comes to its reply, and the loop back to its stream. -/
theorem answers_one {index : Nat} {payload : ByteArray} {p : Prog F (S × R)} {e : Endpoint F S R}
    {w : W} (safe : p.SafeUnder exec) (phase : e.phase = .handling index payload p) :
    ∃ acts e' w', Continues (Alongside svc exec) (e, w) acts (e', w') ∧ e'.phase = .waiting ∧
      e'.attempts.length = e.attempts.length + 1 ∧ e'.taken = e.taken ∧ e'.stream = e.stream := by
  induction p generalizing e w with
  | ret a =>
      rcases a with ⟨store, r⟩
      let replied : Endpoint F S R := { e with
        store := store
        phase := .responding
        attempts := e.attempts ++ [(index, svc.reply r)] }
      have finished : Alongside svc exec (e, w) (.finish r) (replied, w) := .finish phase
      have sent : Alongside svc exec (replied, w) (.responded true)
          ({ replied with phase := .waiting }, w) := .responded true rfl
      exact ⟨_, { replied with phase := .waiting }, w, .cons finished (.cons sent (.done _)), rfl,
        List.length_append, rfl, rfl⟩
  | panic message => exact safe.elim
  | call op next ih =>
      obtain ⟨r, w₁, returned⟩ := total op w
      obtain ⟨acts, e', w', further, rest⟩ := ih r (safe w r w₁ returned) (e := { e with
        phase := .handling index payload (next r) }) (w := w₁) rfl
      have called : Alongside svc exec (e, w) .call
          ({ e with phase := .handling index payload (next r) }, w₁) := .call phase returned
      exact ⟨_, e', w', .cons called further, rest⟩

/-- A waiting loop can answer everything that stands in its stream. -/
theorem answers_all (safe : svc.SafeUnder exec) (pending : Nat) {e : Endpoint F S R} {w : W}
    (phase : e.phase = .waiting) (taken : e.taken = e.attempts.length)
    (rest : e.stream.length = e.attempts.length + pending) :
    ∃ acts e' w', Continues (Alongside svc exec) (e, w) acts (e', w') ∧
      e'.attempts.length = e.stream.length ∧ e'.stream = e.stream := by
  induction pending generalizing e w with
  | zero => exact ⟨[], e, w, .done _, rest.symm, rfl⟩
  | succ pending ih =>
      have more : e.taken < e.stream.length := by omega
      obtain ⟨payload, there⟩ : ∃ payload, e.stream[e.taken]? = some payload :=
        ⟨_, List.getElem?_eq_getElem more⟩
      obtain ⟨acts, e₁, w₁, one, waiting, answered, taken₁, stream₁⟩ :=
        answers_one svc total (safe e.store payload) (e := { e with
          taken := e.taken + 1
          phase := .handling e.taken payload (svc.handle e.store payload) })
          (w := w) rfl
      obtain ⟨acts', e', w', others, all, stream'⟩ := ih (e := e₁) (w := w₁) waiting
        (by rw [taken₁, answered]; exact congrArg (· + 1) taken)
        (by rw [stream₁, answered]; simp only []; omega)
      rw [stream₁] at all stream'
      have took : Alongside svc exec (e, w) .take ({ e with
          taken := e.taken + 1
          phase := .handling e.taken payload (svc.handle e.store payload) }, w) := .take phase there
      exact ⟨_, e', w', .cons took (one.trans others), all, stream'⟩

/-- From any point at which the loop has not been dropped. -/
theorem answers_stream (safe : svc.SafeUnder exec) {e : Endpoint F S R} {w : W} (ordered : e.Ordered)
    (inHand : ∀ index payload p, e.phase = .handling index payload p → p.SafeUnder exec)
    (alive : e.phase ≠ .aborted ∧ ∀ message, e.phase ≠ .panicked message) :
    ∃ acts e' w', Continues (Alongside svc exec) (e, w) acts (e', w') ∧
      e'.attempts.length = e.stream.length ∧ e'.stream = e.stream := by
  obtain ⟨-, arrived, position⟩ := ordered
  unfold Endpoint.Position at position
  cases phase : e.phase with
  | waiting =>
      rw [phase] at position
      exact answers_all svc total safe (e.stream.length - e.attempts.length) phase position (by omega)
  | handling index payload p =>
      rw [phase] at position
      obtain ⟨acts, e₁, w₁, one, waiting, answered, taken, stream⟩ :=
        answers_one svc total (inHand index payload p phase) (w := w) phase
      obtain ⟨acts', e', w', others, all, stream'⟩ := answers_all svc total safe
        (e.stream.length - e₁.attempts.length) (w := w₁) waiting (by omega) (by rw [stream]; omega)
      rw [stream] at all stream'
      exact ⟨_, e', w', one.trans others, all, stream'⟩
  | responding =>
      rw [phase] at position
      obtain ⟨acts, e', w', others, all, stream⟩ := answers_all svc total safe
        (e.stream.length - e.attempts.length) (e := { e with phase := .waiting }) (w := w) rfl
        position (by simp only []; omega)
      have sent : Alongside svc exec (e, w) (.responded true) ({ e with phase := .waiting }, w) :=
        .responded true phase
      exact ⟨_, e', w', .cons sent others, all, stream⟩
  | ended =>
      rw [phase] at position
      exact ⟨[], e, w, .done _, position.1.symm.trans position.2.2, rfl⟩
  | panicked message => exact absurd phase (alive.2 message)
  | aborted => exact absurd phase alive.1

end Progress

/-- On a world that gives every answer, a program in hand can come to each of its results. -/
theorem returns_one (svc : Service F S R) {exec : Interp F W} (free : ∀ op w r, ∃ w', exec op w r w')
    {index : Nat} {payload : ByteArray} {p : Prog F (S × R)} {store : S} {r : R}
    (returns : p.Returns (store, r)) {e : Endpoint F S R} {w : W}
    (phase : e.phase = .handling index payload p) :
    ∃ acts e' w', Continues (Alongside svc exec) (e, w) acts (e', w') ∧ e'.phase = .waiting ∧
      e'.store = store ∧ e'.taken = e.taken ∧ e'.stream = e.stream := by
  generalize result : (store, r) = a at returns
  induction returns generalizing e w with
  | ret a =>
      subst result
      let replied : Endpoint F S R := { e with
        store := store
        phase := .responding
        attempts := e.attempts ++ [(index, svc.reply r)] }
      have finished : Alongside svc exec (e, w) (.finish r) (replied, w) := .finish phase
      have sent : Alongside svc exec (replied, w) (.responded true)
          ({ replied with phase := .waiting }, w) := .responded true rfl
      exact ⟨_, { replied with phase := .waiting }, w, .cons finished (.cons sent (.done _)), rfl, rfl,
        rfl, rfl⟩
  | @call op next a answer _ ih =>
      obtain ⟨w₁, returned⟩ := free op w answer
      have called : Alongside svc exec (e, w) .call
          ({ e with phase := .handling index payload (next answer) }, w₁) := .call phase returned
      obtain ⟨acts, e', w', further, rest⟩ := ih (w := w₁)
        (e := { e with phase := .handling index payload (next answer) }) rfl result
      exact ⟨_, e', w', .cons called further, rest⟩

end Loops

section Clusters
variable {ι : Type} {F G : Signature} {S R W : Type}

/-- Loops that share one world. -/
structure Cluster (ι : Type) (F : Signature) (S R W : Type) where
  endpoint : ι → Endpoint F S R
  world : W

inductive Label (ι R : Type) where
  | act (i : ι) (a : Act R)
  | stop (which : ι → Bool)

/-- A part of the endpoints that a step of one of them does not touch. -/
theorem update_unchanged [DecidableEq ι] {γ : Type} (f : Endpoint F S R → γ)
    (endpoint : ι → Endpoint F S R) (i : ι) (e : Endpoint F S R) (same : f e = f (endpoint i))
    (j : ι) : f (Function.update endpoint i e j) = f (endpoint j) := by
  by_cases here : j = i
  · subst here
    rw [Function.update_self]
    exact same
  · rw [Function.update_of_ne here]

namespace Cluster

def fresh (store : ι → S) (w : W) : Cluster ι F S R W := ⟨fun i => .fresh (store i), w⟩

/-- Any loop may move; any set of them may be dropped at once. -/
inductive Step [DecidableEq ι] (svc : ι → Service F S R) (exec : Interp F W) :
    Cluster ι F S R W → Label ι R → Cluster ι F S R W → Prop
  | act {s : Cluster ι F S R W} {i : ι} {a : Act R} {e : Endpoint F S R} {w : W} :
      RequestLoop.Step (svc i) exec (s.endpoint i) s.world a e w →
      Step svc exec s (.act i a) ⟨Function.update s.endpoint i e, w⟩
  | stop {s : Cluster ι F S R W} (which : ι → Bool) :
      Step svc exec s (.stop which)
        ⟨fun i => if which i then (s.endpoint i).stop else s.endpoint i, s.world⟩

abbrev Run [DecidableEq ι] (svc : ι → Service F S R) (exec : Interp F W) (store : ι → S) (w : W) :
    List (Label ι R) → Cluster ι F S R W → Prop :=
  Execution (· = fresh store w) (Step svc exec)

variable [DecidableEq ι] {svc : ι → Service F S R} {exec : Interp F W} {store : ι → S} {w₀ : W}

/-- What holds of every endpoint after a step: the step of one of them may bring it about, being
dropped must, and the others have it from before. -/
theorem Step.endpoints {I : ι → Endpoint F S R → Prop} {s s' : Cluster ι F S R W} {label : Label ι R}
    (h : Step svc exec s label s') (before : ∀ i, I i (s.endpoint i))
    (stop : ∀ i, I i (s.endpoint i).stop)
    (own : ∀ {i a e w}, RequestLoop.Step (svc i) exec (s.endpoint i) s.world a e w → I i e) (i : ι) :
    I i (s'.endpoint i) := by
  cases h with
  | @act j a e w moved =>
      exact (Function.forall_update_iff s.endpoint I).mpr ⟨own moved, fun i _ => before i⟩ i
  | stop which =>
      simp only []
      split
      · exact stop i
      · exact before i

theorem Step.ordered {s s' : Cluster ι F S R W} {label : Label ι R} (h : Step svc exec s label s')
    (ordered : ∀ i, (s.endpoint i).Ordered) : ∀ i, (s'.endpoint i).Ordered :=
  h.endpoints ordered (fun i => (ordered i).stop) fun moved => moved.ordered (ordered _)

theorem ordered {trace : List (Label ι R)} {s : Cluster ι F S R W}
    (h : Run svc exec store w₀ trace s) (i : ι) : (s.endpoint i).Ordered := by
  refine h.invariant (I := fun _ s => ∀ i, (s.endpoint i).Ordered) ?_ ?_ i
  · intro s start j
    subst start
    exact Endpoint.ordered_fresh _
  · intro _ s label s' holds moved
    exact moved.ordered holds

/-- What each endpoint keeps for itself holds of all of them in every run. -/
theorem Run.endpoints {I : ι → Endpoint F S R → Prop} {trace : List (Label ι R)}
    {s : Cluster ι F S R W} (h : Run svc exec store w₀ trace s) (first : ∀ i, I i (.fresh (store i)))
    (stop : ∀ {i e}, I i e → I i e.stop)
    (own : ∀ {i e w a e' w'}, e.Ordered → I i e → RequestLoop.Step (svc i) exec e w a e' w' → I i e')
    (i : ι) : I i (s.endpoint i) := by
  induction h generalizing i with
  | start start =>
      subst start
      exact first i
  | snoc run moved ih => exact moved.endpoints ih (fun i => stop (ih i)) (own (ordered run _) (ih _)) i

theorem owned {trace : List (Label ι R)} {s : Cluster ι F S R W} (h : Run svc exec store w₀ trace s)
    (i : ι) : Owned (svc i) (s.endpoint i) :=
  h.endpoints (I := fun i e => Owned (svc i) e) (fun _ => owned_fresh _ _) Owned.stop
    (fun ordered holds moved => holds.step ordered moved) i

theorem Step.extends {s s' : Cluster ι F S R W} {label : Label ι R} (h : Step svc exec s label s')
    (i : ι) : (s.endpoint i).Extends (s'.endpoint i) :=
  h.endpoints (I := fun i e => (s.endpoint i).Extends e) (fun _ => .refl _)
    (fun _ => Endpoint.extends_stop _) (fun moved => moved.extends) i

theorem Step.world {s s' : Cluster ι F S R W} {label : Label ι R} (h : Step svc exec s label s')
    {P : W → W → Prop} (refl : ∀ w, P w w)
    (calls : ∀ {op w r w'}, exec op w r w' → P w w') : P s.world s'.world := by
  cases h with
  | act moved => exact moved.world refl calls
  | stop which => exact refl _

/-- The first `n` steps of a cluster, with its states. -/
abbrev Timed (svc : ι → Service F S R) (exec : Interp F W) (store : ι → S) (w : W) (n : Nat) :=
  Timeline (· = fresh store w) (Step svc exec) n

section Timelines
variable {n : Nat} (run : Timed svc exec store w₀ n)

theorem Timed.ordered {t : Nat} (h : t ≤ n) (i : ι) : ((run.state t).endpoint i).Ordered := by
  refine run.holds (I := fun s => ∀ i, (s.endpoint i).Ordered) ?_ ?_ h i
  · intro s start j
    subst start
    exact Endpoint.ordered_fresh _
  · intro s label s' holds moved
    exact moved.ordered holds

theorem Timed.extends {t u : Nat} (h : t ≤ u) (bound : u ≤ n) (i : ι) :
    ((run.state t).endpoint i).Extends ((run.state u).endpoint i) :=
  run.grows (P := fun s s' => (s.endpoint i).Extends (s'.endpoint i)) (fun _ => .refl _)
    (fun h h' => h.trans h') (fun moved => moved.extends i) h bound

/-- What holds of one endpoint at every time: it is kept while the others move, when the endpoint
is dropped, and by the endpoint's own steps. -/
theorem Timed.endpoint (i : ι) {T : Nat → Endpoint F S R → Prop} (first : T 0 (.fresh (store i)))
    (later : ∀ t e, t < n → T t e → T (t + 1) e) (stop : ∀ t e, T t e → T t e.stop)
    (own : ∀ t a e, t < n → run.label t = .act i a →
      RequestLoop.Step (svc i) exec ((run.state t).endpoint i) (run.state t).world a e
        (run.state (t + 1)).world →
      T t ((run.state t).endpoint i) → T (t + 1) e) {t : Nat} (h : t ≤ n) :
    T t ((run.state t).endpoint i) := by
  induction t with
  | zero =>
      rw [run.first]
      exact first
  | succ t ih =>
      have holds := ih (Nat.le_of_succ_le h)
      have moved := run.moves t h
      generalize at_next : run.state (t + 1) = s' at moved
      generalize at_label : run.label t = label at moved
      cases moved with
      | @act j a e w moved =>
          by_cases here : i = j
          · subst here
            simp only [Function.update_self]
            refine own t a e h at_label ?_ holds
            rw [at_next]
            exact moved
          · simp only [Function.update_of_ne here]
            exact later t _ h holds
      | stop which =>
          simp only []
          split
          · exact later t _ h (stop t _ holds)
          · exact later t _ h holds

theorem Timed.payload_at {i : ι} {u k : Nat} {payload : ByteArray} {p : Prog F (S × R)} (inside : u ≤ n)
    (handling : ((run.state u).endpoint i).phase = .handling k payload p) :
    ((run.state n).endpoint i).stream[k]? = some payload := by
  have position := (run.ordered inside i).position
  unfold Endpoint.Position at position
  rw [handling] at position
  obtain ⟨-, -, there⟩ := position
  exact getElem?_of_prefix (run.extends inside (Nat.le_refl n) i).stream there

/-- A request in hand is taken and not yet answered, so its time lies between the two. -/
theorem Timed.taken_before {i : ι} {t u k : Nat} {payload : ByteArray} {p : Prog F (S × R)}
    (bound : t ≤ n) (handling : ((run.state u).endpoint i).phase = .handling k payload p)
    (untaken : ((run.state t).endpoint i).taken ≤ k) (inside : u ≤ n) : t ≤ u := by
  by_contra earlier
  have grown := (run.extends (Nat.le_of_lt (Nat.lt_of_not_le earlier)) bound i).taken
  have position := (run.ordered inside i).position
  unfold Endpoint.Position at position
  rw [handling] at position
  omega

theorem Timed.answered_after {i : ι} {t u k : Nat} {payload : ByteArray} {p : Prog F (S × R)}
    (inside : u ≤ n) (handling : ((run.state u).endpoint i).phase = .handling k payload p)
    (answered : k < ((run.state t).endpoint i).attempts.length) : u ≤ t := by
  by_contra later
  have grown := (run.extends (Nat.le_of_lt (Nat.lt_of_not_le later)) inside i).attempts.length_le
  have position := (run.ordered inside i).position
  unfold Endpoint.Position at position
  rw [handling] at position
  omega

end Timelines
end Cluster
end Clusters
end RequestLoop
