import Mathlib.Logic.Basic
import Mathlib.Logic.Function.Basic

/-! Programs that await calls on a shared world, and executions of labelled
transition systems. A call is atomic; whatever happens elsewhere happens between
two calls of the same program. -/

namespace Interaction

structure Signature where
  Op : Type
  Ret : Op → Type

/-- No calls at all. -/
abbrev Signature.none : Signature := ⟨Empty, Empty.elim⟩

/-- Calls of either signature. -/
def Signature.sum (F G : Signature) : Signature where
  Op := F.Op ⊕ G.Op
  Ret := Sum.elim F.Ret G.Ret

/-- Calls of any member of a family. -/
def Signature.family {κ : Type} (F : κ → Signature) : Signature where
  Op := Σ k, (F k).Op
  Ret op := (F op.1).Ret op.2

/-- A suspended computation: finished, unwinding, or waiting for one call. -/
inductive Prog (F : Signature) (α : Type) where
  | ret (a : α)
  | panic (message : String)
  | call (op : F.Op) (next : F.Ret op → Prog F α)

inductive Outcome (α : Type) where
  | value (a : α)
  | panicked (message : String)
  deriving DecidableEq, Repr

namespace Outcome
variable {α β : Type}

def map (f : α → β) : Outcome α → Outcome β
  | .value a => .value (f a)
  | .panicked message => .panicked message

@[simp] theorem map_value (f : α → β) (a : α) : (Outcome.value a).map f = .value (f a) := rfl

end Outcome

/-- What a world lets a call return, and the world it leaves. -/
abbrev Interp (F : Signature) (W : Type) := (op : F.Op) → W → F.Ret op → W → Prop

namespace Prog
variable {F G : Signature} {α β W : Type}

/-- A synchronous step: no call is awaited in it. -/
def ofOutcome : Outcome α → Prog F α
  | .value a => .ret a
  | .panicked message => .panic message

theorem ret_ne_call {a : α} {op : F.Op} {next : F.Ret op → Prog F α} :
    (.ret a : Prog F α) ≠ .call op next := nofun

theorem panic_ne_call {message : String} {op : F.Op} {next : F.Ret op → Prog F α} :
    (.panic message : Prog F α) ≠ .call op next := nofun

theorem ofOutcome_ne_call {o : Outcome α} {op : F.Op} {next : F.Ret op → Prog F α} :
    ofOutcome o ≠ .call op next := by
  cases o with
  | value a => exact ret_ne_call
  | panicked message => exact panic_ne_call

theorem ofOutcome_eq_ret {o : Outcome α} {a : α} (h : (ofOutcome o : Prog F α) = .ret a) :
    o = .value a := by
  cases o with
  | value b =>
      cases h
      rfl
  | panicked message => cases h

def map (f : α → β) : Prog F α → Prog F β
  | .ret a => .ret (f a)
  | .panic message => .panic message
  | .call op next => .call op fun r => (next r).map f

theorem map_ofOutcome (f : α → β) (o : Outcome α) :
    (ofOutcome o : Prog F α).map f = ofOutcome (o.map f) := by
  cases o with
  | value a => rfl
  | panicked message => rfl

def inl : Prog F α → Prog (F.sum G) α
  | .ret a => .ret a
  | .panic message => .panic message
  | .call op next => .call (.inl op) fun r => (next r).inl

def inr : Prog G α → Prog (F.sum G) α
  | .ret a => .ret a
  | .panic message => .panic message
  | .call op next => .call (.inr op) fun r => (next r).inr

/-- A program that calls one member of a family only. -/
def member {κ : Type} {F : κ → Signature} (k : κ) : Prog (F k) α → Prog (.family F) α
  | .ret a => .ret a
  | .panic message => .panic message
  | .call op next => .call ⟨k, op⟩ fun r => (next r).member k

/-- The outcome when every call is answered by `answer`. -/
def eval (answer : (op : F.Op) → F.Ret op) : Prog F α → Outcome α
  | .ret a => .value a
  | .panic message => .panicked message
  | .call op next => (next (answer op)).eval answer

/-- No answers whatever make the program unwind. -/
def NeverPanics : Prog F α → Prop
  | .ret _ => True
  | .panic _ => False
  | .call _ next => ∀ r, (next r).NeverPanics

/-- No answers that `exec` gives make the program unwind. -/
def SafeUnder (exec : Interp F W) : Prog F α → Prop
  | .ret _ => True
  | .panic _ => False
  | .call op next => ∀ w r w', exec op w r w' → (next r).SafeUnder exec

/-- Some answers lead the program to `a`. -/
inductive Returns : Prog F α → α → Prop
  | ret (a : α) : Returns (.ret a) a
  | call {op : F.Op} {next : F.Ret op → Prog F α} {a : α} (r : F.Ret op) :
      Returns (next r) a → Returns (.call op next) a

section Sequential
variable {L : Type} (answer : (op : F.Op) → L → F.Ret op × L)

/-- A whole run on a world of its own, whose answers are determined. -/
def runOn : Prog F α → L → Outcome α × L
  | .ret a, l => (.value a, l)
  | .panic message, l => (.panicked message, l)
  | .call op next, l => (next (answer op l).1).runOn (answer op l).2

/-- The part of such a run from `p` on `l` to what is left of it. -/
inductive Path (p : Prog F α) (l : L) : Prog F α → L → Prop
  | start : Path p l p l
  | call {op : F.Op} {next : F.Ret op → Prog F α} {l' : L} :
      Path p l (.call op next) l' → Path p l (next (answer op l').1) (answer op l').2

variable {answer}

theorem Path.runOn_eq {p q : Prog F α} {l l' : L} (h : Path answer p l q l') :
    p.runOn answer l = q.runOn answer l' := by
  induction h with
  | start => rfl
  | call _ ih => exact ih

end Sequential

theorem NeverPanics.safeUnder {p : Prog F α} (h : p.NeverPanics) (exec : Interp F W) :
    p.SafeUnder exec := by
  induction p with
  | ret a => exact h
  | panic message => exact h
  | call op next ih => exact fun _ r _ _ => ih r (h r)

theorem Returns.of_eval {answer : (op : F.Op) → F.Ret op} {p : Prog F α} {a : α}
    (h : p.eval answer = .value a) : p.Returns a := by
  induction p with
  | ret b =>
      cases h
      exact .ret _
  | panic message => cases h
  | call op next ih => exact .call (answer op) (ih (answer op) h)

theorem NeverPanics.map {p : Prog F α} (h : p.NeverPanics) (f : α → β) : (p.map f).NeverPanics := by
  induction p with
  | ret a => exact h
  | panic message => exact h
  | call op next ih => exact fun r => ih r (h r)

theorem eval_map (answer : (op : F.Op) → F.Ret op) (p : Prog F α) (f : α → β) (a : α)
    (h : p.eval answer = .value a) : (p.map f).eval answer = .value (f a) := by
  induction p with
  | ret b =>
      cases h
      rfl
  | panic message => cases h
  | call op next ih => exact ih (answer op) h

end Prog

/-- Calls of a sum act on the world through the component they belong to. -/
def Interp.sum {F G : Signature} {W : Type} (left : Interp F W) (right : Interp G W) :
    Interp (F.sum G) W
  | .inl op => left op
  | .inr op => right op

/-- A world with a part for each member of a family. -/
def Interp.family {κ : Type} {F : κ → Signature} {W : κ → Type} (exec : ∀ k, Interp (F k) (W k)) :
    Interp (.family F) (∀ k, W k) :=
  fun op w r w' => exec op.1 op.2 (w op.1) r (w' op.1) ∧ ∀ k, k ≠ op.1 → w' k = w k

/-- The calls whose answers meet a condition. -/
def Interp.only {F : Signature} {W : Type} (exec : Interp F W) (P : (op : F.Op) → F.Ret op → Prop) :
    Interp F W :=
  fun op w r w' => exec op w r w' ∧ P op r

section Executions
variable {σ ε : Type}

/-- A finite execution with the labels of its steps, from some initial state. -/
inductive Execution (init : σ → Prop) (step : σ → ε → σ → Prop) : List ε → σ → Prop
  | start {s : σ} : init s → Execution init step [] s
  | snoc {es : List ε} {s : σ} {e : ε} {s' : σ} :
      Execution init step es s → step s e s' → Execution init step (es ++ [e]) s'

/-- A finite continuation, from a given state. -/
inductive Continues (step : σ → ε → σ → Prop) : σ → List ε → σ → Prop
  | done (s : σ) : Continues step s [] s
  | cons {s : σ} {e : ε} {s' : σ} {es : List ε} {s'' : σ} :
      step s e s' → Continues step s' es s'' → Continues step s (e :: es) s''

variable {init : σ → Prop} {step : σ → ε → σ → Prop}

/-- What holds at the start and survives every step holds along every execution. -/
theorem Execution.invariant {I : List ε → σ → Prop} (first : ∀ s, init s → I [] s)
    (next : ∀ es s e s', I es s → step s e s' → I (es ++ [e]) s') {es : List ε} {s : σ}
    (h : Execution init step es s) : I es s := by
  induction h with
  | start h => exact first _ h
  | snoc _ moved ih => exact next _ _ _ _ ih moved

/-- A continuation seen through a map of states and labels. -/
theorem Continues.map {σ' ε' : Type} {step' : σ' → ε' → σ' → Prop} {s s' : σ} {es : List ε}
    (h : Continues step s es s') (f : σ → σ') (g : ε → ε')
    (simulates : ∀ {s e s'}, step s e s' → step' (f s) (g e) (f s')) :
    Continues step' (f s) (es.map g) (f s') := by
  induction h with
  | done s => exact .done (f s)
  | cons moved _ ih => exact .cons (simulates moved) ih

theorem Continues.trans {s s' s'' : σ} {es es' : List ε} (h : Continues step s es s')
    (h' : Continues step s' es' s'') : Continues step s (es ++ es') s'' := by
  induction h with
  | done s => exact h'
  | cons moved _ ih => exact .cons moved (ih h')

theorem Execution.continues {es es' : List ε} {s s' : σ} (h : Execution init step es s)
    (later : Continues step s es' s') : Execution init step (es ++ es') s' := by
  induction later generalizing es with
  | done s =>
      rw [List.append_nil]
      exact h
  | @cons s e s' es' s'' moved _ ih =>
      rw [List.append_cons]
      exact ih (h.snoc moved)

/-- The first `n` steps of a run with its states: `state t` is the one after `t` steps. -/
structure Timeline (init : σ → Prop) (step : σ → ε → σ → Prop) (n : Nat) where
  state : Nat → σ
  label : Nat → ε
  first : init (state 0)
  moves : ∀ t, t < n → step (state t) (label t) (state (t + 1))

namespace Timeline
variable {n : Nat} (run : Timeline init step n)

theorem holds {I : σ → Prop} (first : ∀ s, init s → I s)
    (next : ∀ s e s', I s → step s e s' → I s') {t : Nat} (h : t ≤ n) : I (run.state t) := by
  induction t with
  | zero => exact first _ run.first
  | succ t ih => exact next _ _ _ (ih (Nat.le_of_succ_le h)) (run.moves t h)

/-- What no step takes back. -/
theorem grows {P : σ → σ → Prop} (refl : ∀ s, P s s)
    (trans : ∀ {s s' s''}, P s s' → P s' s'' → P s s'')
    (next : ∀ {s e s'}, step s e s' → P s s') {t u : Nat} (h : t ≤ u) (bound : u ≤ n) :
    P (run.state t) (run.state u) := by
  induction u with
  | zero =>
      cases Nat.le_zero.mp h
      exact refl _
  | succ u ih =>
      rcases Nat.lt_or_eq_of_le h with earlier | rfl
      · exact trans (ih (Nat.le_of_lt_succ earlier) (Nat.le_of_succ_le bound)) (next (run.moves u bound))
      · exact refl _

end Timeline

/-- Every execution has its states. -/
theorem Execution.timeline [Inhabited ε] {es : List ε} {s : σ} (h : Execution init step es s) :
    ∃ run : Timeline init step es.length, run.state es.length = s := by
  induction h with
  | @start s first =>
      exact ⟨⟨fun _ => s, default, first, fun t bound => absurd bound (Nat.not_lt_zero t)⟩, rfl⟩
  | @snoc es s e s' _ moved ih =>
      obtain ⟨run, last⟩ := ih
      let state t := if t ≤ es.length then run.state t else s'
      let label t := if t < es.length then run.label t else e
      have moves : ∀ t, t < (es ++ [e]).length → step (state t) (label t) (state (t + 1)) := by
        intro t bound
        rw [List.length_append, List.length_singleton] at bound
        simp only [state, label, if_pos (Nat.le_of_lt_succ bound)]
        by_cases earlier : t < es.length
        · simp only [if_pos earlier, if_pos (Nat.succ_le_of_lt earlier)]
          exact run.moves t earlier
        · cases Nat.le_antisymm (Nat.le_of_lt_succ bound) (Nat.le_of_not_lt earlier)
          rw [if_neg earlier, if_neg (Nat.not_succ_le_self _), last]
          exact moved
      refine ⟨⟨state, label, ?_, moves⟩, ?_⟩
      · simp only [state, if_pos (Nat.zero_le _)]
        exact run.first
      · simp only [state, List.length_append, List.length_singleton, if_neg (Nat.not_succ_le_self _)]

end Executions

section Pools
variable {ι R W : Type} [DecidableEq ι] {F : Signature}

/-- Any number of tasks on one world. -/
structure Pool (ι R W : Type) (F : Signature) where
  task : ι → Prog F R
  world : W

/-- One task gets one call answered. -/
inductive Pool.Step (exec : Interp F W) : Pool ι R W F → ι × F.Op → Pool ι R W F → Prop
  | call {s : Pool ι R W F} {i : ι} {op : F.Op} {next : F.Ret op → Prog F R} {r : F.Ret op} {w : W} :
      s.task i = .call op next → exec op s.world r w →
      Pool.Step exec s (i, op) ⟨Function.update s.task i (next r), w⟩

end Pools
end Interaction
