import EsrcCqrs.Interaction
import Mathlib.Data.List.Basic

/-! Consumers of one log that fold what they are given into a volatile state, while their
common position in the log is durable. Each message goes to one of them, and a consumer that
restarts comes back with an empty state and gives its unacknowledged messages back. -/

namespace DurableFold
open Interaction

inductive Delivery (ι : Type) where
  | undelivered
  | pending (i : ι)
  | acknowledged
  deriving DecidableEq

/-- The log with the delivery of each position, and the states of the running consumers. -/
structure Group (M σ ι : Type) where
  log : List M
  delivery : Nat → Delivery ι
  held : ι → Option σ

inductive Event (M ι : Type) where
  | publish (m : M)
  | start (i : ι)
  | restart (i : ι)
  | deliver (i : ι) (k : Nat)
  | acknowledge (k : Nat)

section Consumers
variable {M σ ι : Type}

def Group.empty : Group M σ ι := ⟨[], fun _ => .undelivered, fun _ => none⟩

/-- Every message of the log was delivered and acknowledged. -/
def Group.Quiet (s : Group M σ ι) : Prop := ∀ k < s.log.length, s.delivery k = .acknowledged

def Delivery.release [DecidableEq ι] (i : ι) : Delivery ι → Delivery ι
  | .pending j => if j = i then .undelivered else .pending j
  | d => d

inductive Step [DecidableEq ι] (first : σ) (f : σ → M → σ) : Group M σ ι → Event M ι → Group M σ ι → Prop
  | publish {s : Group M σ ι} (m : M) : Step first f s (.publish m) { s with log := s.log ++ [m] }
  | start {s : Group M σ ι} {i : ι} :
      s.held i = none →
      Step first f s (.start i) { s with held := Function.update s.held i (some first) }
  | restart {s : Group M σ ι} {i : ι} {a : σ} :
      s.held i = some a →
      Step first f s (.restart i) { s with
        held := Function.update s.held i (some first)
        delivery := fun k => (s.delivery k).release i }
  -- the durable position gives out the first message that is with nobody
  | deliver {s : Group M σ ι} {i : ι} {a : σ} {k : Nat} {m : M} :
      s.held i = some a → s.log[k]? = some m → s.delivery k = .undelivered →
      (∀ j < k, s.delivery j ≠ .undelivered) →
      Step first f s (.deliver i k) { s with
        held := Function.update s.held i (some (f a m))
        delivery := Function.update s.delivery k (.pending i) }
  | acknowledge {s : Group M σ ι} {i : ι} {k : Nat} :
      s.delivery k = .pending i →
      Step first f s (.acknowledge k) { s with
        delivery := Function.update s.delivery k .acknowledged }

/-- A step that parts no state from the position: nothing is published to more than one
consumer, no consumer joins one that has a log, and none restarts after an acknowledgement. -/
def Harmless (s : Group M σ ι) : Event M ι → Prop
  | .publish _ => ∀ i j, (s.held i).isSome → (s.held j).isSome → i = j
  | .start _ => s.log = [] ∨ ∀ i, s.held i = none
  | .restart _ => ∀ k, s.delivery k ≠ .acknowledged
  | .deliver _ _ => True
  | .acknowledge _ => True

/-- The states are the fold of the first `n` messages, which are those given out. -/
structure Caught (first : σ) (f : σ → M → σ) (s : Group M σ ι) (n : Nat) : Prop where
  position : ∀ k, s.delivery k = .undelivered ↔ n ≤ k
  bounded : n ≤ s.log.length
  folded : ∀ i a, s.held i = some a → a = (s.log.take n).foldl f first
  alone : s.log ≠ [] → ∀ i j, (s.held i).isSome → (s.held j).isSome → i = j
  owned : ∀ k i, s.delivery k = .pending i → (s.held i).isSome
  served : 0 < n → ∃ i, (s.held i).isSome

variable {first : σ} {f : σ → M → σ} {s s' : Group M σ ι} {n : Nat}

theorem caught_empty : Caught first f (Group.empty : Group M σ ι) 0 where
  position k := iff_of_true rfl (Nat.zero_le k)
  bounded := Nat.le_refl 0
  folded _ _ := nofun
  alone nonempty := absurd rfl nonempty
  owned _ _ := nofun
  served := nofun

theorem Caught.zero_of_empty (h : Caught first f s n) (empty : s.log = []) : n = 0 := by
  have bounded := h.bounded
  rw [empty] at bounded
  exact Nat.le_zero.mp bounded

theorem Caught.publish (h : Caught first f s n) (m : M) (harmless : Harmless s (.publish m)) :
    Caught first f { s with log := s.log ++ [m] } n where
  position := h.position
  bounded := by
    rw [List.length_append]
    exact Nat.le_add_right_of_le h.bounded
  folded i a held := by
    rw [List.take_append_of_le_length h.bounded]
    exact h.folded i a held
  alone _ := harmless
  owned := h.owned
  served := h.served

theorem Caught.acknowledge (h : Caught first f s n) {i : ι} {k : Nat}
    (pending : s.delivery k = .pending i) :
    Caught first f { s with delivery := Function.update s.delivery k .acknowledged } n := by
  have given : ¬ n ≤ k := by
    rw [← h.position k, pending]
    exact nofun
  refine ⟨?_, h.bounded, h.folded, h.alone, ?_, h.served⟩
  · apply (Function.forall_update_iff s.delivery fun j d => d = .undelivered ↔ n ≤ j).mpr
    exact ⟨iff_of_false nofun given, fun j _ => h.position j⟩
  · apply (Function.forall_update_iff s.delivery fun _ d => ∀ j, d = .pending j →
      (s.held j).isSome).mpr
    exact ⟨fun _ => nofun, fun j _ => h.owned j⟩

/-- Once the log is quiet, every running consumer has folded all of it. -/
theorem Caught.folded_all (h : Caught first f s n) (quiet : s.Quiet) {i : ι} {a : σ}
    (held : s.held i = some a) : a = s.log.foldl f first := by
  have all : n = s.log.length := by
    apply Nat.le_antisymm h.bounded
    by_contra more
    have given := (h.position n).mpr (Nat.le_refl n)
    exact absurd (given.symm.trans (quiet n (Nat.lt_of_not_le more))) nofun
  rw [h.folded i a held, all, List.take_length]

variable [DecidableEq ι]

theorem isSome_update (held : ι → Option σ) (i : ι) (a : σ) :
    ∀ j, (held j).isSome → (Function.update held i (some a) j).isSome := by
  apply (Function.forall_update_iff held fun j o => (held j).isSome → o.isSome).mpr
  exact ⟨fun _ => rfl, fun _ _ running => running⟩

/-- A consumer that is running keeps running under its new state, and so do the others. -/
theorem isSome_update_iff {held : ι → Option σ} {i : ι} (running : (held i).isSome) (a : σ) :
    ∀ j, (Function.update held i (some a) j).isSome ↔ (held j).isSome := by
  apply (Function.forall_update_iff held fun j o => o.isSome ↔ (held j).isSome).mpr
  exact ⟨iff_of_true rfl running, fun _ _ => Iff.rfl⟩

/-- The states after one of them changes. -/
theorem folded_update {held : ι → Option σ} {i : ι} {a b : σ} (own : a = b)
    (others : ∀ j, j ≠ i → ∀ c, held j = some c → c = b) :
    ∀ j c, Function.update held i (some a) j = some c → c = b := by
  apply (Function.forall_update_iff held fun _ o => ∀ c, o = some c → c = b).mpr
  refine ⟨fun c same => ?_, others⟩
  exact (Option.some.inj same).symm.trans own

theorem Caught.start (h : Caught first f s n) {i : ι} (harmless : Harmless s (.start i)) :
    Caught first f { s with held := Function.update s.held i (some first) } n := by
  -- nothing was given out: either nothing is there, or nobody to give it to
  have nothing : n = 0 := by
    rcases harmless with empty | nobody
    · exact h.zero_of_empty empty
    · by_contra some
      obtain ⟨j, running⟩ := h.served (Nat.pos_of_ne_zero some)
      rw [nobody j] at running
      cases running
  subst nothing
  refine ⟨h.position, h.bounded, folded_update rfl fun j _ => h.folded j, ?_, ?_, nofun⟩
  · intro nonempty
    have nobody := harmless.resolve_left nonempty
    have only : ∀ j, (Function.update s.held i (some first) j).isSome → j = i := by
      intro j running
      by_contra other
      rw [Function.update_of_ne other, nobody j] at running
      cases running
    exact fun j k running running' => (only j running).trans (only k running').symm
  · exact fun k j pending => isSome_update s.held i first j (h.owned k j pending)

theorem Caught.restart (h : Caught first f s n) {i : ι} (running : (s.held i).isSome)
    (harmless : Harmless s (.restart i)) :
    Caught first f { s with
      held := Function.update s.held i (some first)
      delivery := fun k => (s.delivery k).release i } 0 := by
  -- whatever was given out comes back, for it was all given to this consumer
  have returned : ∀ k, (s.delivery k).release i = .undelivered := by
    intro k
    cases delivered : s.delivery k with
    | undelivered => rfl
    | pending j =>
        have nonempty : s.log ≠ [] := by
          intro empty
          have given := (h.position k).mpr (h.zero_of_empty empty ▸ Nat.zero_le k)
          exact absurd (delivered.symm.trans given) nofun
        exact if_pos (h.alone nonempty j i (h.owned k j delivered) running)
    | acknowledged => exact absurd delivered (harmless k)
  refine ⟨fun k => iff_of_true (returned k) (Nat.zero_le k), Nat.zero_le _,
    folded_update rfl ?_, ?_, ?_, nofun⟩
  · intro j other b held
    have empty : s.log = [] := by
      by_contra nonempty
      exact other (h.alone nonempty j i (Option.isSome_of_eq_some held) running)
    have folded := h.folded j b held
    rw [empty, List.take_nil] at folded
    exact folded
  · intro nonempty j k
    simp only [isSome_update_iff running]
    exact h.alone nonempty j k
  · intro k j pending
    exact absurd ((returned k).symm.trans pending) nofun

theorem Caught.deliver (h : Caught first f s n) {i : ι} {a : σ} {k : Nat} {m : M}
    (held : s.held i = some a) (there : s.log[k]? = some m)
    (undelivered : s.delivery k = .undelivered)
    (earliest : ∀ j < k, s.delivery j ≠ .undelivered) :
    Caught first f { s with
      held := Function.update s.held i (some (f a m))
      delivery := Function.update s.delivery k (.pending i) } (n + 1) := by
  have next : k = n := by
    apply Nat.le_antisymm
    · by_contra later
      exact earliest n (Nat.lt_of_not_le later) ((h.position n).mpr (Nat.le_refl n))
    · exact (h.position k).mp undelivered
  subst next
  obtain ⟨inside, -⟩ := List.getElem?_eq_some_iff.mp there
  have nonempty : s.log ≠ [] := List.ne_nil_of_length_pos (Nat.zero_lt_of_lt inside)
  have running : (s.held i).isSome := Option.isSome_of_eq_some held
  have longer : s.log.take (k + 1) = s.log.take k ++ [m] := by
    rw [List.take_add_one, there, Option.toList_some]
  refine ⟨?_, inside, folded_update ?_ ?_, ?_, ?_, fun _ => ⟨i, isSome_update s.held i _ i running⟩⟩
  · apply (Function.forall_update_iff s.delivery fun j d => d = .undelivered ↔ k + 1 ≤ j).mpr
    refine ⟨iff_of_false nofun (Nat.not_succ_le_self k), fun j other => ?_⟩
    rw [h.position]
    omega
  · rw [longer, h.folded i a held]
    simp only [List.foldl_append, List.foldl_cons, List.foldl_nil]
  · intro j other b held'
    exact absurd (h.alone nonempty j i (Option.isSome_of_eq_some held') running) other
  · intro _ j l
    simp only [isSome_update_iff running]
    exact h.alone nonempty j l
  · simp only [isSome_update_iff running]
    apply (Function.forall_update_iff s.delivery fun _ d => ∀ l, d = .pending l →
      (s.held l).isSome).mpr
    refine ⟨fun l pending => ?_, fun j _ => h.owned j⟩
    cases pending
    exact running

/-- Harmless steps keep every state at the common position. -/
theorem Caught.step {e : Event M ι} (h : Caught first f s n) (harmless : Harmless s e)
    (moved : Step first f s e s') : ∃ n', Caught first f s' n' := by
  cases moved with
  | publish m => exact ⟨n, h.publish m harmless⟩
  | start => exact ⟨n, h.start harmless⟩
  | restart held => exact ⟨0, h.restart (Option.isSome_of_eq_some held) harmless⟩
  | deliver held there undelivered earliest =>
      exact ⟨n + 1, h.deliver held there undelivered earliest⟩
  | acknowledge pending => exact ⟨n, h.acknowledge pending⟩

end Consumers

section Redelivery
variable {M σ : Type}

/-- What a single consumer was given of a log, with the number of its messages among that: first
deliveries come in order, and any message may come again later, when `ok` allows it. -/
inductive Delivers (log : List M) (ok : List M → M → Prop) : List M → Nat → Prop
  | none : Delivers log ok [] 0
  | first {ds : List M} {n : Nat} {m : M} :
      Delivers log ok ds n → log[n]? = some m → Delivers log ok (ds ++ [m]) (n + 1)
  | again {ds : List M} {n k : Nat} {m : M} :
      Delivers log ok ds n → k < n → log[k]? = some m → ok ds m → Delivers log ok (ds ++ [m]) n

/-- Repetitions that change nothing are as good as none. -/
theorem Delivers.foldl_take {log ds : List M} {ok : List M → M → Prop} {n : Nat} {first : σ}
    {f : σ → M → σ} (unchanged : ∀ ds m, ok ds m → f (ds.foldl f first) m = ds.foldl f first)
    (h : Delivers log ok ds n) : ds.foldl f first = (log.take n).foldl f first := by
  induction h with
  | none => rfl
  | @first ds n m _ there ih =>
      rw [List.take_add_one, there, Option.toList_some, List.foldl_append, List.foldl_append, ih]
  | @again ds n k m _ _ _ allowed ih =>
      rw [List.foldl_append, List.foldl_cons, List.foldl_nil, unchanged ds m allowed, ih]

end Redelivery
end DurableFold
