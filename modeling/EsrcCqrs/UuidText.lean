import EsrcCqrs.JsonText
import Mathlib.Tactic.Ring

/-! Identifiers of 128 bits, written as text. `Uuid.Text` is any writing that can
be read back; `Uuid.Hyphenated` is the usual lower-case one. -/

structure Uuid where
  bits : BitVec 128
  deriving DecidableEq, Repr

namespace Uuid

def nil : Uuid := ⟨0⟩

class Text where
  write : Uuid → String
  parse : String → Option Uuid
  parse_write : ∀ u, parse (write u) = some u

open Json in
instance [Text] : Serialize Uuid := ⟨fun u => .ok (.string (Text.write u))⟩

open Json in
instance [Text] : Deserialize Uuid where
  fromValue
    | .string s =>
        match Text.parse s with
        | some u => .ok u
        | none => .error (.custom "invalid uuid")
    | _ => .error .invalidType

@[simp] theorem fromValue_uuid [Text] (u : Uuid) :
    Json.fromValue (.string (Text.write u)) = .ok u := by
  change (match Text.parse (Text.write u) with | some u => _ | none => _) = _
  rw [Text.parse_write]

namespace Hyphenated

/-- The last `k` hexadecimal digits of `n`, the most significant first. -/
def hexDigits : Nat → Nat → List Char
  | 0, _ => []
  | k + 1, n => hexDigits k (n / 16) ++ [Nat.digitChar (n % 16)]

def ofHexDigits (cs : List Char) (start : Nat) : Option Nat :=
  cs.foldlM (fun n c => (Json.Compact.hexValue c).map (16 * n + ·)) start

theorem hexValue_digitChar : ∀ d : Fin 16,
    Json.Compact.hexValue (Nat.digitChar d) = some d.val ∧ Nat.digitChar d ≠ '-' := by
  decide

theorem ofHexDigits_hexDigits (k n start : Nat) :
    ofHexDigits (hexDigits k n) start = some (16 ^ k * start + n % 16 ^ k) := by
  induction k generalizing n with
  | zero => simp [hexDigits, ofHexDigits, Nat.mod_one]
  | succ k ih =>
      have digit := (hexValue_digitChar ⟨n % 16, Nat.mod_lt n (by decide)⟩).1
      have split : n % (16 * 16 ^ k) = 16 * (n / 16 % 16 ^ k) + n % 16 := by
        rw [Nat.mod_mul, Nat.add_comm]
      have front : List.foldlM (fun n c => (Json.Compact.hexValue c).map (16 * n + ·)) start
          (hexDigits k (n / 16)) = some (16 ^ k * start + n / 16 % 16 ^ k) := ih (n / 16)
      simp only [ofHexDigits, hexDigits, List.foldlM_append, front, Option.bind_eq_bind,
        Option.bind_some, List.foldlM_cons, List.foldlM_nil, digit, Option.map_some,
        Option.pure_def, Nat.pow_succ', split]
      congr 1
      ring

theorem hexDigits_no_hyphen (k n : Nat) : '-' ∉ hexDigits k n := by
  induction k generalizing n with
  | zero => simp [hexDigits]
  | succ k ih =>
      have digit := (hexValue_digitChar ⟨n % 16, Nat.mod_lt n (by decide)⟩).2
      simp only [hexDigits, List.mem_append, List.mem_singleton, not_or]
      exact ⟨ih (n / 16), fun same => digit same.symm⟩

/-- Groups of eight, four, four, four and twelve digits. -/
def hyphenate (cs : List Char) : List Char :=
  cs.take 8 ++ '-' :: (cs.drop 8).take 4 ++ '-' :: (cs.drop 12).take 4 ++
    '-' :: (cs.drop 16).take 4 ++ '-' :: cs.drop 20

theorem filter_hyphenate {cs : List Char} (h : '-' ∉ cs) :
    (hyphenate cs).filter (· ≠ '-') = cs := by
  have keep : ∀ part : List Char, (∀ c ∈ part, c ∈ cs) → part.filter (· ≠ '-') = part := by
    intro part sub
    refine List.filter_eq_self.mpr fun c hc => ?_
    simpa using fun same : c = '-' => h (same ▸ sub c hc)
  have parts : cs.take 8 ++ ((cs.drop 8).take 4 ++ ((cs.drop 12).take 4 ++
      ((cs.drop 16).take 4 ++ cs.drop 20))) = cs := by
    have step : ∀ n m, (cs.drop n).take m ++ cs.drop (n + m) = cs.drop n := fun n m => by
      rw [← List.drop_drop, List.take_append_drop]
    rw [step 16 4, step 12 4, step 8 4, List.take_append_drop]
  simp only [hyphenate, List.filter_append, List.filter_cons, List.append_assoc, List.cons_append]
  simp only [ne_eq, not_true_eq_false, decide_false, Bool.false_eq_true, if_false]
  rw [keep _ fun c hc => List.mem_of_mem_take hc,
    keep _ fun c hc => List.mem_of_mem_drop (List.mem_of_mem_take hc),
    keep _ fun c hc => List.mem_of_mem_drop (List.mem_of_mem_take hc),
    keep _ fun c hc => List.mem_of_mem_drop (List.mem_of_mem_take hc),
    keep _ fun c hc => List.mem_of_mem_drop hc, parts]

def write (u : Uuid) : String := String.ofList (hyphenate (hexDigits 32 u.bits.toNat))

/-- Hyphens may stand anywhere among the thirty-two digits. -/
def parse (s : String) : Option Uuid :=
  let digits := s.toList.filter (· ≠ '-')
  if digits.length = 32 then (ofHexDigits digits 0).map fun n => ⟨BitVec.ofNat 128 n⟩ else none

theorem length_hexDigits (k n : Nat) : (hexDigits k n).length = k := by
  induction k generalizing n with
  | zero => rfl
  | succ k ih => simp only [hexDigits, List.length_append, ih, List.length_singleton]

theorem parse_write (u : Uuid) : parse (write u) = some u := by
  have small : u.bits.toNat % 16 ^ 32 = u.bits.toNat := Nat.mod_eq_of_lt u.bits.isLt
  simp only [parse, write, String.toList_ofList, filter_hyphenate (hexDigits_no_hyphen 32 _),
    length_hexDigits, if_true, ofHexDigits_hexDigits, small, Nat.mul_zero, Nat.zero_add,
    Option.map_some, BitVec.ofNat_toNat, BitVec.setWidth_eq]

abbrev text : Text := ⟨write, parse, parse_write⟩

end Hyphenated
end Uuid
