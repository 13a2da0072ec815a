import EsrcCqrs.JsonValue
import Mathlib.Algebra.Ring.Int.Defs
import Mathlib.Data.List.TakeWhile

/-! Compact JSON text with its parser. Numbers keep mantissa and exponent apart;
a surrogate escape is not read. This is a concrete `TextFormat`, for closed
examples: the development is otherwise stated over an arbitrary one. -/

namespace Json.Compact

def isSpace (c : Char) : Bool := c = ' ' || c = '\n' || c = '\t' || c = '\r'

def skipSpace (cs : List Char) : List Char := cs.dropWhile isSpace

/-- What may follow a complete value. -/
def Ends : List Char → Prop
  | [] => True
  | c :: _ => c = ',' ∨ c = ']' ∨ c = '}'

theorem skipSpace_cons {c : Char} {cs : List Char} (h : isSpace c = false) :
    skipSpace (c :: cs) = c :: cs := by
  simp only [skipSpace, List.dropWhile_cons, h, Bool.false_eq_true, if_false]

/-! Numbers. -/

def printInt : Int → List Char
  | .ofNat n => Nat.toDigits 10 n
  | .negSucc n => '-' :: Nat.toDigits 10 (n + 1)

def printNumber (n : Number) : List Char :=
  printInt n.mantissa ++ if n.exponent = 0 then [] else 'e' :: printInt n.exponent

def readNat (cs : List Char) : Option (Nat × List Char) :=
  match cs.takeWhile Char.isDigit with
  | [] => none
  | digits => some (Nat.ofDigitChars 10 digits 0, cs.dropWhile Char.isDigit)

def readInt : List Char → Option (Int × List Char)
  | [] => none
  | c :: cs =>
      if c = '-' then (readNat cs).map fun (n, rest) => (-(n : Int), rest)
      else (readNat (c :: cs)).map fun (n, rest) => ((n : Int), rest)

/-- Digits after a decimal point move into the mantissa. -/
def readFraction (m : Int) : List Char → Option (Number × List Char)
  | [] => some (⟨m, 0⟩, [])
  | c :: cs =>
      if c = '.' then (readNat cs).map fun (_, rest) =>
        let digits := cs.takeWhile Char.isDigit
        let part : Int := Nat.ofDigitChars 10 digits 0
        let scaled := m * 10 ^ digits.length
        (⟨if m < 0 then scaled - part else scaled + part, -digits.length⟩, rest)
      else some (⟨m, 0⟩, c :: cs)

def readExponent (n : Number) : List Char → Option (Number × List Char)
  | [] => some (n, [])
  | c :: cs =>
      if c = 'e' ∨ c = 'E' then
        (readInt cs).map fun (e, rest) => (⟨n.mantissa, n.exponent + e⟩, rest)
      else some (n, c :: cs)

def readNumber (cs : List Char) : Option (Number × List Char) := do
  let (m, cs) ← readInt cs
  let (n, cs) ← readFraction m cs
  readExponent n cs

/-- The text after a number does not continue its digits. -/
def NoDigit : List Char → Prop
  | [] => True
  | c :: _ => c.isDigit = false

theorem Ends.noDigit {cs : List Char} (h : Ends cs) : NoDigit cs := by
  cases cs with
  | nil => trivial
  | cons c cs => rcases h with rfl | rfl | rfl <;> rfl

theorem takeWhile_digits (n : Nat) {rest : List Char} (h : NoDigit rest) :
    (Nat.toDigits 10 n ++ rest).takeWhile Char.isDigit = Nat.toDigits 10 n := by
  have all : ∀ c ∈ Nat.toDigits 10 n, c.isDigit = true :=
    fun c hc => Nat.isDigit_of_mem_toDigits (by decide) (by decide) hc
  rw [List.takeWhile_append_of_pos all]
  cases rest with
  | nil => simp
  | cons c rest =>
      have hc : c.isDigit = false := h
      simp [hc]

theorem dropWhile_digits (n : Nat) {rest : List Char} (h : NoDigit rest) :
    (Nat.toDigits 10 n ++ rest).dropWhile Char.isDigit = rest := by
  have all : ∀ c ∈ Nat.toDigits 10 n, c.isDigit = true :=
    fun c hc => Nat.isDigit_of_mem_toDigits (by decide) (by decide) hc
  rw [List.dropWhile_append_of_pos all]
  cases rest with
  | nil => rfl
  | cons c rest =>
      have hc : c.isDigit = false := h
      simp [hc]

theorem readNat_append (n : Nat) {rest : List Char} (h : NoDigit rest) :
    readNat (Nat.toDigits 10 n ++ rest) = some (n, rest) := by
  simp only [readNat, takeWhile_digits n h, dropWhile_digits n h]
  split
  · rename_i empty
    exact False.elim (Nat.toDigits_ne_nil empty)
  · rw [Nat.ofDigitChars_ten_toDigits]

theorem toDigits_cons (n : Nat) : ∃ c cs, Nat.toDigits 10 n = c :: cs ∧ c.isDigit = true := by
  cases h : Nat.toDigits 10 n with
  | nil => exact False.elim (Nat.toDigits_ne_nil h)
  | cons c cs =>
      exact ⟨c, cs, rfl, Nat.isDigit_of_mem_toDigits (by decide) (by decide)
        (h ▸ List.mem_cons_self : c ∈ Nat.toDigits 10 n)⟩

theorem readInt_append (i : Int) {rest : List Char} (h : NoDigit rest) :
    readInt (printInt i ++ rest) = some (i, rest) := by
  cases i with
  | ofNat n =>
      obtain ⟨c, cs, shape, digit⟩ := toDigits_cons n
      have minus : c ≠ '-' := by
        rintro rfl
        cases digit
      have read := readNat_append n h
      simp only [shape, List.cons_append] at read
      simp only [printInt, shape, List.cons_append, readInt, if_neg minus, read]
      rfl
  | negSucc n =>
      simp only [printInt, List.cons_append, readInt, if_true, readNat_append (n + 1) h]
      rfl

theorem readNumber_append (n : Number) {rest : List Char} (h : Ends rest) :
    readNumber (printNumber n ++ rest) = some (n, rest) := by
  rcases n with ⟨m, e⟩
  by_cases he : e = 0
  · subst he
    simp only [printNumber, if_true, List.append_nil, readNumber, readInt_append m h.noDigit]
    cases rest with
    | nil => rfl
    | cons c rest => rcases h with rfl | rfl | rfl <;> rfl
  · have tail : NoDigit ('e' :: (printInt e ++ rest)) := rfl
    simp only [printNumber, if_neg he, List.append_assoc, List.cons_append, readNumber,
      readInt_append m tail]
    change readExponent ⟨m, 0⟩ ('e' :: (printInt e ++ rest)) = _
    simp only [readExponent, true_or, if_true, readInt_append e h.noDigit, Option.map_some,
      Int.zero_add]

/-! Strings. -/

/-- Characters with a two-character escape, paired with the second of them. -/
def shortEscapes : List (Char × Char) :=
  [('"', '"'), ('\\', '\\'), ('\x08', 'b'), ('\x0c', 'f'), ('\n', 'n'), ('\r', 'r'), ('\t', 't')]

def escapeChar (c : Char) : List Char :=
  match shortEscapes.lookup c with
  | some e => ['\\', e]
  | none =>
      if c.toNat < 32 then
        ['\\', 'u', '0', '0', Nat.digitChar (c.toNat / 16), Nat.digitChar (c.toNat % 16)]
      else [c]

def unescape (e : Char) : Option Char :=
  if e = '/' then some '/' else (shortEscapes.map Prod.swap).lookup e

def hexValue (c : Char) : Option Nat :=
  if c.isDigit then some (c.toNat - 48)
  else if 'a' ≤ c ∧ c ≤ 'f' then some (c.toNat - 87)
  else if 'A' ≤ c ∧ c ≤ 'F' then some (c.toNat - 55)
  else none

def hexChar (a b c d : Char) : Option Char := do
  let code := 4096 * (← hexValue a) + 256 * (← hexValue b) + 16 * (← hexValue c) + (← hexValue d)
  if code.isValidChar then some (Char.ofNat code) else none

def readChars : List Char → Option (List Char × List Char)
  | [] => none
  | c :: cs =>
      if c = '"' then some ([], cs)
      else if c = '\\' then
        match cs with
        | [] => none
        | e :: cs =>
            if e = 'u' then
              match cs with
              | x :: y :: z :: w :: cs =>
                  match hexChar x y z w with
                  | some c => (readChars cs).map fun (s, rest) => (c :: s, rest)
                  | none => none
              | _ => none
            else match unescape e with
              | some c => (readChars cs).map fun (s, rest) => (c :: s, rest)
              | none => none
      else if c.toNat < 32 then none
      else (readChars cs).map fun (s, rest) => (c :: s, rest)

def printString (s : String) : List Char := '"' :: (s.toList.flatMap escapeChar ++ ['"'])

def readString : List Char → Option (String × List Char)
  | [] => none
  | c :: cs =>
      if c = '"' then (readChars cs).map fun (s, rest) => (String.ofList s, rest) else none

theorem hexChar_control : ∀ n : Fin 32,
    hexChar '0' '0' (Nat.digitChar (n / 16)) (Nat.digitChar (n % 16)) = some (Char.ofNat n) := by
  decide

theorem unescape_lookup {c e : Char} (h : shortEscapes.lookup c = some e) :
    e ≠ 'u' ∧ unescape e = some c := by
  have pair : (c, e) ∈ shortEscapes := by
    obtain ⟨before, after, split, _⟩ := List.lookup_eq_some_iff.mp h
    rw [split]
    simp
  simp only [shortEscapes, List.mem_cons, List.not_mem_nil, or_false, Prod.mk.injEq] at pair
  rcases pair with ⟨rfl, rfl⟩ | ⟨rfl, rfl⟩ | ⟨rfl, rfl⟩ | ⟨rfl, rfl⟩ | ⟨rfl, rfl⟩ | ⟨rfl, rfl⟩ |
    ⟨rfl, rfl⟩ <;> exact ⟨by decide, by decide⟩

theorem escapeChar_plain {c : Char} (h : shortEscapes.lookup c = none) (hc : ¬ c.toNat < 32) :
    escapeChar c = [c] ∧ c ≠ '"' ∧ c ≠ '\\' := by
  refine ⟨by simp only [escapeChar, h, if_neg hc], ?_, ?_⟩
  · rintro rfl
    cases h
  · rintro rfl
    cases h

theorem readChars_escape (c : Char) (cs : List Char) :
    readChars (escapeChar c ++ cs) = (readChars cs).map fun (s, rest) => (c :: s, rest) := by
  cases short : shortEscapes.lookup c with
  | some e =>
      obtain ⟨notU, back⟩ := unescape_lookup short
      have shape : escapeChar c ++ cs = '\\' :: e :: cs := by
        simp only [escapeChar, short, List.cons_append, List.nil_append]
      rw [shape, readChars.eq_def]
      simp only [Char.reduceEq, if_false, if_true, if_neg notU, back]
  | none =>
      by_cases control : c.toNat < 32
      · have code := hexChar_control ⟨c.toNat, control⟩
        simp only [Char.ofNat_toNat] at code
        have shape : escapeChar c ++ cs = '\\' :: 'u' :: '0' :: '0' ::
            Nat.digitChar (c.toNat / 16) :: Nat.digitChar (c.toNat % 16) :: cs := by
          simp only [escapeChar, short, if_pos control, List.cons_append, List.nil_append]
        rw [shape, readChars.eq_def]
        simp only [Char.reduceEq, if_false, if_true, code]
      · obtain ⟨shape, quote, slash⟩ := escapeChar_plain short control
        rw [shape, List.singleton_append, readChars.eq_def]
        simp only [if_neg quote, if_neg slash, if_neg control]

theorem readChars_append (s rest : List Char) :
    readChars (s.flatMap escapeChar ++ '"' :: rest) = some (s, rest) := by
  induction s with
  | nil =>
      rw [List.flatMap_nil, List.nil_append, readChars.eq_def]
      rfl
  | cons c s ih =>
      rw [List.flatMap_cons, List.append_assoc, readChars_escape, ih]
      rfl

theorem readString_append (s : String) (rest : List Char) :
    readString (printString s ++ rest) = some (s, rest) := by
  have read := readChars_append s.toList rest
  simp only [printString, List.cons_append, List.append_assoc, List.nil_append,
    readString, if_true, read, Option.map_some, String.ofList_toList]

/-! Sequences, between an opening character already read and a closing one. -/

section Sequences
variable {α : Type}

def printMany (print : α → List Char) (close : Char) : List α → List Char
  | [] => [close]
  | [x] => print x ++ [close]
  | x :: y :: xs => print x ++ ',' :: printMany print close (y :: xs)

/-- One item and whatever follows it; the bound counts items. -/
def readItems (read : List Char → Option (α × List Char)) (close : Char) :
    Nat → List Char → Option (List α × List Char)
  | 0, _ => none
  | n + 1, cs => do
      let (x, cs) ← read cs
      match skipSpace cs with
      | [] => none
      | c :: cs =>
          if c = ',' then
            let (xs, cs) ← readItems read close n cs
            return (x :: xs, cs)
          else if c = close then return ([x], cs)
          else none

def readMany (read : List Char → Option (α × List Char)) (close : Char) (n : Nat)
    (cs : List Char) : Option (List α × List Char) :=
  match skipSpace cs with
  | [] => none
  | c :: rest => if c = close then some ([], rest) else readItems read close n cs

/-- Every printed item begins with a character that is neither a space nor a closing one. -/
def Starts (text : List Char) : Prop :=
  ∃ c cs, text = c :: cs ∧ isSpace c = false ∧ c ≠ ']' ∧ c ≠ '}'

variable (read : List Char → Option (α × List Char)) (print : α → List Char) {close : Char}

theorem readItems_append (hc : close = ']' ∨ close = '}') (x : α) (xs : List α) (n : Nat)
    (rest : List Char) (hn : xs.length < n)
    (h : ∀ y ∈ x :: xs, ∀ tail, Ends tail → read (print y ++ tail) = some (y, tail)) :
    readItems read close n (printMany print close (x :: xs) ++ rest) = some (x :: xs, rest) := by
  have closes : Ends (close :: rest) := by rcases hc with rfl | rfl <;> simp [Ends]
  have plain : isSpace close = false ∧ close ≠ ',' := by rcases hc with rfl | rfl <;> decide
  induction xs generalizing x n with
  | nil =>
      obtain ⟨n, rfl⟩ := Nat.exists_eq_succ_of_ne_zero (Nat.ne_of_gt (Nat.zero_lt_of_lt hn))
      simp only [printMany, List.append_assoc, List.singleton_append, readItems,
        h x List.mem_cons_self _ closes]
      simp [skipSpace_cons plain.1, plain.2]
  | cons y ys ih =>
      obtain ⟨n, rfl⟩ := Nat.exists_eq_succ_of_ne_zero (Nat.ne_of_gt (Nat.zero_lt_of_lt hn))
      have more := ih y n (by simpa using hn) (fun z hz => h z (List.mem_cons_of_mem x hz))
      have comma : Ends (',' :: (printMany print close (y :: ys) ++ rest)) := Or.inl rfl
      simp only [printMany, List.append_assoc, List.cons_append, readItems,
        h x List.mem_cons_self _ comma]
      simp [skipSpace_cons (show isSpace ',' = false from rfl), more]

theorem readMany_append (hc : close = ']' ∨ close = '}') (xs : List α) (n : Nat)
    (rest : List Char) (hn : xs.length ≤ n) (starts : ∀ x ∈ xs, Starts (print x))
    (h : ∀ y ∈ xs, ∀ tail, Ends tail → read (print y ++ tail) = some (y, tail)) :
    readMany read close n (printMany print close xs ++ rest) = some (xs, rest) := by
  cases xs with
  | nil =>
      have plain : isSpace close = false := by rcases hc with rfl | rfl <;> decide
      simp [printMany, readMany, skipSpace_cons plain]
  | cons x xs =>
      obtain ⟨c, cs, shape, space, square, brace⟩ := starts x List.mem_cons_self
      have notClose : c ≠ close := by rcases hc with rfl | rfl <;> assumption
      have items := readItems_append read print hc x xs n rest (Nat.lt_of_succ_le hn) h
      have first : ∃ tail, printMany print close (x :: xs) ++ rest = c :: tail := by
        cases xs <;> exact ⟨_, by simp only [printMany, shape, List.cons_append]; rfl⟩
      obtain ⟨tail, whole⟩ := first
      rw [whole] at items ⊢
      simp only [readMany, skipSpace_cons space, if_neg notClose, items]

end Sequences

/-! Values. -/

mutual
def print : Value → List Char
  | .null => ['n', 'u', 'l', 'l']
  | .bool true => ['t', 'r', 'u', 'e']
  | .bool false => ['f', 'a', 'l', 's', 'e']
  | .number n => printNumber n
  | .string s => printString s
  | .array items => '[' :: printElements items
  | .object members => '{' :: printMembers members
def printElements : List Value → List Char
  | [] => [']']
  | [x] => print x ++ [']']
  | x :: y :: xs => print x ++ ',' :: printElements (y :: xs)
def printMembers : List (String × Value) → List Char
  | [] => ['}']
  | [(k, x)] => (printString k ++ ':' :: print x) ++ ['}']
  | (k, x) :: y :: xs => (printString k ++ ':' :: print x) ++ ',' :: printMembers (y :: xs)
end

def printMember (m : String × Value) : List Char := printString m.1 ++ ':' :: print m.2

theorem printElements_eq (items : List Value) :
    printElements items = printMany print ']' items := by
  induction items with
  | nil => rfl
  | cons x xs ih =>
      cases xs with
      | nil => rfl
      | cons y ys => simp only [printElements, printMany, ih]

theorem printMembers_eq (members : List (String × Value)) :
    printMembers members = printMany printMember '}' members := by
  induction members with
  | nil => rfl
  | cons x xs ih =>
      cases xs with
      | nil => rfl
      | cons y ys => simp only [printMembers, printMany, printMember, ih]

def readMember (read : List Char → Option (Value × List Char)) (cs : List Char) :
    Option ((String × Value) × List Char) := do
  let (k, cs) ← readString (skipSpace cs)
  match skipSpace cs with
  | [] => none
  | c :: cs =>
      if c = ':' then
        let (v, cs) ← read cs
        return ((k, v), cs)
      else none

def readValue : Nat → List Char → Option (Value × List Char)
  | 0, _ => none
  | fuel + 1, cs =>
      match skipSpace cs with
      | 'n' :: 'u' :: 'l' :: 'l' :: rest => some (.null, rest)
      | 't' :: 'r' :: 'u' :: 'e' :: rest => some (.bool true, rest)
      | 'f' :: 'a' :: 'l' :: 's' :: 'e' :: rest => some (.bool false, rest)
      | '"' :: rest => (readString ('"' :: rest)).map fun (s, rest) => (.string s, rest)
      | '[' :: rest =>
          (readMany (readValue fuel) ']' fuel rest).map fun (items, rest) => (.array items, rest)
      | '{' :: rest =>
          (readMany (readMember (readValue fuel)) '}' fuel rest).map fun (members, rest) =>
            (.object members, rest)
      | cs => (readNumber cs).map fun (n, rest) => (.number n, rest)

theorem printInt_cons (i : Int) : ∃ c cs, printInt i = c :: cs ∧ (c = '-' ∨ c.isDigit = true) := by
  cases i with
  | ofNat n =>
      obtain ⟨c, cs, shape, digit⟩ := toDigits_cons n
      exact ⟨c, cs, shape, Or.inr digit⟩
  | negSucc n => exact ⟨'-', _, rfl, Or.inl rfl⟩

theorem numeral_plain {c : Char} (h : c = '-' ∨ c.isDigit = true) :
    isSpace c = false ∧ c ≠ ']' ∧ c ≠ '}' ∧ c ≠ 'n' ∧ c ≠ 't' ∧ c ≠ 'f' ∧ c ≠ '"' ∧ c ≠ '[' ∧
      c ≠ '{' := by
  rcases h with rfl | digit
  · decide
  · refine ⟨?_, ?_, ?_, ?_, ?_, ?_, ?_, ?_, ?_⟩
    · simp only [isSpace, Bool.or_eq_false_iff, decide_eq_false_iff_not]
      refine ⟨⟨⟨?_, ?_⟩, ?_⟩, ?_⟩ <;> rintro rfl <;> cases digit
    all_goals rintro rfl; cases digit

theorem starts_print (v : Value) : Starts (print v) := by
  cases v with
  | null => exact ⟨'n', _, rfl, by decide⟩
  | bool b => cases b <;> exact ⟨_, _, rfl, by decide⟩
  | number n =>
      obtain ⟨c, cs, shape, numeral⟩ := printInt_cons n.mantissa
      have plain := numeral_plain numeral
      exact ⟨c, cs ++ _, congrArg (· ++ _) shape, plain.1, plain.2.1, plain.2.2.1⟩
  | string s => exact ⟨'"', _, rfl, by decide⟩
  | array items => exact ⟨'[', _, rfl, by decide⟩
  | object members => exact ⟨'{', _, rfl, by decide⟩

theorem readValue_number (fuel : Nat) (n : Number) {rest : List Char} (h : Ends rest) :
    readValue (fuel + 1) (printNumber n ++ rest) = some (.number n, rest) := by
  obtain ⟨c, cs, shape, numeral⟩ := printInt_cons n.mantissa
  obtain ⟨space, _, _, hn, ht, hf, hq, hs, hb⟩ := numeral_plain numeral
  have whole : ∃ tail, printNumber n ++ rest = c :: tail :=
    ⟨_, by simp only [printNumber, shape, List.cons_append]; rfl⟩
  obtain ⟨tail, eq⟩ := whole
  have read := readNumber_append n h
  rw [eq] at read ⊢
  rw [readValue, skipSpace_cons space]
  split
  case h_7 => rw [read]; rfl
  all_goals
    rename_i same
    cases same
    contradiction

theorem length_printMany {α : Type} (f : α → List Char) (close : Char) (xs : List α) :
    xs.length ≤ (printMany f close xs).length ∧
      ∀ x ∈ xs, (f x).length < (printMany f close xs).length := by
  induction xs with
  | nil => simp
  | cons x xs ih =>
      cases xs with
      | nil => simp [printMany]
      | cons y ys =>
          obtain ⟨count, items⟩ := ih
          simp only [printMany, List.length_append, List.length_cons] at count ⊢
          refine ⟨by omega, ?_⟩
          intro z hz
          rcases List.mem_cons.mp hz with rfl | later
          · omega
          · have := items z later
            omega

/-- Enough fuel to read back what was printed; text length always suffices. -/
def Reads (v : Value) : Prop :=
  ∀ fuel rest, (print v).length ≤ fuel → Ends rest →
    readValue fuel (print v ++ rest) = some (v, rest)

theorem reads_null : Reads .null := by
  intro fuel rest enough _
  obtain ⟨fuel, rfl⟩ := Nat.exists_eq_add_of_le' (Nat.le_trans (by decide : 1 ≤ 4) enough)
  rfl

theorem reads_bool (b : Bool) : Reads (.bool b) := by
  intro fuel rest enough _
  cases b with
  | false =>
      obtain ⟨fuel, rfl⟩ := Nat.exists_eq_add_of_le' (Nat.le_trans (by decide : 1 ≤ 5) enough)
      rfl
  | true =>
      obtain ⟨fuel, rfl⟩ := Nat.exists_eq_add_of_le' (Nat.le_trans (by decide : 1 ≤ 4) enough)
      rfl

theorem print_length_pos (v : Value) : 0 < (print v).length := by
  obtain ⟨c, cs, shape, _⟩ := starts_print v
  rw [shape]
  exact Nat.succ_pos _

theorem reads_number (n : Number) : Reads (.number n) := by
  intro fuel rest enough ends
  obtain ⟨fuel, rfl⟩ := Nat.exists_eq_add_of_le' (Nat.le_trans (print_length_pos _) enough)
  exact readValue_number fuel n ends

theorem reads_string (s : String) : Reads (.string s) := by
  intro fuel rest enough _
  obtain ⟨fuel, rfl⟩ := Nat.exists_eq_add_of_le' (Nat.le_trans (print_length_pos _) enough)
  have read := readString_append s rest
  change (readString ('"' :: _)).map _ = _
  rw [show '"' :: _ = printString s ++ rest from rfl, read]
  rfl

theorem reads_array {items : List Value} (h : ∀ x ∈ items, Reads x) : Reads (.array items) := by
  intro fuel rest enough _
  simp only [print, printElements_eq, List.length_cons] at enough
  obtain ⟨fuel, rfl⟩ := Nat.exists_eq_add_of_le' (Nat.le_trans (Nat.le_add_left 1 _) enough)
  obtain ⟨count, short⟩ := length_printMany print ']' items
  have reads : ∀ x ∈ items, ∀ tail, Ends tail →
      readValue fuel (print x ++ tail) = some (x, tail) := by
    intro x hx tail ends
    have := short x hx
    exact h x hx fuel tail (by omega) ends
  have read := readMany_append (readValue fuel) print (Or.inl rfl) items fuel rest (by omega)
    (fun x _ => starts_print x) reads
  simp only [print, printElements_eq, List.cons_append]
  change (readMany _ ']' fuel _).map _ = _
  rw [read]
  rfl

theorem readMember_append {fuel : Nat} {m : String × Value} (h : Reads m.2)
    (enough : (print m.2).length ≤ fuel) {rest : List Char} (ends : Ends rest) :
    readMember (readValue fuel) (printMember m ++ rest) = some (m, rest) := by
  have key := readString_append m.1 (':' :: (print m.2 ++ rest))
  have start : skipSpace (printString m.1 ++ ':' :: (print m.2 ++ rest)) =
      printString m.1 ++ ':' :: (print m.2 ++ rest) := rfl
  simp only [readMember, printMember, List.append_assoc, List.cons_append, start, key]
  simp [skipSpace_cons (show isSpace ':' = false from rfl), h fuel rest enough ends]

theorem reads_object {members : List (String × Value)} (h : ∀ m ∈ members, Reads m.2) :
    Reads (.object members) := by
  intro fuel rest enough _
  simp only [print, printMembers_eq, List.length_cons] at enough
  obtain ⟨fuel, rfl⟩ := Nat.exists_eq_add_of_le' (Nat.le_trans (Nat.le_add_left 1 _) enough)
  obtain ⟨count, short⟩ := length_printMany printMember '}' members
  have fits : ∀ m ∈ members, (print m.2).length ≤ fuel := by
    intro m hm
    have := short m hm
    simp only [printMember, List.length_append, List.length_cons] at this
    omega
  have reads : ∀ m ∈ members, ∀ tail, Ends tail →
      readMember (readValue fuel) (printMember m ++ tail) = some (m, tail) := by
    intro m hm tail ends
    exact readMember_append (h m hm) (fits m hm) ends
  have read := readMany_append (readMember (readValue fuel)) printMember (Or.inr rfl) members fuel
    rest (by omega) (fun m _ => ⟨'"', _, rfl, by decide⟩) reads
  simp only [print, printMembers_eq, List.cons_append]
  change (readMany _ '}' fuel _).map _ = _
  rw [read]
  rfl

mutual
theorem reads_print : (v : Value) → Reads v
  | .null => reads_null
  | .bool b => reads_bool b
  | .number n => reads_number n
  | .string s => reads_string s
  | .array items => reads_array (reads_elements items)
  | .object members => reads_object (reads_members members)
theorem reads_elements : (items : List Value) → ∀ x ∈ items, Reads x
  | [] => fun _ hx => nomatch hx
  | x :: xs => List.forall_mem_cons.mpr ⟨reads_print x, reads_elements xs⟩
theorem reads_members : (members : List (String × Value)) → ∀ m ∈ members, Reads m.2
  | [] => fun _ hm => nomatch hm
  | (_, v) :: xs => List.forall_mem_cons.mpr ⟨reads_print v, reads_members xs⟩
end

def parseChars (cs : List Char) : Except Error Value :=
  match readValue cs.length cs with
  | some (v, rest) => if skipSpace rest = [] then .ok v else .error .syntaxError
  | none => .error .syntaxError

theorem parseChars_print (v : Value) : parseChars (print v) = .ok v := by
  have read := reads_print v (print v).length [] le_rfl trivial
  rw [List.append_nil] at read
  simp only [parseChars, read]
  rfl

/-- UTF-8 bytes of the printed characters; other bytes are a syntax error. -/
def parse (bytes : ByteArray) : Except Error Value :=
  match String.fromUTF8? bytes with
  | some s => parseChars s.toList
  | none => .error .syntaxError

theorem parse_print (v : Value) : parse (String.ofList (print v)).toUTF8 = .ok v := by
  have valid : String.fromUTF8? (String.ofList (print v)).toUTF8 = some (String.ofList (print v)) :=
    dif_pos (String.ofList (print v)).isValidUTF8
  simp only [parse, valid, String.toList_ofList, parseChars_print]

def display : Error → String
  | .syntaxError => "expected value"
  | .missingField name => s!"missing field {name}"
  | .duplicateField name => s!"duplicate field {name}"
  | .unknownVariant name => s!"unknown variant {name}"
  | .invalidLength n => s!"invalid length {n}"
  | .invalidType => "invalid type"
  | .recursionLimit => "recursion limit exceeded"
  | .custom message => message
  | .located e (line, column) => s!"{display e} at line {line} column {column}"

/-- The format of this module; reducible, so that examples can name it. Each of its readers
gives up at the limit, with the end of the text as the place. -/
abbrev format : TextFormat where
  print v := (String.ofList (print v)).toUTF8
  parse := parse
  tooDeep _ _ v := decide (128 ≤ v.depth)
  place _ _ bytes := (1, bytes.size)
  shallow _ _ _ few := decide_eq_false (Nat.not_le.mpr few)
  display := display
  parse_print := parse_print

example : print (.array [.string "a", .bool true, .null]) = "[\"a\",true,null]".toList := by decide

end Json.Compact
